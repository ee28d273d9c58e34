import FieldBinder.Field.Basic
import FieldBinder.Proofs.Directive.WrittenPaths

/-!
# The spellings of a directive

The parameters of a directive stand in brackets behind an equals sign or in parentheses, its base
behind an equals sign or in parentheses, a path is bare or in a string literal, and either key comes
first (`Arguments.spelling`).  All of this means the same, except that a path that starts with `::`
is not understood where it stands bare in parentheses (`Directive.load_spelling`); invisible groups
change nothing (`Arguments.ofItems_eq_of_ungrouped_eq`,
`Arguments.ofItems_iterate_group`).
-/

namespace FieldBinder

open Grammar
open Token (sizeList groups listed)

/-! ### The two keys -/

section Entries

variable {ps : List Path} {p : Path} {ts : List Token}

/-- Whether an item holds the parameters, with a certain result. -/
def MetaItem.GivesParameters (result : Except ArgumentFault (List Path)) (i : MetaItem) : Prop :=
  i.Gives "constructor_parameters" (·.mapM MetaItem.path) pathsOfExpr result

/-- Whether an item holds the base, with a certain result. -/
def MetaItem.GivesBase (result : Except ArgumentFault Path) (i : MetaItem) : Prop :=
  i.Gives "country_parameterized_class" pathOfItems Path.ofExpr result

/-- The tokens of the parameters; `inside` says how a path is written in parentheses. -/
def parametersSpelling (inside : Path → Language Token) (ps : List Path) : Language Token :=
  keySpelling "constructor_parameters" (groups .bracket (listed ',' (ps.map Path.written)))
    (listed ',' (ps.map inside))

/-- The tokens of the base; `inside` says how a path is written in parentheses. -/
def baseSpelling (inside : Path → Language Token) (p : Path) : Language Token :=
  keySpelling "country_parameterized_class" p.written (listed ',' ([p].map inside))

theorem takes_attributeValue_array (hps : ∀ p ∈ ps, p.IsSimple)
    (hts : ts ∈ groups .bracket (listed ',' (ps.map Path.written))) (n : Nat) {us : List Token}
    (hus : EndsItem us) :
    Takes (attributeValue (rules (n + 4))) (ts ++ us) us fun e => pathsOfExpr e = .ok ps := by
  obtain ⟨body, hbody, rfl⟩ := hts
  have hitems : ∀ p ∈ ps, ReadsItem (rules (n + 2) (.expr true)) List.isEmpty EndsItem
      (sizeList body) p.written fun e => Path.ofExpr e = .ok p :=
    fun p hp => readsItem_written (hps p hp)
  refine takes_attributeValue rfl rfl <| (takes_expr_array hitems hbody le_rfl hus).mono ?_
  rintro _ ⟨elems, rfl, hforall⟩
  rw [pathsOfExpr]
  exact mapM_eq_ok_iff.2 hforall.flip

/-- An entry with the parameters written so that items can hold them gives these parameters. -/
theorem readsEntry_parameters (hps : ∀ p ∈ ps, p.IsSimple)
    (hts : ts ∈ parametersSpelling Path.enclosed ps) :
    ReadsEntry ts (·.GivesParameters (.ok ps)) := by
  refine readsEntry_ok (by decide) ?_ ?_ hts
  · intro vs hvs n us hus
    exact takes_attributeValue_array hps hvs (n + 2) hus
  · intro body hbody
    obtain ⟨items, hitems, hforall⟩ := exists_itemsOf_eq_ok hps hbody
    rw [hitems]
    exact mapM_eq_ok_iff.2 hforall.flip

/-- An entry with the class written so that items can hold it gives this class. -/
theorem readsEntry_base (hp : p.IsSimple) (hts : ts ∈ baseSpelling Path.enclosed p) :
    ReadsEntry ts (·.GivesBase (.ok p)) := by
  refine readsEntry_ok (by decide) ?_ ?_ hts
  · intro vs hvs n us hus
    exact takes_attributeValue_written hp hvs hus
  · intro body hbody
    obtain ⟨items, hitems, hforall⟩ := exists_itemsOf_eq_ok (List.forall_mem_singleton.2 hp) hbody
    obtain ⟨i, items', hi, hnil, rfl⟩ := List.forall₂_cons_left_iff.1 hforall
    rw [hitems, List.forall₂_nil_left_iff.1 hnil]
    exact hi

/-- An entry with the parameters written in a way that items cannot hold gives a fault. -/
theorem readsEntry_parameters_error (hps : ∀ p ∈ ps, p.IsSimple)
    (hts : ts ∈ parametersSpelling Path.written ps)
    (hnot : ts ∉ parametersSpelling Path.enclosed ps) :
    ∃ f, ReadsEntry ts (·.GivesParameters (.error f)) := by
  refine readsEntry_error (by decide) ?_ hts hnot
  intro body hbody hbody'
  exact ⟨colonsFault, by rw [itemsOf_eq_error hps hbody hbody']; rfl⟩

/-- An entry with the class written in a way that items cannot hold gives a fault. -/
theorem readsEntry_base_error (hp : p.IsSimple) (hts : ts ∈ baseSpelling Path.written p)
    (hnot : ts ∉ baseSpelling Path.enclosed p) : ∃ f, ReadsEntry ts (·.GivesBase (.error f)) := by
  refine readsEntry_error (by decide) ?_ hts hnot
  intro body hbody hbody'
  have herror := itemsOf_eq_error (List.forall_mem_singleton.2 hp) hbody hbody'
  exact ⟨colonsFault, by rw [herror]; rfl⟩

/-- Two entries in a list are two items. -/
theorem exists_metaItems_pair {xs ys : List Token} {P Q : MetaItem → Prop} (hxs : ReadsEntry xs P)
    (hys : ReadsEntry ys Q) (hts : ts ∈ listed ',' [{xs}, {ys}]) :
    ∃ i j, itemsOf ts = .ok [i, j] ∧ P i ∧ Q j := by
  have hentry (zs : List Token) (R : MetaItem → Prop) (hzs : ReadsEntry zs R) :
      ReadsItem (metaItem (rulesFor ts)) List.isEmpty EndsItem (sizeList ts) {zs} R := by
    rintro _ rfl -
    exact ⟨fun us => (hzs 0 us).1, (hzs (6 * sizeList ts + 10) · |>.2)⟩
  have hitems : ∀ a ∈ [(xs, P), (ys, Q)], ReadsItem (metaItem (rulesFor ts)) List.isEmpty EndsItem
      (sizeList ts) {a.1} a.2 := by
    simp only [List.forall_mem_cons, List.not_mem_nil, false_imp_iff, implies_true, and_true]
    exact ⟨hentry xs P hxs, hentry ys Q hys⟩
  obtain ⟨items, hread, hforall⟩ := exists_metaItems_eq_ok hitems hts
  obtain ⟨i, r, hi, hr, rfl⟩ := List.forall₂_cons_left_iff.1 hforall
  obtain ⟨j, r, hj, hnil, rfl⟩ := List.forall₂_cons_left_iff.1 hr
  obtain rfl := List.forall₂_nil_left_iff.1 hnil
  exact ⟨i, j, by rw [itemsOf, hread]; rfl, hi, hj⟩

/-- A list of two items is written as the two are, with marks between them and behind them. -/
theorem mem_listed_pair_iff {c : Char} {L M : Language Token} :
    ts ∈ listed c [L, M] ↔ ∃ xs ∈ L, ∃ ys ∈ M, ts ∈ listed c [{xs}, {ys}] := by
  have hself (us : List Token) : us ∈ ({us} : Language Token) := rfl
  constructor
  · intro h
    obtain ⟨hnil, -⟩ | ⟨xs, hxs, joint, vs, hvs, rfl⟩ := mem_listed_cons.1 h
    · cases hnil
    · obtain ⟨-, hvs⟩ | ⟨ys, hys, joint', end', hend, rfl⟩ := mem_listed_cons.1 hvs
      · exact ⟨xs, hxs, vs, hvs, mem_listed_behind (hself xs) joint (mem_listed_last (hself vs))⟩
      · have hbehind := mem_listed_behind (hself ys) joint' hend
        exact ⟨xs, hxs, ys, hys, mem_listed_behind (hself xs) joint hbehind⟩
  · rintro ⟨xs, hxs, ys, hys, h⟩
    obtain ⟨hnil, -⟩ | ⟨_, rfl, joint, vs, hvs, rfl⟩ := mem_listed_cons.1 h
    · cases hnil
    · refine mem_listed_behind hxs joint ?_
      obtain ⟨-, rfl⟩ | ⟨_, rfl, joint', end', hend, rfl⟩ := mem_listed_cons.1 hvs
      · exact mem_listed_last hys
      · exact mem_listed_behind hys joint' hend

end Entries

namespace Arguments

/-! ### The arguments -/

section Pairs

variable {s : Progress} {i j : MetaItem} {result : Except ArgumentFault (List Path)}
  {result' : Except ArgumentFault Path}

theorem idents_ofIdent (key : String) : joinTexts "::" (Path.ofIdent key).idents = key := by
  rw [Path.idents, Path.ofIdent, Path.segments, List.map_singleton, Segment.ident]
  simp [joinTexts]

theorem add_parameters (hi : i.GivesParameters result)
    (hs : s.seen.contains "constructor_parameters" = false) :
    s.add i = s.note "constructor_parameters" (fun a ps => { a with parameters := some ps })
      result := by
  obtain ⟨⟨tokens, rfl⟩ | ⟨e, rfl⟩, rfl⟩ := hi <;>
  · rw [Progress.add]
    simp only [idents_ofIdent, hs]
    rfl

theorem add_base (hi : i.GivesBase result')
    (hs : s.seen.contains "country_parameterized_class" = false) :
    s.add i = s.note "country_parameterized_class" (fun a p => { a with base := some p })
      result' := by
  obtain ⟨⟨tokens, rfl⟩ | ⟨e, rfl⟩, rfl⟩ := hi <;>
  · rw [Progress.add]
    simp only [idents_ofIdent, hs]
    rfl

/-- Parameters and a base make the same arguments in either order, and none if one of them has a
fault. -/
theorem ofItems_pair (hi : i.GivesParameters result) (hj : j.GivesBase result') :
    (∀ ps p, result = .ok ps → result' = .ok p →
      ofItems [i, j] = .ok ⟨some ps, some p⟩ ∧ ofItems [j, i] = .ok ⟨some ps, some p⟩) ∧
    ((∃ f, result = .error f) ∨ (∃ f, result' = .error f) →
      (∃ f, ofItems [i, j] = .error f) ∧ ∃ f, ofItems [j, i] = .error f) := by
  -- in either order both values are noted, each under its own key
  have hparameters : [i, j].foldl Progress.add {} =
      (Progress.note {} "constructor_parameters" (fun a ps => { a with parameters := some ps })
        result).note "country_parameterized_class" (fun a p => { a with base := some p })
          result' := by
    rw [List.foldl_cons, List.foldl_cons, List.foldl_nil, add_parameters hi rfl, add_base hj]
    cases result <;> rfl
  have hbase : [j, i].foldl Progress.add {} =
      (Progress.note {} "country_parameterized_class" (fun a p => { a with base := some p })
        result').note "constructor_parameters" (fun a ps => { a with parameters := some ps })
          result := by
    rw [List.foldl_cons, List.foldl_cons, List.foldl_nil, add_base hj rfl, add_parameters hi]
    cases result' <;> rfl
  rw [ofItems, ofItems, hparameters, hbase]
  constructor
  · rintro ps p rfl rfl
    exact ⟨rfl, rfl⟩
  · intro h
    cases result with
    | error f => cases result' <;> exact ⟨⟨_, rfl⟩, _, rfl⟩
    | ok ps =>
      cases result' with
      | error f => exact ⟨⟨_, rfl⟩, _, rfl⟩
      | ok p => simp at h

end Pairs

/-- The tokens of a directive with both keys, in either order; `inside` says how a path is written
in parentheses. -/
def spelling (inside : Path → Language Token) (ps : List Path) (base : Path) : Language Token :=
  listed ',' [parametersSpelling inside ps, baseSpelling inside base] +
    listed ',' [baseSpelling inside base, parametersSpelling inside ps]

section Spellings

variable {ps : List Path} {base : Path} {ts : List Token}

/-- The two entries stand in either order, with or without a comma behind the last one. -/
theorem mem_spelling_iff {inside : Path → Language Token} :
    ts ∈ spelling inside ps base ↔ ∃ xs ∈ parametersSpelling inside ps,
      ∃ ys ∈ baseSpelling inside base, ts ∈ listed ',' [{xs}, {ys}] + listed ',' [{ys}, {xs}] := by
  constructor
  · rintro (hts | hts)
    · obtain ⟨xs, hxs, ys, hys, hpair⟩ := mem_listed_pair_iff.1 hts
      exact ⟨xs, hxs, ys, hys, .inl hpair⟩
    · obtain ⟨ys, hys, xs, hxs, hpair⟩ := mem_listed_pair_iff.1 hts
      exact ⟨xs, hxs, ys, hys, .inr hpair⟩
  · rintro ⟨xs, hxs, ys, hys, hpair | hpair⟩
    · exact .inl (mem_listed_pair_iff.2 ⟨xs, hxs, ys, hys, hpair⟩)
    · exact .inr (mem_listed_pair_iff.2 ⟨ys, hys, xs, hxs, hpair⟩)

theorem mem_spelling {inside : Path → Language Token} {xs ys : List Token}
    (hxs : xs ∈ parametersSpelling inside ps) (hys : ys ∈ baseSpelling inside base)
    (joint : Bool) : xs ++ .punct ',' joint :: ys ∈ spelling inside ps base :=
  .inl <| mem_listed_behind hxs joint (mem_listed_last hys)

/-- What an attribute makes of the tokens of two keys. -/
theorem ofAttribute_pair {xs ys : List Token} {result : Except ArgumentFault (List Path)}
    {result' : Except ArgumentFault Path} (hxs : ReadsEntry xs (·.GivesParameters result))
    (hys : ReadsEntry ys (·.GivesBase result'))
    (hts : ts ∈ listed ',' [{xs}, {ys}] + listed ',' [{ys}, {xs}]) (path : Path) :
    (∀ ps p, result = .ok ps → result' = .ok p →
      ofAttribute ⟨path, .list ts⟩ = .ok ⟨some ps, some p⟩) ∧
    ((∃ f, result = .error f) ∨ (∃ f, result' = .error f) →
      ∃ f, ofAttribute ⟨path, .list ts⟩ = .error f) := by
  have hread : ofAttribute ⟨path, .list ts⟩ = itemsOf ts >>= ofItems := rfl
  rcases hts with hts | hts
  · obtain ⟨i, j, hitems, hi, hj⟩ := exists_metaItems_pair hxs hys hts
    obtain ⟨hok, herror⟩ := ofItems_pair hi hj
    rw [hread, hitems]
    exact ⟨fun ps p h h' => (hok ps p h h').1, fun h => (herror h).1⟩
  · obtain ⟨j, i, hitems, hj, hi⟩ := exists_metaItems_pair hys hxs hts
    obtain ⟨hok, herror⟩ := ofItems_pair hi hj
    rw [hread, hitems]
    exact ⟨fun ps p h h' => (hok ps p h h').2, fun h => (herror h).2⟩

/-- The tokens of a directive make the paths that are written, if all paths in parentheses are
understood there. -/
theorem ofAttribute_eq_ok (hps : ∀ p ∈ ps, p.IsSimple) (hbase : base.IsSimple)
    (hts : ts ∈ spelling Path.enclosed ps base) (path : Path) :
    ofAttribute ⟨path, .list ts⟩ = .ok ⟨some ps, some base⟩ := by
  obtain ⟨xs, hxs, ys, hys, hpair⟩ := mem_spelling_iff.1 hts
  have hparameters := readsEntry_parameters hps hxs
  have hclass := readsEntry_base hbase hys
  exact (ofAttribute_pair hparameters hclass hpair path).1 ps base rfl rfl

/-- A directive with a bare path in parentheses that starts with `::` makes no arguments. -/
theorem ofAttribute_eq_error (hps : ∀ p ∈ ps, p.IsSimple) (hbase : base.IsSimple)
    (hts : ts ∈ spelling Path.written ps base) (hnot : ts ∉ spelling Path.enclosed ps base)
    (path : Path) : ∃ f, ofAttribute ⟨path, .list ts⟩ = .error f := by
  obtain ⟨xs, hxs, ys, hys, hpair⟩ := mem_spelling_iff.1 hts
  -- each key gives its paths or a fault, and not both keys can give paths
  obtain ⟨result, hparameters, hresult⟩ : ∃ result, ReadsEntry xs (·.GivesParameters result) ∧
      (xs ∈ parametersSpelling Path.enclosed ps ∨ ∃ f, result = .error f) := by
    by_cases hxs' : xs ∈ parametersSpelling Path.enclosed ps
    · exact ⟨_, readsEntry_parameters hps hxs', .inl hxs'⟩
    · obtain ⟨f, hf⟩ := readsEntry_parameters_error hps hxs hxs'
      exact ⟨_, hf, .inr ⟨f, rfl⟩⟩
  obtain ⟨result', hclass, hresult'⟩ : ∃ result', ReadsEntry ys (·.GivesBase result') ∧
      (ys ∈ baseSpelling Path.enclosed base ∨ ∃ f, result' = .error f) := by
    by_cases hys' : ys ∈ baseSpelling Path.enclosed base
    · exact ⟨_, readsEntry_base hbase hys', .inl hys'⟩
    · obtain ⟨f, hf⟩ := readsEntry_base_error hbase hys hys'
      exact ⟨_, hf, .inr ⟨f, rfl⟩⟩
  have herror := (ofAttribute_pair hparameters hclass hpair path).2
  rcases hresult with hxs | hresult
  · rcases hresult' with hys | hresult'
    · exact absurd (mem_spelling_iff.2 ⟨xs, hxs, ys, hys, hpair⟩) hnot
    · exact herror (.inr hresult')
  · exact herror (.inl hresult)

end Spellings

end Arguments

/-! ### Invisible groups -/

/-- An expression without the invisible groups around it. -/
def Expr.peeled : Expr → Expr
  | .group e => e.peeled
  | e => e

/-- An expression without the invisible groups around it and around the elements of an array. -/
def Expr.ungrouped (e : Expr) : Expr :=
  match e.peeled with
  | .array elems => .array (elems.map Expr.peeled)
  | e => e

/-- An item without the invisible groups in its value. -/
def MetaItem.ungrouped : MetaItem → MetaItem
  | .value p e => .value p e.ungrouped
  | i => i

theorem Expr.peeled_iterate_group (e : Expr) (n : Nat) : (Expr.group^[n] e).peeled = e.peeled := by
  induction n with
  | zero => rfl
  | succ n ih => rw [Function.iterate_succ_apply', peeled, ih]

/-- Groups around an array, and around each element of it, are not seen. -/
theorem Expr.ungrouped_iterate_group (elems : List (Nat × Expr)) (n : Nat) :
    (Expr.group^[n] (.array (elems.map fun e => Expr.group^[e.1] e.2))).ungrouped =
      (Expr.array (elems.map Prod.snd)).ungrouped := by
  rw [ungrouped, peeled_iterate_group, ungrouped]
  simp only [peeled, List.map_map, Function.comp_def, peeled_iterate_group]

theorem Path.ofExpr_peeled : ∀ e : Expr, Path.ofExpr e.peeled = Path.ofExpr e
  | .group e => by rw [Expr.peeled, Path.ofExpr_peeled e, Path.ofExpr]
  | .path _ | .literal _ | .array _ | .operation _ _ | .other _ => by rw [Expr.peeled]; simp

theorem pathsOfExpr_peeled : ∀ e : Expr, pathsOfExpr e.peeled = pathsOfExpr e
  | .group e => by rw [Expr.peeled, pathsOfExpr_peeled e, pathsOfExpr]
  | .path _ | .literal _ | .array _ | .operation _ _ | .other _ => by rw [Expr.peeled]; simp

theorem Path.ofExpr_ungrouped (e : Expr) : Path.ofExpr e.ungrouped = Path.ofExpr e := by
  rw [← Path.ofExpr_peeled e, Expr.ungrouped]
  split
  · next elems heq =>
    have harray (l : List Expr) : Path.ofExpr (.array l) = .error (.notAType "array") := rfl
    rw [heq, harray, harray]
  · rfl

theorem pathsOfExpr_ungrouped (e : Expr) : pathsOfExpr e.ungrouped = pathsOfExpr e := by
  rw [← pathsOfExpr_peeled e, Expr.ungrouped]
  split
  · next elems heq =>
    rw [heq, pathsOfExpr, pathsOfExpr, List.mapM_map]
    exact congrArg (elems.mapM ·) (funext Path.ofExpr_peeled)
  · rfl

namespace Arguments

/-- An item is added as if it had no invisible groups. -/
theorem add_ungrouped (s : Progress) (i : MetaItem) : s.add i.ungrouped = s.add i := by
  cases i with
  | value p e =>
    rw [MetaItem.ungrouped, Progress.add, Progress.add]
    simp only [MetaItem.read, Path.ofExpr_ungrouped, pathsOfExpr_ungrouped]
  | literal | word | list => rfl

/-- Items that differ in invisible groups make the same arguments. -/
theorem ofItems_eq_of_ungrouped_eq {items items' : List MetaItem}
    (h : items'.map MetaItem.ungrouped = items.map MetaItem.ungrouped) :
    ofItems items' = ofItems items := by
  have hfold (items : List MetaItem) : (items.map MetaItem.ungrouped).foldl Progress.add {} =
      items.foldl Progress.add {} := by
    rw [List.foldl_map]
    exact congrArg (fun f => items.foldl f {}) (funext₂ add_ungrouped)
  rw [ofItems, ofItems, ← hfold items', h, hfold items]

/-- Any number of groups can stand around the value of an item; around an array, and around each
element of it. -/
theorem ofItems_iterate_group (before after : List MetaItem) (key : Path) :
    (∀ (e : Expr) (n : Nat), ofItems (before ++ .value key (Expr.group^[n] e) :: after) =
      ofItems (before ++ .value key e :: after)) ∧
    ∀ (elems : List (Nat × Expr)) (n : Nat),
      ofItems (before ++ .value key
          (Expr.group^[n] (.array (elems.map fun e => Expr.group^[e.1] e.2))) :: after) =
        ofItems (before ++ .value key (.array (elems.map Prod.snd)) :: after) := by
  have hvalue {e e' : Expr} (h : e.ungrouped = e'.ungrouped) :
      ofItems (before ++ .value key e :: after) = ofItems (before ++ .value key e' :: after) :=
    ofItems_eq_of_ungrouped_eq <| by
      rw [List.map_append, List.map_append, List.map_cons, List.map_cons, MetaItem.ungrouped, h,
        ← MetaItem.ungrouped]
  refine ⟨fun e n => hvalue ?_, fun elems n => hvalue (Expr.ungrouped_iterate_group elems n)⟩
  rw [Expr.ungrouped, Expr.peeled_iterate_group, ← Expr.ungrouped]

end Arguments

namespace Directive

variable {ps : List Path} {base : Path}

/-- A field is marked by what is read from its directive, and not by how that is spelled. -/
theorem ofField?_congr {marker : String} {m : Module} {enclosing : TypeName} {f : NamedField}
    {before after : List Attribute} {a b : Attribute} (hpath : a.path = b.path)
    (hload : ∀ s, load s a = load s b) :
    MarkedField.ofField? marker m enclosing { f with attributes := before ++ a :: after } =
      MarkedField.ofField? marker m enclosing { f with attributes := before ++ b :: after } := by
  rw [MarkedField.ofField?, MarkedField.ofField?]
  simp only [List.find?_append, List.find?_cons, hpath]
  cases before.find? fun a => a.path.isIdent marker with
  | some a' => rfl
  | none =>
    cases b.path.isIdent marker with
    | false => rfl
    | true => simp [hload m.scope]

/-- A directive means the paths that are written in it, however they are spelled: with brackets or
parentheses, bare or in string literals, in either order of the keys, so that a field is marked in
the same way by all spellings.  Only a path that starts with `::` is not understood where it stands
bare in parentheses; such a directive has neither parameters nor a base.  Invisible groups in values
are not seen, however many there are, around a value or around the elements of an array. -/
theorem load_spelling (hps : ∀ p ∈ ps, p.IsSimple) (hbase : base.IsSimple) :
    (∀ ts ∈ Arguments.spelling Path.enclosed ps base, ∀ path s,
      load s ⟨path, .list ts⟩ = ofArguments s ⟨some ps, some base⟩) ∧
    (∀ ts ∈ Arguments.spelling Path.written ps base, ts ∉ Arguments.spelling Path.enclosed ps base →
      ∀ path, ∃ f, ∀ s,
        load s ⟨path, .list ts⟩ = ⟨{}, .error (.malformed f), .error (.malformed f)⟩) ∧
    (∀ ts ∈ Arguments.spelling Path.enclosed ps base,
      ∀ us ∈ Arguments.spelling Path.enclosed ps base,
      ∀ marker m enclosing (f : NamedField) before after path,
        MarkedField.ofField? marker m enclosing
            { f with attributes := before ++ ⟨path, .list ts⟩ :: after } =
          MarkedField.ofField? marker m enclosing
            { f with attributes := before ++ ⟨path, .list us⟩ :: after }) ∧
    (∀ items items' : List MetaItem, items'.map MetaItem.ungrouped = items.map MetaItem.ungrouped →
      Arguments.ofItems items' = Arguments.ofItems items) ∧
    ∀ (before after : List MetaItem) (key : Path),
      (∀ (e : Expr) (n : Nat),
        Arguments.ofItems (before ++ .value key (Expr.group^[n] e) :: after) =
          Arguments.ofItems (before ++ .value key e :: after)) ∧
      ∀ (elems : List (Nat × Expr)) (n : Nat),
        Arguments.ofItems (before ++ .value key
            (Expr.group^[n] (.array (elems.map fun e => Expr.group^[e.1] e.2))) :: after) =
          Arguments.ofItems (before ++ .value key (.array (elems.map Prod.snd)) :: after) := by
  have hload : ∀ ts ∈ Arguments.spelling Path.enclosed ps base, ∀ path s,
      load s ⟨path, .list ts⟩ = ofArguments s ⟨some ps, some base⟩ := by
    intro ts hts path s
    rw [load, Arguments.ofAttribute_eq_ok hps hbase hts path]
  refine ⟨hload, ?_, ?_, fun _ _ => Arguments.ofItems_eq_of_ungrouped_eq,
    Arguments.ofItems_iterate_group⟩
  · intro ts hts hnot path
    obtain ⟨f, hf⟩ := Arguments.ofAttribute_eq_error hps hbase hts hnot path
    exact ⟨f, fun s => by rw [load, hf]⟩
  · intro ts hts us hus marker m enclosing f before after path
    -- A field is read through its directive alone, and both directives are the same.
    exact ofField?_congr rfl fun s => (hload ts hts path s).trans (hload us hus path s).symm

/-- The path `::chrono::NaiveDate`. -/
def naiveDate : Path := .mk true [.mk "chrono" .none, .mk "NaiveDate" .none]

/-- The tokens of a directive whose base is `Country`, behind those of its parameters. -/
def forCountry (parameters : List Token) : List Token :=
  .word "constructor_parameters" :: (parameters ++ [.punct ',' false,
    .word "country_parameterized_class", .punct '=' false, .word "Country"])

theorem isSimple_naiveDate : naiveDate.IsSimple :=
  ⟨List.cons_ne_nil _ _, rfl, by decide⟩

theorem isSimple_country : (Path.ofIdent "Country").IsSimple :=
  ⟨List.cons_ne_nil _ _, rfl, by decide⟩

theorem naiveDate_written : naiveDate.tokens ∈ naiveDate.written :=
  .inl isSimple_naiveDate.tokens_mem_spelling

theorem naiveDate_bracket : [.group .bracket naiveDate.tokens] ∈
    groups .bracket (listed ',' ([naiveDate].map Path.written)) :=
  ⟨_, mem_listed_last naiveDate_written, rfl⟩

theorem naiveDate_quoted : [.literal "\"::chrono::NaiveDate\""] ∈ naiveDate.quoted := by
  have hnamed : naiveDate.IsNamed := by
    have hwords : ∀ w ∈ naiveDate.idents, Token.isWordText w = true := by decide
    exact fun w hw => Token.isNameText_of_isWordText (hwords w hw)
  exact isSimple_naiveDate.literal_mem_quoted hnamed (by decide) (by decide)

theorem forCountry_mem_spelling {inside : Path → Language Token} {parameters : List Token}
    (h : .word "constructor_parameters" :: parameters ∈ parametersSpelling inside [naiveDate]) :
    forCountry parameters ∈ Arguments.spelling inside [naiveDate] (.ofIdent "Country") :=
  Arguments.mem_spelling h
    (value_mem_keySpelling (.inl isSimple_country.tokens_mem_spelling) false) false

theorem load_spelling_naiveDate :
    (∀ p ∈ [naiveDate], p.IsSimple) ∧ (Path.ofIdent "Country").IsSimple ∧
    (∀ parameters ∈ [[.punct '=' false, .group .bracket naiveDate.tokens],
        [.group .paren [.literal "\"::chrono::NaiveDate\""]]], ∀ path s,
      load s ⟨path, .list (forCountry parameters)⟩ =
        ofArguments s ⟨some [naiveDate], some (.ofIdent "Country")⟩) ∧
    ∀ path, ∃ f, ∀ s, load s ⟨path, .list (forCountry [.group .paren naiveDate.tokens])⟩ =
      ⟨{}, .error (.malformed f), .error (.malformed f)⟩ := by
  have hps : ∀ p ∈ [naiveDate], p.IsSimple := List.forall_mem_singleton.2 isSimple_naiveDate
  obtain ⟨hload, hmalformed, -⟩ := load_spelling hps isSimple_country
  refine ⟨hps, isSimple_country, ?_, ?_⟩
  · refine List.forall_mem_cons.2 ⟨?_, List.forall_mem_singleton.2 ?_⟩
    · exact hload _ (forCountry_mem_spelling (value_mem_keySpelling naiveDate_bracket false))
    · have hquoted : [.literal "\"::chrono::NaiveDate\""] ∈ naiveDate.enclosed :=
        .inr naiveDate_quoted
      exact hload _ (forCountry_mem_spelling (list_mem_keySpelling (mem_listed_last hquoted)))
  · have hlisted := mem_listed_last (c := ',') naiveDate_written
    refine hmalformed _ (forCountry_mem_spelling (list_mem_keySpelling hlisted)) ?_
    -- it is not understood, since nothing is read from it
    intro hmem
    have hok := Arguments.ofAttribute_eq_ok hps isSimple_country hmem naiveDate
    have herror : Arguments.ofAttribute
        ⟨naiveDate, .list (forCountry [.group .paren naiveDate.tokens])⟩ =
        .error (.inside "constructor_parameters" colonsFault) := rfl
    rw [herror] at hok
    cases hok

/-- `constructor_parameters(::chrono::NaiveDate)` is not read, but
`constructor_parameters = [::chrono::NaiveDate]` is. -/
theorem ofAttribute_naiveDate_ne :
    forCountry [.group .paren naiveDate.tokens] ∈
      Arguments.spelling Path.written [naiveDate] (.ofIdent "Country") ∧
    forCountry [.punct '=' false, .group .bracket naiveDate.tokens] ∈
      Arguments.spelling Path.written [naiveDate] (.ofIdent "Country") ∧
    Arguments.ofAttribute ⟨.ofIdent "country_field_binder",
      .list (forCountry [.group .paren naiveDate.tokens])⟩ =
        .error (.inside "constructor_parameters" colonsFault) ∧
    Arguments.ofAttribute ⟨.ofIdent "country_field_binder",
      .list (forCountry [.punct '=' false, .group .bracket naiveDate.tokens])⟩ =
        .ok ⟨some [naiveDate], some (.ofIdent "Country")⟩ := by
  refine ⟨?_, ?_, rfl, rfl⟩
  · exact forCountry_mem_spelling (list_mem_keySpelling (mem_listed_last naiveDate_written))
  · exact forCountry_mem_spelling (value_mem_keySpelling naiveDate_bracket false)

end Directive

end FieldBinder
