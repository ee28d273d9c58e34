import FieldBinder.Directive.Basic
import FieldBinder.Proofs.Attempts
import FieldBinder.Proofs.Crate.Spelling

/-!
# The names in directives

The paths that are written in a directive are made of words of the text
(`Arguments.isNamed_of_ofAttribute`), so the types that it means have names of its scope and words
of the text (`Directive.spelled_of_extract`).
-/

namespace FieldBinder

open Token (LexicalList)

/-- Whether the names in a path are words. -/
def Path.IsNamed (p : Path) : Prop := ∀ w ∈ p.idents, IsNameText w

/-- The segments of a path that is read are names. -/
theorem Path.Sound.isNamed {p : Path} (h : p.Sound false) : p.IsNamed := by
  obtain ⟨leading, segments⟩ := p
  rw [Path.Sound, Segment.soundList_iff] at h
  intro w hw
  obtain ⟨⟨ident, args⟩, hs, rfl⟩ := List.mem_map.1 hw
  have hsegment := h.2 _ hs
  rw [Segment.Sound] at hsegment
  exact hsegment.1

/-- What holds of an item in a list that is read. -/
def MetaItem.Sound : MetaItem → Prop
  | .literal _ => True
  | .word p => p.IsNamed
  | .list _ tokens => LexicalList tokens
  | .value _ e => e.Sound

/-- Whether the paths of arguments are made of words. -/
structure Arguments.IsNamed (args : Arguments) : Prop where
  parameters : ∀ ps ∈ args.parameters, ∀ p ∈ ps, p.IsNamed
  base : ∀ p ∈ args.base, p.IsNamed

namespace Grammar

/-! ### Reading items -/

variable {g : Rules} [Rules.Sound g]

/-- What is taken as segments without arguments are names. -/
theorem ensures_plainSegments (accepts : List Token → Bool) (n : Nat) :
    Ensures (plainSegments accepts n) fun x => ∀ s ∈ x.1, IsNameText s.ident := by
  induction n with
  | zero => exact .pure (by simp)
  | succ n ih =>
    refine .after fun ts => .ite (fun _ => .from fun w hw => .after fun _ => ?_) fun _ =>
      .pure (by simp)
    refine .ite (fun _ => ih.bind fun x hx => .pure ?_) fun _ => .pure ?_
    · exact List.forall_mem_cons.2 ⟨hw, hx⟩
    · exact List.forall_mem_singleton.2 hw

instance yields_wordPath : Yields wordPath Path.IsNamed := by
  refine ⟨.after fun ts => (ensures_plainSegments _ _).bind fun x hx => ?_⟩
  have hpath : Ensures (pure (Path.mk false x.1) : Parser Path) Path.IsNamed := by
    refine .pure fun w hw => ?_
    obtain ⟨s, hs, rfl⟩ := List.mem_map.1 hw
    exact hx s hs
  exact .ite (fun _ => .refused) fun _ => hpath

/-- An item of a list is sound: its path is made of names, and its value is read as an
expression. -/
theorem ensures_metaItem : Ensures (metaItem g) MetaItem.Sound := by
  refine .after fun ts => .ite (fun _ => .after fun _ => .pure trivial) fun _ =>
    .ite (fun _ => .from fun p hp => .after fun us => ?_) fun _ => Gives.ensures
  split
  · exact .from fun x hx => .pure hx
  · exact .after fun _ => .ite (fun _ => .from fun e he => .pure he) fun _ => .pure hp

/-- The items that are read from tokens of texts are sound. -/
theorem sound_of_metaItems {ts : List Token} {items : List MetaItem} (hts : LexicalList ts)
    (h : metaItems ts = .ok items) : ∀ i ∈ items, i.Sound := by
  have hrules : Rules.Sound (rulesFor ts) := sound_rules _
  have hitems : Ensures (do return (← commas (metaItem (rulesFor ts))).1)
      fun items => ∀ i ∈ items, MetaItem.Sound i :=
    .bind ensures_metaItem.commas fun x hx => .pure hx
  exact hitems.of_finish hts h

end Grammar

/-! ### Paths in values -/

/-- To rename a fault does not touch a success. -/
theorem eq_ok_of_mapError {ε ε' α : Type} {x : Except ε α} {f : ε → ε'} {a : α}
    (h : x.mapError f = .ok a) : x = .ok a := by
  cases x with
  | error e => cases h
  | ok b =>
    cases h
    rfl

/-- A text by itself that gives no path is named in the fault. -/
theorem Path.ofText_eq_error_iff {text : String} {fault : ArgumentFault} :
    Path.ofText text = .error fault ↔
      fault = .unknownValue text ∧ ∀ p, Path.parse text ≠ .ok p := by
  rw [Path.ofText]
  cases Path.parse text with
  | ok p => simp [Except.mapError]
  | error f => simp [Except.mapError, eq_comm]

/-- A literal gives the path that its text gives by itself, if nothing stands behind its quotes. -/
theorem Path.ofString_eq_ok_iff {text : String} {p : Path} :
    Path.ofString text = .ok p ↔
      Path.ofText (Literal.stringValue text).1 = .ok p ∧ (Literal.stringValue text).2 = "" := by
  rw [Path.ofString, Path.ofText]
  dsimp only
  cases Path.parse (Literal.stringValue text).1 with
  | error f => simp [Except.mapError, bind, Except.bind]
  | ok q =>
    simp only [Except.mapError, bind, Except.bind]
    split
    · next hsuffix => simp [pure, Except.pure, hsuffix]
    · next hsuffix => simp [throw, throwThe, MonadExceptOf.throw, hsuffix]

theorem Path.isNamed_of_ofText {text : String} {p : Path} (h : Path.ofText text = .ok p) :
    p.IsNamed :=
  (Path.sound_of_parse (eq_ok_of_mapError h)).isNamed

/-- A path in a string literal is read as a path of a text is, so its segments are names. -/
theorem Path.isNamed_of_ofString {text : String} {p : Path} (h : Path.ofString text = .ok p) :
    p.IsNamed :=
  Path.isNamed_of_ofText (Path.ofString_eq_ok_iff.1 h).1

/-- An expression that is a path, or a string literal with one, gives a path of names. -/
theorem Path.isNamed_of_ofExpr : ∀ {e : Expr} {p : Path}, e.Sound → Path.ofExpr e = .ok p →
    p.IsNamed
  | .path q, p, he, h => by
    rw [Path.ofExpr] at h
    cases h
    exact Path.Sound.isNamed he
  | .literal text, p, _, h => by
    rw [Path.ofExpr] at h
    split at h
    · exact Path.isNamed_of_ofString h
    · cases h
  | .group e, p, he, h => by
    rw [Path.ofExpr] at h
    rw [Expr.Sound] at he
    exact Path.isNamed_of_ofExpr he h
  | .array _, _, _, h | .operation _ _, _, _, h | .other _, _, _, h => by
    rw [Path.ofExpr.eq_def] at h
    cases h

/-- So does an item that is a path or a string literal. -/
theorem MetaItem.isNamed_of_path {i : MetaItem} {p : Path} (hi : i.Sound) (h : i.path = .ok p) :
    p.IsNamed := by
  cases i with
  | word q =>
    cases h
    exact hi
  | literal text =>
    rw [MetaItem.path] at h
    split at h
    · exact Path.isNamed_of_ofString h
    · cases h
  | list q tokens => cases h
  | value q e => cases h

/-- What each result has, all have. -/
theorem forall_of_mapM_eq_ok {ε α β : Type} {f : α → Except ε β} {p : α → Prop} {q : β → Prop}
    (hf : ∀ a b, p a → f a = .ok b → q b) {l : List α} {l' : List β} (hl : ∀ a ∈ l, p a)
    (h : l.mapM f = .ok l') : ∀ b ∈ l', q b := by
  have hforall := mapM_eq_ok_iff.1 h
  clear h
  induction hforall with
  | nil => simp
  | cons hab _ ih =>
    rw [List.forall_mem_cons] at hl ⊢
    exact ⟨hf _ _ hl.1 hab, ih hl.2⟩

/-- The elements of an array give paths of names. -/
theorem isNamed_of_pathsOfExpr : ∀ {e : Expr} {ps : List Path}, e.Sound → pathsOfExpr e = .ok ps →
    ∀ p ∈ ps, p.IsNamed
  | .array elems, ps, he, h => by
    rw [pathsOfExpr] at h
    rw [Expr.Sound, Expr.soundList_iff] at he
    exact forall_of_mapM_eq_ok (fun _ _ => Path.isNamed_of_ofExpr) he h
  | .group e, ps, he, h => by
    rw [pathsOfExpr] at h
    rw [Expr.Sound] at he
    exact isNamed_of_pathsOfExpr he h
  | .path _, _, _, h | .literal _, _, _, h | .operation _ _, _, _, h | .other _, _, _, h => by
    rw [pathsOfExpr.eq_def] at h
    cases h

/-- What the value of a key gives, if its items and its expression give such a thing. -/
theorem sound_of_itemsOf {tokens : List Token} {items : List MetaItem}
    (htokens : LexicalList tokens) (h : itemsOf tokens = .ok items) : ∀ i ∈ items, i.Sound :=
  Grammar.sound_of_metaItems htokens (eq_ok_of_mapError h)

/-- A value has a property if both of its forms give it the property. -/
theorem MetaItem.of_read {α : Type} {q : α → Prop}
    {ofItems : List MetaItem → Except ArgumentFault α} {ofExpr : Expr → Except ArgumentFault α}
    (hitems : ∀ items a, (∀ i ∈ items, i.Sound) → ofItems items = .ok a → q a)
    (hexpr : ∀ e a, e.Sound → ofExpr e = .ok a → q a) {i : MetaItem} (hi : i.Sound) {a : α}
    (h : i.read ofItems ofExpr = .ok a) : q a := by
  cases i with
  | literal text => cases h
  | word p => cases h
  | list p tokens =>
    rw [MetaItem.read] at h
    cases hitemsOf : itemsOf tokens with
    | error f =>
      rw [hitemsOf] at h
      cases h
    | ok items =>
      rw [hitemsOf] at h
      exact hitems items a (sound_of_itemsOf hi hitemsOf) h
  | value p e => exact hexpr e a hi h

namespace Arguments

/-! ### Arguments -/

/-- An item keeps the arguments to paths of names. -/
theorem isNamed_add {s : Progress} (hs : s.args.IsNamed) {i : MetaItem} (hi : i.Sound) :
    (s.add i).args.IsNamed := by
  have hpaths (items : List MetaItem) (ps : List Path) (hitems : ∀ i ∈ items, i.Sound)
      (h : items.mapM MetaItem.path = .ok ps) : ∀ p ∈ ps, p.IsNamed :=
    forall_of_mapM_eq_ok (fun _ _ => MetaItem.isNamed_of_path) hitems h
  have hpath (items : List MetaItem) (p : Path) (hitems : ∀ i ∈ items, i.Sound)
      (h : pathOfItems items = .ok p) : p.IsNamed := by
    match items, h with
    | [i], h => exact MetaItem.isNamed_of_path (hitems i List.mem_cons_self) h
    | [], h => cases h
    | _ :: _ :: _, h => cases h
  -- whichever form a value has, the paths that are noted from it are made of names
  have hnote (key : String) : (s.note key (fun a ps => { a with parameters := some ps })
      (i.read (·.mapM MetaItem.path) pathsOfExpr)).args.IsNamed ∧
      (s.note key (fun a p => { a with base := some p })
        (i.read pathOfItems Path.ofExpr)).args.IsNamed := by
    constructor
    · cases hread : i.read (·.mapM MetaItem.path) pathsOfExpr with
      | error f => exact hs
      | ok ps =>
        have hps := MetaItem.of_read hpaths (fun _ _ => isNamed_of_pathsOfExpr) hi hread
        exact { hs with parameters := fun qs hqs => Option.some.inj hqs ▸ hps }
    · cases hread : i.read pathOfItems Path.ofExpr with
      | error f => exact hs
      | ok p =>
        have hp := MetaItem.of_read hpath (fun _ _ => Path.isNamed_of_ofExpr) hi hread
        exact { hs with base := fun q hq => Option.some.inj hq ▸ hp }
  cases i with
  | literal text => exact hs
  | word p | list p tokens | value p e =>
    rw [Progress.add]
    split
    · exact hs
    split
    · exact (hnote _).1
    split
    · exact (hnote _).2
    · exact hs

/-- All paths of a directive are made of names. -/
theorem isNamed_of_ofAttribute {a : Attribute} (ha : a.Sound) {args : Arguments}
    (h : ofAttribute a = .ok args) : args.IsNamed := by
  have hempty : IsNamed {} := ⟨by simp, by simp⟩
  unfold Attribute.Sound at ha
  unfold ofAttribute at h
  split at h
  · cases h
    exact hempty
  · next tokens htokens =>
    rw [htokens] at ha
    cases hitemsOf : itemsOf tokens with
    | error f =>
      rw [hitemsOf] at h
      cases h
    | ok items =>
      have hitems := sound_of_itemsOf ha hitemsOf
      -- Every item adds paths of its own only, so the fold keeps it.
      have hprogress : (items.foldl Progress.add {}).args.IsNamed :=
        List.foldlRecOn (motive := fun s : Progress => s.args.IsNamed) _ _ hempty
          fun s hs i hi => isNamed_add hs (hitems i hi)
      rw [hitemsOf] at h
      change ofItems items = .ok args at h
      unfold ofItems at h
      dsimp only at h
      split at h
      · cases h
        exact hprogress
      · cases h
      · cases h
  · cases h

end Arguments

namespace Directive

/-- A directive is extracted from both of its symbols. -/
theorem extract_eq_ok {d : Directive} {meaning : Meaning} (h : d.extract = .ok meaning) :
    d.parameters = .ok meaning.parameters ∧ d.base = .ok meaning.base := by
  obtain ⟨args, parameters, base⟩ := d
  cases parameters with
  | error f => cases h
  | ok ts =>
    cases base with
    | error f => cases h
    | ok t =>
      cases h
      exact ⟨rfl, rfl⟩

/-- The types that a directive means have names of its scope and words of its text. -/
theorem spelled_of_extract {P : String → Prop} (hP : ∀ w, IsNameText w → P w) {s : Scope}
    (hs : s.Spelled P) {a : Attribute} (ha : a.Sound) {meaning : Meaning}
    (h : (load s a).extract = .ok meaning) :
    (∀ t ∈ meaning.parameters, t.Spelled P) ∧ meaning.base.Spelled P := by
  -- A path made of names resolves to names: its own, or those the scope is spelled with.
  have hresolve (p : Path) (t : TypeName) (hp : p.IsNamed) (h : resolvePath s p = .ok t) :
      t.Spelled P :=
    hs.resolve (fun w hw => hP w (hp w hw)) (eq_ok_of_mapError h)
  unfold load at h
  split at h
  · next args hargs =>
    have hnamed := Arguments.isNamed_of_ofAttribute ha hargs
    obtain ⟨hparameters, hbase⟩ := extract_eq_ok h
    constructor
    · cases hps : args.parameters with
      | none =>
        rw [ofArguments, hps] at hparameters
        cases hparameters
      | some ps =>
        rw [ofArguments, hps] at hparameters
        exact forall_of_mapM_eq_ok hresolve (hnamed.parameters ps hps) hparameters
    · cases hp : args.base with
      | none =>
        rw [ofArguments, hp] at hbase
        cases hbase
      | some p =>
        rw [ofArguments, hp] at hbase
        exact hresolve p _ (hnamed.base p hp) hbase
  · cases h

end Directive

end FieldBinder
