import FieldBinder.Proofs.Grammar.Arguments

/-!
# Structural types are read back

A type that is structural and was read is read back from its tokens (`Ty.reads`).  The proof follows
the type; there is one lemma for each form, which assumes that the types inside are read back.
-/

namespace FieldBinder

open Grammar
open Token (sizeList marks operators groups words single)

/-! ### Lengths of arrays -/

namespace Grammar

variable {α β : Type} {p : Parser α} {g : Rules} {w : String} {line : Nat} {written : List Token}
  {stray : Option Delimiter}

theorem map_of_eq_ok {f : α → β} {s s' : Cursor} {a : α} (h : p s = .ok (a, s')) :
    (f <$> p) s = .ok (f a, s') := by
  rw [map_eq_pure_bind, bind_of_eq_ok h]
  rfl

theorem asWrittenIf_of_eq_ok {raw : α → Bool} {s s' : Cursor} {a : α} (h : p s = .ok (a, s'))
    (hraw : raw a = false) : asWrittenIf raw p s = .ok (a, s') := by
  have hverbatim : verbatim p s =
      .ok ((a, s.rest.take (s.rest.length - s'.rest.length)), s') :=
    (bind_of_eq_ok rfl).trans <| (bind_of_eq_ok h).trans rfl
  refine (bind_of_eq_ok rfl).trans <| (bind_of_eq_ok hverbatim).trans ?_
  simp only [hraw]
  rfl

/-- A reader that has one result notes what it prints for it. -/
theorem Takes.printed_eq_ok {ts us : List Token} {a : α} (print : α → List Token)
    (hp : Takes p ts us (· = a)) (written : List Token) (stray : Option Delimiter) :
    Grammar.printed print p ⟨ts, written, stray⟩ =
      .ok (a, ⟨us, (print a).reverse ++ written, stray⟩) := by
  obtain ⟨_, written', heq, rfl⟩ := hp written stray
  have hrun : Grammar.printed print p ⟨ts, written, stray⟩ =
      (p ⟨ts, written, stray⟩).bind fun x =>
        .ok (x.1, { x.2 with written := (print x.1).reverse ++ written }) := rfl
  rw [hrun, heq]
  rfl

/-- What is noted while something is captured. -/
theorem takes_captured_of_eq_ok {ts us ws : List Token} {a : α}
    (h : ∀ stray, p ⟨ts, [], stray⟩ = .ok (a, ⟨us, ws, stray⟩)) :
    Takes (captured p) ts us (· = (a, ws.reverse)) := by
  intro written stray
  have hrun : Grammar.captured p ⟨ts, written, stray⟩ = (p ⟨ts, [], stray⟩).bind fun x =>
      .ok ((x.1, x.2.written.reverse), { x.2 with written := written }) := rfl
  rw [h] at hrun
  exact ⟨_, _, hrun, rfl⟩

/-- A word that can stand as a type is read as a segment without arguments. -/
theorem segment_word (hw : isTypeWord w = true) :
    segment g true ⟨[.ident w line], written, stray⟩ =
      .ok (.mk w .none, ⟨[], .word w :: written, stray⟩) := by
  refine Takes.printed_eq_ok (a := .mk w .none) Segment.tokens (.look ?_) written stray
  cases hmodule : ["super", "self", "crate", "try"].contains w with
  | true =>
    refine .ite_pos hmodule <| takes_anyWord.bind ?_
    rintro _ rfl
    exact .pure rfl
  | false =>
    refine .ite_neg hmodule <| .look ?_
    -- `Self` is a keyword that is read on a branch of its own; any other word here is a name.
    cases hself : w == "Self" with
    | true =>
      refine .ite_pos hself <| takes_anyWord.bind ?_
      rintro _ rfl
      exact .pure rfl
    | false =>
      have hname : isNameText w = true := by
        rw [isTypeWord] at hw
        simp at hw hmodule hself
        tauto
      refine .ite_neg hself <| (takes_name hname).bind ?_
      rintro _ rfl
      exact .pure rfl

/-- An operand that starts with a name is a path, unless `#` makes a call of it. -/
theorem atom_of_word {r : List Token} (hw : isTypeWord w = true) (hr : isOp "#" r = false) :
    atom g true ⟨.ident w line :: r, written, stray⟩ =
      pathAtom g true ⟨.ident w line :: r, written, stray⟩ := by
  -- the word of a type opens none of the atoms that the reader asks for before a path
  have hother (v : String) (hv : isTypeWord v = false) :
      isWord v (.ident w line :: r) = false :=
    beq_eq_false_of_word hw hv
  have hliteral : isLiteral (.ident w line :: r) = false := by
    change (isWord "true" (.ident w line :: r) || isWord "false" (.ident w line :: r)) = false
    rw [hother _ (by decide), hother _ (by decide)]
    rfl
  have hasync : isAsyncBlock (.ident w line :: r) = false := by
    rw [isAsyncBlock, hother _ (by decide), Bool.false_and]
  have htry : (isWord "try" (.ident w line :: r) && isGroup .brace r) = false := by
    rw [hother _ (by decide), Bool.false_and]
  have hclosure : isClosure (.ident w line :: r) = false := by
    have hwords : ∀ v ∈ ["move", "for", "const", "static", "async"],
        isWord v (.ident w line :: r) = false := by
      intro v hv
      refine hother v ?_
      have hnames : ["move", "for", "const", "static", "async"].all (!isTypeWord ·) = true := by
        decide
      simpa using List.all_eq_true.1 hnames v hv
    simp only [List.forall_mem_cons] at hwords
    simp [isClosure, isBinder, hwords, isOp, startsWith]
  have hbuiltin : isBuiltin (.ident w line :: r) = false := by
    rw [isBuiltin, List.drop_one, List.tail_cons, hr, Bool.and_false]
  have hstart : isPathStart (.ident w line :: r) = true := by
    rw [isTypeWord, Bool.or_eq_true] at hw
    simp [isPathStart, isName, isOneOf] at hw ⊢
    tauto
  change (if isLiteral (.ident w line :: r) = true then _
    else if isAsyncBlock (.ident w line :: r) = true then _
    else if (isWord "try" (.ident w line :: r) && isGroup .brace r) = true then _
    else if isClosure (.ident w line :: r) = true then _
    else if isBuiltin (.ident w line :: r) = true then _
    else if isPathStart (.ident w line :: r) = true then pathAtom g true else _ : Parser Expr) _ = _
  simp only [hliteral, hasync, htry, hclosure, hbuiltin, hstart, Bool.false_eq_true, if_true,
    if_false]

/-- A name alone is an atom that is a path. -/
theorem atom_word (hw : isTypeWord w = true) :
    atom g true ⟨[.ident w line], written, stray⟩ =
      .ok (.path (.ofIdent w), ⟨[], .word w :: written, stray⟩) := by
  have hpath : path g true ⟨[.ident w line], written, stray⟩ =
      .ok (.ofIdent w, ⟨[], .word w :: written, stray⟩) :=
    (bind_of_eq_ok rfl).trans <| (bind_of_eq_ok (segment_word hw)).trans rfl
  have hany : anyPath g true ⟨[.ident w line], written, stray⟩ =
      .ok (some (.ofIdent w), ⟨[], .word w :: written, stray⟩) :=
    map_of_eq_ok hpath
  exact (atom_of_word hw rfl).trans <| (bind_of_eq_ok hany).trans rfl

theorem operand_word (hw : isTypeWord w = true) :
    operand g true ⟨[.ident w line], written, stray⟩ =
      .ok (.path (.ofIdent w), ⟨[], .word w :: written, stray⟩) := by
  refine asWrittenIf_of_eq_ok ?_ rfl
  -- no attributes and no operators come first, and nothing behind the name
  refine (bind_of_eq_ok rfl).trans <| (bind_of_eq_ok rfl).trans <| (bind_of_eq_ok rfl).trans ?_
  exact (bind_of_eq_ok (atom_word hw)).trans rfl

end Grammar

/-- The length of an array is read back, but for its place. -/
theorem takes_length {len : List Token} (h : IsLength len) {ts : List Token}
    (hts : ts ∈ lengthSpelling len) {n : Nat} (hn : 2 ≤ n) :
    Takes (captured (rules n (.expr true))) ts []
      fun x => x.2.map Token.unplaced = len.map Token.unplaced := by
  obtain ⟨n, rfl⟩ : ∃ m, n = m + 2 := ⟨n - 2, by omega⟩
  have hrun : ∃ e ws, (∀ stray, rules (n + 2) (.expr true) ⟨ts, [], stray⟩ =
      .ok (e, ⟨[], ws, stray⟩)) ∧ ws.reverse.map Token.unplaced = len.map Token.unplaced := by
    match len, h with
    | [.literal text], _ =>
      obtain rfl : ts = [.literal text] := hts
      exact ⟨.literal text, [.literal text], fun _ => rfl, rfl⟩
    | [.ident w line], h =>
      obtain ⟨line', rfl⟩ := hts
      rcases h with hw | rfl | rfl
      · refine ⟨.path (.ofIdent w), [.word w], fun stray => ?_, rfl⟩
        exact (bind_of_eq_ok (operand_word hw)).trans rfl
      · exact ⟨.literal "true", [.ident "true" line'], fun _ => rfl, rfl⟩
      · exact ⟨.literal "false", [.ident "false" line'], fun _ => rfl, rfl⟩
  obtain ⟨e, ws, hrun, hws⟩ := hrun
  refine (takes_captured_of_eq_ok hrun).mono ?_
  rintro _ rfl
  exact hws

/-! ### References and pointers -/

/-- A token that begins a type is none of the words by which the other readers begin. -/
theorem StartsType.isWord {t : Token} (h : StartsType t) {v : String} (hv : isTypeWord v = false)
    (hv' : v ∉ ["dyn", "impl", "_"]) (r : List Token) : isWord v (t :: r) = false := by
  cases t with
  | ident w line =>
    rcases h with hw | hw
    · exact beq_eq_false_of_word hw hv
    · apply beq_false_of_ne
      rintro rfl
      exact hv' hw
  | _ => rfl

theorem takes_lifetime?_none {ts : List Token} (h : isLifetime ts = false) :
    Takes lifetime? ts ts (· = none) :=
  .look <| .ite_neg h <| .pure rfl

theorem takes_lifetime?_some {l : String} {r : List Token} :
    Takes lifetime? (.lifetime l :: r) r (· = some l) :=
  .look <| .ite_pos rfl <| takes_lifetime.map fun _ h => congrArg some h

/-- The tokens of a reference. -/
theorem exists_of_mem_spelling_reference {l : Option String} {isMut : Bool} {elem : Ty}
    {ts : List Token} (hts : ts ∈ (Ty.reference l isMut elem).spelling) :
    ∃ joint, ∃ vs ∈ l.elim (1 : Language Token) fun l => single (.lifetime l),
      ∃ ws ∈ (if isMut then words "mut" else 1 : Language Token), ∃ xs ∈ elem.spelling,
        ts = .punct '&' joint :: (vs ++ (ws ++ xs)) := by
  cases l <;>
  · rw [Ty.spelling, mul_assoc, mul_assoc] at hts
    obtain ⟨_, ⟨joint, rfl⟩, _, hreferent, rfl⟩ := Language.mem_mul.1 hts
    obtain ⟨vs, hvs, _, helem, rfl⟩ := Language.mem_mul.1 hreferent
    obtain ⟨ws, hws, xs, hxs, rfl⟩ := Language.mem_mul.1 helem
    exact ⟨joint, vs, hvs, ws, hws, xs, hxs, rfl⟩

/-- What a reference leads to, behind its lifetime. -/
theorem takes_referent {g : Rules} {l : Option String} {isMut : Bool} {ws us : List Token}
    {t : Token} {r : List Token} {P : Ty → Prop} (ht : StartsType t)
    (hws : ws ∈ (if isMut then words "mut" else 1 : Language Token))
    (h : Takes (g (.type false)) (t :: r) us fun u => P (.reference l isMut u)) :
    isLifetime (ws ++ t :: r) = false ∧ Takes (do
      let isMut ← word? "mut"
      return Ty.reference l isMut (← g (.type false))) (ws ++ t :: r) us P := by
  cases isMut with
  | true =>
    obtain ⟨line, rfl⟩ := hws
    exact ⟨rfl, .word?_pos <| h.bind fun u hu => .pure hu⟩
  | false =>
    obtain rfl : ws = [] := hws
    refine ⟨ht.isLifetime r, .word?_neg ?_ <| h.bind fun u hu => .pure hu⟩
    exact ht.isWord (by decide) (by decide) r

/-- References are read back, with or without a lifetime and `mut`. -/
theorem Ty.reads_reference {l : Option String} {isMut : Bool} {elem : Ty} (h : elem.Sound false)
    (hs : elem.Structural) (hreads : elem.Reads false) {plus : Bool} :
    (Ty.reference l isMut elem).Reads plus := by
  intro ts hts n hn us hus
  obtain ⟨n, rfl⟩ : ∃ m, n = m + 1 := ⟨n - 1, by omega⟩
  obtain ⟨joint, vs, hvs, ws, hws, xs, hxs, rfl⟩ := exists_of_mem_spelling_reference hts
  simp only [sizeList_append, sizeList, Token.size] at hn
  -- The type behind the reference is read by the hypothesis, with one level of fuel less.
  have helem : Takes (rules n (.type false)) (xs ++ us) us
      fun u => (Ty.reference l isMut u).plain = (Ty.reference l isMut elem).plain := by
    refine (hreads xs hxs n (by omega) us hus.sum).mono fun u hu => ?_
    rw [Ty.plain, Ty.plain, hu]
  obtain ⟨t, r, rfl, ht⟩ := Ty.starts h hs hxs
  obtain ⟨hlifetime, hreferent⟩ := takes_referent (g := rules n) (l := l)
    (P := fun u => u.plain = (Ty.reference l isMut elem).plain) ht hws helem
  have hshape : .punct '&' joint :: (vs ++ (ws ++ t :: r)) ++ us =
      .punct '&' joint :: (vs ++ (ws ++ (t :: r ++ us))) := by
    simp
  rw [hshape]
  refine takes_type_reference ?_
  -- The lifetime is looked for first: what follows a bare `&` begins a type, so it is none.
  cases l with
  | none =>
    obtain rfl : vs = [] := hvs
    refine (takes_lifetime?_none hlifetime).bind ?_
    rintro _ rfl
    exact hreferent
  | some l =>
    obtain rfl : vs = [.lifetime l] := hvs
    refine takes_lifetime?_some.bind ?_
    rintro _ rfl
    exact hreferent

theorem Ty.reads_pointer {isMut : Bool} {elem : Ty} (hreads : elem.Reads false) {plus : Bool} :
    (Ty.pointer isMut elem).Reads plus := by
  intro ts hts n hn us hus
  obtain ⟨n, rfl⟩ : ∃ m, n = m + 1 := ⟨n - 1, by omega⟩
  rw [Ty.spelling, mul_assoc] at hts
  obtain ⟨_, ⟨joint, rfl⟩, _, hpointer, rfl⟩ := Language.mem_mul.1 hts
  obtain ⟨_, ⟨line, rfl⟩, xs, hxs, rfl⟩ := Language.mem_mul.1 hpointer
  simp only [sizeList_append, sizeList, Token.size] at hn
  refine takes_type_pointer <| (hreads xs hxs n (by omega) us hus.sum).mono fun u hu => ?_
  rw [Ty.plain, Ty.plain, hu]

/-! ### Brackets and parentheses -/

/-- A type that is a group of tokens is read back if it is from each inside of the group. -/
theorem Ty.reads_of_group {t : Ty} {d : Delimiter} {L : Language Token} {plus : Bool}
    (ht : t.spelling = groups d L)
    (h : ∀ body ∈ L, ∀ n, 2 * sizeList body + 4 ≤ n → ∀ us, EndsType plus us →
      Takes (rules (n + 1) (.type plus)) (.group d body :: us) us fun u : Ty => u.plain = t.plain) :
    t.Reads plus := by
  intro ts hts n hn us hus
  rw [ht] at hts
  obtain ⟨body, hbody, rfl⟩ := hts
  simp only [sizeList, Token.size] at hn
  obtain ⟨n, rfl⟩ : ∃ m, n = m + 1 := ⟨n - 1, by omega⟩
  exact h body hbody n (by omega) us hus

theorem Ty.reads_slice {elem : Ty} (hreads : elem.Reads true) {plus : Bool} :
    (Ty.slice elem).Reads plus := by
  refine Ty.reads_of_group (by rw [Ty.spelling]) fun body hbody n hn us hus => ?_
  have helem := hreads body hbody n (by omega) [] endsType_nil
  rw [List.append_nil] at helem
  refine takes_type_bracket <| .inside <| helem.bind fun u hu => ?_
  refine .op?_neg rfl <| .ite_neg rfl <| .pure ?_
  rw [Ty.plain, Ty.plain, hu]

/-- Arrays of a simple length are read back. -/
theorem Ty.reads_array {elem : Ty} {len : List Token} (hlen : IsLength len)
    (hreads : elem.Reads true) {plus : Bool} : (Ty.array elem len).Reads plus := by
  refine Ty.reads_of_group (by rw [Ty.spelling]) fun body hbody n hn us hus => ?_
  obtain ⟨_, hopening, ys, hys, rfl⟩ := Language.mem_mul.1 hbody
  obtain ⟨xs, hxs, _, ⟨joint, rfl⟩, rfl⟩ := Language.mem_mul.1 hopening
  simp only [sizeList_append, sizeList, Token.size] at hn
  have helem := hreads xs hxs n (by omega) (.punct ';' joint :: ys)
    (endsType_punct (by decide) _ _)
  have hlength := takes_length hlen hys (n := n) (by omega)
  rw [List.append_assoc]
  refine takes_type_bracket <| .inside <| helem.bind fun u hu => .op?_pos rfl <| .ite_pos rfl <|
    hlength.bind ?_
  rintro ⟨e, len'⟩ hlen'
  refine .pure ?_
  rw [Ty.plain, Ty.plain, hu, hlen']

/-- A type in parentheses is read back as such: no comma makes a tuple of it. -/
theorem Ty.reads_paren {elem : Ty} (h : elem.Sound true) (hs : elem.Structural)
    (hreads : elem.Reads true) {plus : Bool} : (Ty.paren elem).Reads plus := by
  refine Ty.reads_of_group (by rw [Ty.spelling]) fun body hbody n hn us hus => ?_
  have helem := hreads body hbody n (by omega) [] endsType_nil
  rw [List.append_nil] at helem
  obtain ⟨t, r, rfl, ht⟩ := Ty.starts h hs hbody
  -- What begins a type begins no lifetime and no `?` bound, and no comma follows it.
  have hinside : Takes (parenthesised (rules n)) (t :: r) []
      fun x => ∃ u, x = .single u ∧ u.plain = elem.plain := by
    refine .look <| .ite_neg rfl <| .ite_neg (ht.isLifetime _) <|
      .ite_neg (ht.isOp (o := "?") rfl (by decide) _) <| helem.bind fun u hu => ?_
    exact .op?_neg rfl <| .ite_neg rfl <| .pure ⟨u, rfl, hu⟩
  refine takes_type_paren <| hinside.inside.bind ?_
  rintro _ ⟨u, rfl, hu⟩
  -- Where a sum may stand, what ends the type is no plus sign.
  have hsum : (plus && isOp "+" us) = false := by
    cases plus with
    | false => rfl
    | true => exact hus.isOp (o := "+") rfl (by decide)
  refine .look <| .ite_neg hsum <| .pure ?_
  rw [Ty.plain, Ty.plain, hu]

/-- The inside of a tuple: nothing, or a first type and others behind a comma. -/
theorem takes_parenthesised_tuple {elems : List Ty} (h : Ty.SoundList elems)
    (hs : Ty.StructuralList elems) (hreads : ∀ t ∈ elems, t.Reads true) {ts : List Token}
    (hts : ts ∈ Token.joined (marks ',') (Ty.spellingList elems) *
      if elems.length = 1 then marks ',' else 1) {n : Nat} (hn : 2 * sizeList ts + 4 ≤ n) :
    Takes (parenthesised (rules n)) ts []
      fun x => ∃ elems' trailing, x = .tuple elems' trailing ∧
        elems'.map Ty.plain = elems.map Ty.plain := by
  obtain ⟨us, hus, vs, hvs, rfl⟩ := Language.mem_mul.1 hts
  cases elems with
  | nil =>
    rw [Ty.spellingList] at hus
    obtain rfl : us = [] := hus
    obtain rfl : vs = [] := hvs
    exact .look <| .ite_pos rfl <| .pure ⟨[], false, rfl, rfl⟩
  | cons t elems =>
    obtain ⟨hfirst, hmore⟩ := List.forall_mem_cons.1 hreads
    rw [Ty.SoundList] at h
    rw [Ty.StructuralList] at hs
    -- in either case there is a comma behind the first type
    obtain ⟨xs, hxs, joint, ys, heq, hys⟩ : ∃ xs ∈ t.spelling, ∃ joint ys,
        us ++ vs = xs ++ .punct ',' joint :: ys ∧
          ys ∈ Token.joined (marks ',') (Ty.spellingList elems) := by
      cases elems with
      | nil =>
        obtain ⟨joint, rfl⟩ := hvs
        rw [Ty.spellingList, Ty.spellingList] at hus
        exact ⟨us, hus, joint, [], rfl, rfl⟩
      | cons t' elems =>
        rw [if_neg (by simp)] at hvs
        obtain rfl : vs = [] := hvs
        rw [Ty.spellingList, Ty.spellingList] at hus
        obtain ⟨xs, hxs, joint, ys, hys, rfl⟩ := mem_joined_marks.1 hus
        rw [Ty.spellingList]
        exact ⟨xs, hxs, joint, ys, List.append_nil _, hys⟩
    rw [heq] at hn ⊢
    rw [sizeList_append, sizeList] at hn
    have htype := hfirst xs hxs n (by omega) (.punct ',' joint :: ys)
      (endsType_punct (by decide) _ _)
    have htypes := takes_types h.2 hs.2 hmore hys (n := n) (by omega)
    obtain ⟨t', r, rfl, ht'⟩ := Ty.starts h.1 hs.1 hxs
    refine .look <| .ite_neg rfl <| .ite_neg (ht'.isLifetime _) <|
      .ite_neg (ht'.isOp (o := "?") rfl (by decide) _) <| htype.bind fun u hu => ?_
    refine .op?_pos rfl <| .ite_pos rfl <| htypes.bind ?_
    rintro ⟨elems', trailing⟩ helems'
    exact .pure ⟨u :: elems', _, rfl, congrArg₂ List.cons hu helems'⟩

/-- Tuples are read back, the empty one and those of one element included. -/
theorem Ty.reads_tuple {elems : List Ty} {trailing : Bool} (h : Ty.SoundList elems)
    (hs : Ty.StructuralList elems) (hreads : ∀ t ∈ elems, t.Reads true) {plus : Bool} :
    (Ty.tuple elems trailing).Reads plus := by
  refine Ty.reads_of_group (by rw [Ty.spelling]) fun body hbody n hn us hus => ?_
  have hinside := takes_parenthesised_tuple h hs hreads hbody (n := n) (by omega)
  refine takes_type_paren <| hinside.inside.bind ?_
  rintro _ ⟨elems', trailing', rfl, helems'⟩
  refine .pure ?_
  rw [Ty.plain, Ty.plain, Ty.plainList_eq_map, Ty.plainList_eq_map, helems']

/-! ### Sums and single words -/

/-- What starts a bound is no `*`, which would stand for a pointer. -/
theorem isOp_star_of_isBoundStart {constant : Bool} {ts : List Token}
    (h : isBoundStart constant ts = true) : isOp "*" ts = false := by
  cases ts with
  | nil => rfl
  | cons t r =>
    cases t with
    | punct c joint =>
      by_cases hc : c = '*'
      · subst hc
        have hnot : isBoundStart constant (.punct '*' joint :: r) = false := by
          cases constant <;> rfl
        rw [hnot] at h
        cases h
      · exact beq_false_of_ne (Ne.symm hc)
    | _ => rfl

/-- Trait objects with `dyn` are read back. -/
theorem Ty.reads_dyn {bs : List Bound} {trailing plus : Bool}
    (h : (Ty.traitObject true bs trailing).Sound plus) (hs : Bound.StructuralList bs)
    (hreads : ∀ b ∈ bs, b.Reads) : (Ty.traitObject true bs trailing).Reads plus := by
  intro ts hts n hn us hus
  rw [Ty.Sound] at h
  obtain ⟨htraits, hcount⟩ := h.2 rfl
  obtain ⟨n, rfl⟩ : ∃ m, n = m + 1 := ⟨n - 1, by omega⟩
  rw [Ty.spelling] at hts
  obtain ⟨_, ⟨line, rfl⟩, xs, hxs, rfl⟩ := Language.mem_mul.1 hts
  simp only [sizeList_append, sizeList, Token.size] at hn
  have hbounds := takes_bounds h.1 hs hreads (bounds_ne_nil htraits) hcount hxs (n := n) (by omega)
    hus false false
  have hobject : Takes (objectBounds (rules n) plus) (xs ++ us) us
      fun x => x.1.map Bound.plain = bs.map Bound.plain := by
    refine hbounds.bind ?_
    rintro ⟨bs', trailing'⟩ hbs'
    have htraits' : bs'.any namesTrait = true := (namesTraits_of_map_plain_eq hbs').trans htraits
    exact .ite_pos htraits' <| .pure hbs'
  -- a star in front of the bounds would be taken with the keyword
  have hstar : isOp "*" (xs ++ us) = false := by
    obtain ⟨b, r, rfl⟩ := List.exists_cons_of_ne_nil (bounds_ne_nil htraits)
    rw [Bound.SoundList] at h
    rw [Bound.StructuralList] at hs
    rw [Bound.spellingList, joined_cons] at hxs
    obtain ⟨vs, hvs, ws, -, rfl⟩ := Language.mem_mul.1 hxs
    rw [List.append_assoc]
    exact isOp_star_of_isBoundStart (Bound.isBoundStart h.1.1 hs.1 hvs false _)
  refine takes_type_dyn <| (show Takes _ _ us _ from Takes.verbatim (P := fun y =>
    y.1 = false ∧ y.2.1.map Bound.plain = bs.map Bound.plain) ?_).bind ?_
  · refine .word ?_
    refine .op?_neg hstar <| hobject.bind ?_
    rintro ⟨bs', trailing'⟩ hbs'
    exact .pure ⟨rfl, hbs'⟩
  rintro ⟨⟨star, bs', trailing'⟩, tokens⟩ ⟨hstar', hbs'⟩
  refine .ite_neg hstar' <| .pure ?_
  rw [Ty.plain, Ty.plain, Bound.plainList_eq_map, Bound.plainList_eq_map]
  exact congrArg (Ty.traitObject true · false) hbs'

/-- Opaque types are read back. -/
theorem Ty.reads_impl {bs : List Bound} {trailing plus : Bool}
    (h : (Ty.implTrait bs trailing).Sound plus) (hs : Bound.StructuralList bs)
    (hreads : ∀ b ∈ bs, b.Reads) : (Ty.implTrait bs trailing).Reads plus := by
  intro ts hts n hn us hus
  rw [Ty.Sound] at h
  obtain ⟨hsound, htraits, hcount⟩ := h
  obtain ⟨n, rfl⟩ : ∃ m, n = m + 1 := ⟨n - 1, by omega⟩
  rw [Ty.spelling] at hts
  obtain ⟨_, ⟨line, rfl⟩, xs, hxs, rfl⟩ := Language.mem_mul.1 hts
  simp only [sizeList_append, sizeList, Token.size] at hn
  have hbounds := takes_bounds hsound hs hreads (bounds_ne_nil htraits) hcount hxs (n := n)
    (by omega) hus true true
  refine takes_type_impl <| hbounds.mono ?_
  rintro ⟨bs', trailing'⟩ hbs'
  refine ⟨(namesTraits_of_map_plain_eq hbs').trans htraits, ?_⟩
  rw [Ty.plain, Ty.plain, Bound.plainList_eq_map, Bound.plainList_eq_map]
  exact congrArg (Ty.implTrait · false) hbs'

theorem Ty.reads_never {plus : Bool} : Ty.never.Reads plus := by
  intro ts hts n hn us hus
  obtain ⟨n, rfl⟩ : ∃ m, n = m + 1 := ⟨n - 1, by omega⟩
  rw [Ty.spelling] at hts
  obtain ⟨joint, rfl⟩ := hts
  exact takes_type_never rfl

theorem Ty.reads_infer {plus : Bool} : Ty.infer.Reads plus := by
  intro ts hts n hn us hus
  obtain ⟨n, rfl⟩ : ∃ m, n = m + 1 := ⟨n - 1, by omega⟩
  rw [Ty.spelling] at hts
  obtain ⟨line, rfl⟩ := hts
  exact takes_type_infer rfl

/-! ### All structural types -/

mutual

/-- A structural type is read back from its tokens. -/
theorem Ty.reads : ∀ {t : Ty} {plus : Bool}, t.Sound plus → t.Structural → t.Reads plus
  | .path p, _, h, hs => by
    have hp := h
    rw [Ty.Sound] at hp
    rw [Ty.Structural] at hs
    exact Ty.reads_path h hs (Path.reads_args hp.1 hs)
  | .reference l isMut elem, _, h, hs => by
    rw [Ty.Sound] at h
    rw [Ty.Structural] at hs
    exact Ty.reads_reference h.2 hs (Ty.reads h.2 hs)
  | .pointer isMut elem, _, h, hs => by
    rw [Ty.Sound] at h
    rw [Ty.Structural] at hs
    exact Ty.reads_pointer (Ty.reads h hs)
  | .slice elem, _, h, hs => by
    rw [Ty.Sound] at h
    rw [Ty.Structural] at hs
    exact Ty.reads_slice (Ty.reads h hs)
  | .array elem len, _, h, hs => by
    rw [Ty.Sound] at h
    rw [Ty.Structural] at hs
    exact Ty.reads_array hs.2 (Ty.reads h.1 hs.1)
  | .tuple elems _, _, h, hs => by
    rw [Ty.Sound] at h
    rw [Ty.Structural] at hs
    exact Ty.reads_tuple h hs (Ty.readsList h hs)
  | .traitObject isDyn bounds _, _, h, hs => by
    -- the bounds are sound by themselves; how many there may be is for the sum as a whole
    have hbounds := h
    rw [Ty.Sound] at hbounds
    rw [Ty.Structural] at hs
    obtain ⟨rfl, hs⟩ := hs
    exact Ty.reads_dyn h hs (Bound.readsList hbounds.1 hs)
  | .implTrait bounds _, _, h, hs => by
    have hbounds := h
    rw [Ty.Sound] at hbounds
    rw [Ty.Structural] at hs
    exact Ty.reads_impl h hs (Bound.readsList hbounds.1 hs)
  | .paren elem, _, h, hs => by
    rw [Ty.Sound] at h
    rw [Ty.Structural] at hs
    exact Ty.reads_paren h hs (Ty.reads h hs)
  | .never, _, _, _ => Ty.reads_never
  | .infer, _, _, _ => Ty.reads_infer
  | .group _, _, _, hs | .other _, _, _, hs => by
    rw [Ty.Structural] at hs
    exact hs.elim

theorem Ty.readsList : ∀ {ts : List Ty}, Ty.SoundList ts → Ty.StructuralList ts →
    ∀ t ∈ ts, t.Reads true
  | [], _, _ => by simp
  | t :: r, h, hs => by
    rw [Ty.SoundList] at h
    rw [Ty.StructuralList] at hs
    exact List.forall_mem_cons.2 ⟨Ty.reads h.1 hs.1, Ty.readsList h.2 hs.2⟩

/-- A bound of a structural type is read back from its tokens. -/
theorem Bound.reads : ∀ {b : Bound}, b.Sound → b.Structural → b.Reads
  | .trait parens isMaybe binder path, h, hs => by
    rw [Bound.Sound] at h
    rw [Bound.Structural] at hs
    obtain ⟨rfl, rfl, rfl, hs⟩ := hs
    exact Bound.reads_trait h.2 hs (Path.reads_args h.2 hs)
  | .lifetime name, _, _ => Bound.reads_lifetime name
  | .other _, _, hs => by
    rw [Bound.Structural] at hs
    exact hs.elim

theorem Bound.readsList : ∀ {bs : List Bound}, Bound.SoundList bs → Bound.StructuralList bs →
    ∀ b ∈ bs, b.Reads
  | [], _, _ => by simp
  | b :: r, h, hs => by
    rw [Bound.SoundList] at h
    rw [Bound.StructuralList] at hs
    exact List.forall_mem_cons.2 ⟨Bound.reads h.1 hs.1, Bound.readsList h.2 hs.2⟩

theorem Path.reads_args : ∀ {p : Path} {inBound : Bool}, p.Sound inBound → p.Structural →
    ∀ s ∈ p.segments, s.args.Reads
  | .mk leading segments, _, h, hs => by
    rw [Path.Sound] at h
    rw [Path.Structural] at hs
    exact Segment.reads_args h.2 hs

theorem Segment.reads_args : ∀ {ss : List Segment} {inBound : Bool},
    Segment.SoundList inBound ss → Segment.StructuralList ss → ∀ s ∈ ss, s.args.Reads
  | [], _, _, _ => by simp
  | .mk w args :: r, _, h, hs => by
    rw [Segment.SoundList, Segment.Sound] at h
    rw [Segment.StructuralList, Segment.Structural] at hs
    exact List.forall_mem_cons.2 ⟨Args.reads h.1.2.2 hs.1, Segment.reads_args h.2 hs.2⟩

/-- The arguments in a structural type are read back from their tokens. -/
theorem Args.reads : ∀ {a : Args} {parens brackets : Bool}, a.Sound parens brackets →
    a.Structural → a.Reads
  | .none, _, _, _, _ => trivial
  | .angle turbofish args _, _, _, h, hs => by
    rw [Args.Sound] at h
    rw [Args.Structural] at hs
    exact Args.reads_angle h.2 hs (GenericArg.readsList h.2 hs)
  | .paren inputs _ .none, _, _, h, hs => by
    rw [Args.Sound] at h
    rw [Args.Structural] at hs
    exact Args.reads_paren h.2.1 hs.1 (Ty.readsList h.2.1 hs.1) (by simp)
  | .paren inputs _ (.some t), _, _, h, hs => by
    rw [Args.Sound] at h
    rw [Args.Structural] at hs
    refine Args.reads_paren h.2.1 hs.1 (Ty.readsList h.2.1 hs.1) ?_
    rintro _ ⟨⟩
    exact Ty.reads h.2.2 hs.2

theorem GenericArg.readsList : ∀ {as : List GenericArg}, GenericArg.SoundList as →
    GenericArg.StructuralList as → ∀ a ∈ as, a.Reads
  | [], _, _ => by simp
  | a :: r, h, hs => by
    rw [GenericArg.SoundList] at h
    rw [GenericArg.StructuralList] at hs
    exact List.forall_mem_cons.2 ⟨GenericArg.reads h.1 hs.1, GenericArg.readsList h.2 hs.2⟩

/-- A generic argument in a structural type is read back from its tokens. -/
theorem GenericArg.reads : ∀ {a : GenericArg}, a.Sound → a.Structural → a.Reads
  | .lifetime name, _, _ => GenericArg.reads_lifetime name
  | .type t, h, hs => by
    rw [GenericArg.Sound] at h
    rw [GenericArg.Structural] at hs
    exact GenericArg.reads_type h hs (Ty.reads h hs)
  | .assocType name args t, h, hs => by
    have ht := h
    rw [GenericArg.Sound] at ht
    rw [GenericArg.Structural] at hs
    cases args with
    | none => exact GenericArg.reads_assocType h hs.2 (Ty.reads ht.2.2.2 hs.2)
    | _ => cases hs.1
  | .other _, _, hs => by
    rw [GenericArg.Structural] at hs
    exact hs.elim

end

end FieldBinder
