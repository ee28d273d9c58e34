import FieldBinder.Directive.Arguments
import FieldBinder.Proofs.Field.TypeText

/-!
# Reading the items of an attribute

What is read as an item in the list of an attribute (`metaItem`), and what as the value of one
(`attributeValue`), for simple paths (`Path.IsSimple`), literals, and arrays of these.  The two
readers do not take the same paths: an item can be no path that starts with `::`
(`fails_metaItem_colons`), but a value can.
-/

namespace FieldBinder

open Grammar
open Token (sizeList marks operators words listed)

namespace Grammar

variable {α β : Type} {p q : Parser α} {k : α → Parser β} {f : Failure} {ts us : List Token}
  {P : α → Prop}

/-! ### Failures -/

/-- Whether a reader fails on tokens, whatever was noted before. -/
def Fails (p : Parser α) (ts : List Token) (f : Failure) : Prop :=
  ∀ written stray, p ⟨ts, written, stray⟩ = .error f

/-- Nothing is read behind a reader that fails. -/
theorem Fails.bind (hp : Fails p ts f) : Fails (p >>= k) ts f := by
  intro written stray
  change (p ⟨ts, written, stray⟩).bind (fun x => k x.1 x.2) = _
  rw [hp]
  rfl

/-- A reader fails where it goes on from what was taken to what is refused. -/
theorem Takes.fails (hp : Takes p ts us P) (hk : ∀ a, P a → Fails (k a) us f) :
    Fails (p >>= k) ts f := by
  intro written stray
  obtain ⟨a, written', heq, ha⟩ := hp written stray
  exact (bind_of_eq_ok heq).trans (hk a ha written' stray)

/-- Fail on the tokens that are left. -/
theorem Fails.look {k : List Token → Parser β} (hk : Fails (k ts) ts f) : Fails (rest >>= k) ts f :=
  hk

/-- The branch that fails is decided by a test on the tokens that come next. -/
theorem Fails.ite_pos {b : Bool} (hb : b = true) (hp : Fails p ts f) :
    Fails (if b = true then p else q) ts f := by
  rwa [if_pos hb]

theorem Fails.ite_neg {b : Bool} (hb : b = false) (hq : Fails q ts f) :
    Fails (if b = true then p else q) ts f := by
  rwa [if_neg (Bool.eq_false_iff.1 hb)]

theorem fails_expected (what : String) :
    Fails (expected what : Parser α) ts ⟨ts.isEmpty, .expected what⟩ :=
  fun _ _ => rfl

/-- A text is refused where its reader fails. -/
theorem Fails.finish (hp : Fails p ts f) : Grammar.finish p ts = .error f := by
  rw [Grammar.finish]
  exact congrArg (Except.bind · _) (hp [] none)

/-- An attempt that fails takes nothing. -/
theorem Takes.attempt?_none (hp : Fails p ts f) : Takes (attempt? p) ts ts (· = none) := by
  intro written stray
  refine ⟨none, written, ?_, rfl⟩
  rw [attempt?, hp]

/-- An attempt takes what its reader takes. -/
theorem Takes.attempt?_some (hp : Takes p ts us P) :
    Takes (attempt? p) ts us fun o => ∃ a, o = some a ∧ P a := by
  intro written stray
  obtain ⟨a, written', heq, ha⟩ := hp written stray
  refine ⟨some a, written', ?_, a, rfl, ha⟩
  rw [attempt?, heq]

/-- Whether tokens come, behind items with a mark after each of them, to an item that fails. -/
inductive FailsBehind (c : Char) (p : Parser α) (stop : List Token → Bool) (f : Failure) :
    List Token → Prop
  | here {ts : List Token} (hstop : stop ts = false) (h : Fails p ts f) : FailsBehind c p stop f ts
  | behind {ts us : List Token} {joint : Bool} {P : α → Prop}
      (hstop : stop (ts ++ .punct c joint :: us) = false)
      (hitem : Takes p (ts ++ .punct c joint :: us) (.punct c joint :: us) P)
      (h : FailsBehind c p stop f us) : FailsBehind c p stop f (ts ++ .punct c joint :: us)

/-- A list is not read beyond an item that fails. -/
theorem FailsBehind.separated {c : Char} {sep : String} {stop : List Token → Bool}
    (hsep : sep.toList = [c]) (hmark : ∀ joint vs, stop (.punct c joint :: vs) = false)
    (h : FailsBehind c p stop f ts) : Fails (separated sep stop p) ts f := by
  have hlength : sep.length = 1 := by rw [← String.length_toList, hsep]; rfl
  refine .look ?_
  have hn : ts.length < ts.length + 1 := Nat.lt_succ_self _
  -- the reader turns once for each token at most; the induction keeps only that this is enough
  generalize ts.length + 1 = n at hn
  induction h generalizing n with
  | here hstop h =>
    obtain ⟨n, rfl⟩ : ∃ m, n = m + 1 := ⟨n - 1, by omega⟩
    exact .look <| .ite_neg hstop h.bind
  | @behind ts us joint P hstop hitem _ ih =>
    obtain ⟨n, rfl⟩ : ∃ m, n = m + 1 := ⟨n - 1, by omega⟩
    rw [List.length_append, List.length_cons] at hn
    refine .look <| .ite_neg hstop <| hitem.fails fun b _ => ?_
    refine .look <| .ite_neg (hmark joint us) <|
      (takes_op (isOp_mark hsep joint us)).fails fun _ _ => ?_
    rw [hlength]
    exact (ih n (by omega)).bind

end Grammar

/-! ### Simple paths -/

/-- Whether a path is made of names, and of words that lead to modules, without arguments. -/
structure Path.IsSimple (p : Path) : Prop where
  ne_nil : p.segments ≠ []
  plain : p.isPlain = true
  idents : ∀ w ∈ p.idents, isTypeWord w = true

/-- Each segment of a simple path is a word. -/
theorem Path.IsSimple.exists_word {p : Path} (hp : p.IsSimple) {s : Segment}
    (hs : s ∈ p.segments) : ∃ w, isTypeWord w = true ∧ s = .mk w .none := by
  have hnone : s.args.isNone = true := List.all_eq_true.1 hp.plain s hs
  have hword : isTypeWord s.ident = true := hp.idents _ (List.mem_map_of_mem hs)
  obtain ⟨w, args⟩ := s
  cases args with
  | none => exact ⟨w, hword, rfl⟩
  | angle | paren => cases hnone

theorem Segment.spelling_word (w : String) : (Segment.mk w .none).spelling = words w := by
  rw [Segment.spelling, Args.spelling, mul_one]

/-- A word without arguments is read as the segment that it is. -/
theorem readsSegment_word {g : Rules} {inExpr : Bool} {size : Nat} {w : String}
    (hw : isTypeWord w = true) :
    ReadsSegment g inExpr size (.mk w .none) (· = .mk w .none) := by
  intro ts hts hsize us hus
  rw [Segment.spelling_word] at hts
  obtain ⟨line, rfl⟩ := hts
  -- no arguments stand behind the word
  have hend (w : String) : Takes (do
      let ts ← rest
      if isOp "::" ts && isOp "<" (ts.drop 2) then return .mk w (← angleArgs g true)
      else if !inExpr && isOp "<" ts && !isOp "<=" ts && !isOp "<<=" ts then
        return .mk w (← angleArgs g false)
      else return .mk w .none) us us (· = Segment.mk w .none) := by
    refine .look <| .ite_neg hus.2 <| .ite_neg ?_ <| .pure rfl
    rw [hus.1, Bool.and_false]
    rfl
  refine .printed <| .look ?_
  cases hmodule : ["super", "self", "crate", "try"].contains w with
  | true =>
    refine .ite_pos hmodule <| takes_anyWord.bind ?_
    rintro _ rfl
    exact .pure rfl
  | false =>
    refine .ite_neg hmodule <| .look ?_
    cases hself : w == "Self" with
    | true =>
      refine .ite_pos hself <| takes_anyWord.bind ?_
      rintro _ rfl
      exact hend _
    | false =>
      have hname : isNameText w = true := by
        rw [isTypeWord] at hw
        simp at hw hmodule hself
        tauto
      refine .ite_neg hself <| (takes_name hname).bind ?_
      rintro _ rfl
      exact hend _

/-- A simple path is read from its tokens, up to where no path goes on. -/
theorem Path.IsSimple.takes_path {g : Rules} {inExpr : Bool} {p : Path} (hp : p.IsSimple)
    {ts us : List Token} (hts : ts ∈ p.spelling) (hus : EndsPath us) :
    Takes (path g inExpr) (ts ++ us) us (· = p) := by
  obtain ⟨leading, segments⟩ := p
  have hsegments : ∀ s ∈ segments, ReadsSegment g inExpr (sizeList ts) s (· = s) := by
    intro s hs
    obtain ⟨w, hw, rfl⟩ := hp.exists_word hs
    exact readsSegment_word hw
  refine (Takes.path hp.ne_nil hsegments hts le_rfl hus).mono ?_
  rintro ⟨leading', segments'⟩ ⟨hleading, hforall⟩
  have heq : segments'.map id = segments.map id := map_eq_map_of_forall₂ hforall
  rw [List.map_id, List.map_id] at heq
  exact congrArg₂ Path.mk hleading heq

/-- A simple path starts with `::` or with its first word, and then comes no `#`. -/
theorem Path.IsSimple.starts {p : Path} (hp : p.IsSimple) {ts : List Token}
    (hts : ts ∈ p.spelling) :
    p.isLeading = true ∧ (∃ joint r, ts = .punct ':' true :: .punct ':' joint :: r) ∨
      p.isLeading = false ∧ ∃ w ss line r, isTypeWord w = true ∧ p.segments = .mk w .none :: ss ∧
        r ∈ Segment.spellingBehind ss ∧ ts = .ident w line :: r := by
  obtain ⟨leading, segments⟩ := p
  obtain ⟨s, ss, rfl⟩ := List.exists_cons_of_ne_nil hp.ne_nil
  obtain ⟨w, hw, rfl⟩ := hp.exists_word List.mem_cons_self
  rw [Path.spelling, Segment.joined_spellingList, Segment.spelling_word] at hts
  obtain ⟨us, hus, _, hspelled, rfl⟩ := Language.mem_mul.1 hts
  obtain ⟨_, ⟨line, rfl⟩, r, hr, rfl⟩ := Language.mem_mul.1 hspelled
  cases leading with
  | true =>
    obtain ⟨joint, rfl⟩ := hus
    exact .inl ⟨rfl, joint, _, rfl⟩
  | false =>
    obtain rfl : us = [] := hus
    exact .inr ⟨rfl, w, ss, line, r, hw, rfl, hr, rfl⟩

/-! ### Atoms -/

/-- Whether tokens go on as a list does behind an item: with a comma, or not at all. -/
def EndsItem (ts : List Token) : Prop := ts = [] ∨ ∃ joint r, ts = .punct ',' joint :: r

/-- No path goes on at the end of an item. -/
theorem EndsItem.endsPath {ts : List Token} (h : EndsItem ts) : EndsPath ts := by
  rcases h with rfl | ⟨joint, r, rfl⟩ <;> exact ⟨rfl, rfl⟩

namespace Grammar

variable {g : Rules} {ts us : List Token} {P : Expr → Prop}

theorem takes_literal {text : String} {r : List Token} :
    Takes literal (.literal text :: r) r (· = text) :=
  fun _ _ => ⟨text, _, rfl, rfl⟩

/-- A literal is an atom. -/
theorem takes_atom_literal {text : String} :
    Takes (atom g true) (.literal text :: us) us (· = .literal text) := by
  refine .look <| .ite_pos rfl <| takes_literal.bind ?_
  rintro _ rfl
  exact .pure rfl

/-- A bracket opens an array, or an array of equal elements. -/
theorem takes_atom_bracket {body : List Token}
    (h : Takes (bracketAtom g) (.group .bracket body :: us) us P) :
    Takes (atom g true) (.group .bracket body :: us) us P :=
  .look <| .ite_neg rfl <| .ite_neg rfl <| .ite_neg rfl <| .ite_neg rfl <| .ite_neg rfl <|
    .ite_neg rfl <| .ite_neg rfl <| .word?_neg rfl <| .ite_neg rfl <| .word?_neg rfl <|
    .ite_neg rfl <| .word?_neg rfl <| .ite_neg rfl <| .word?_neg rfl <| .ite_neg rfl <|
    .ite_pos rfl h

/-- A simple path in front of the end of an item is an atom: no macro is called, and no struct is
made. -/
theorem takes_pathAtom {p : Path} (hp : p.IsSimple) (hts : ts ∈ p.spelling) (hus : EndsItem us) :
    Takes (pathAtom g true) (ts ++ us) us (· = .path p) := by
  have hany : Takes (anyPath g true) (ts ++ us) us (· = some p) := by
    refine .look <| .ite_neg ?_ <| (hp.takes_path hts hus.endsPath).map fun _ h => congrArg some h
    obtain ⟨-, joint, r, rfl⟩ | ⟨-, w, ss, line, r, -, -, -, rfl⟩ := hp.starts hts <;> rfl
  refine hany.bind ?_
  rintro _ rfl
  rcases hus with rfl | ⟨joint, r, rfl⟩ <;>
  exact .look <| .ite_neg rfl <| .ite_neg rfl <| .pure rfl

theorem takes_atom_path {p : Path} (hp : p.IsSimple) (hts : ts ∈ p.spelling) (hus : EndsItem us) :
    Takes (atom g true) (ts ++ us) us (· = .path p) := by
  have hatom := takes_pathAtom (g := g) hp hts hus
  obtain ⟨-, joint, r, rfl⟩ | ⟨-, w, ss, line, r, hw, -, hr, rfl⟩ := hp.starts hts
  · exact .look <| .ite_neg rfl <| .ite_neg rfl <| .ite_neg rfl <| .ite_neg rfl <|
      .ite_neg rfl <| .ite_pos rfl hatom
  · have hhash : isOp "#" (r ++ us) = false := by
      cases ss with
      | nil =>
        obtain rfl : r = [] := hr
        rcases hus with rfl | ⟨joint, r, rfl⟩ <;> rfl
      | cons s ss =>
        obtain ⟨joint, _, -, _, -, rfl⟩ := Segment.mem_spellingBehind_cons.1 hr
        rfl
    intro written stray
    rw [List.cons_append, atom_of_word hw hhash]
    exact hatom written stray

/-! ### Expressions -/

theorem Takes.asWrittenIf {α : Type} {p : Parser α} {raw : α → Bool} {P : α → Prop}
    (hp : Takes p ts us P) : Takes (asWrittenIf raw p) ts us P := by
  have hkept (a : α) (tokens before : List Token) (ha : P a) : Takes (do
      if raw a then modify fun s : Cursor => { s with written := tokens.reverse ++ before }
      return a) us us P := by
    cases hraw : raw a with
    | true => exact fun written stray => ⟨a, _, rfl, ha⟩
    | false => exact fun written stray => ⟨a, _, rfl, ha⟩
  intro written stray
  obtain ⟨⟨a, tokens⟩, written', heq, ha⟩ := hp.verbatim written stray
  obtain ⟨a', written'', heq', ha'⟩ := hkept a tokens written ha written' stray
  exact ⟨a', written'', (bind_of_eq_ok rfl).trans ((bind_of_eq_ok heq).trans heq'), ha'⟩

/-- Nothing stands behind an atom at the end of an item. -/
theorem takes_postfixes (e : Expr) (hus : EndsItem us) :
    Takes (postfixes g e) us us (· = e) := by
  have hstep : Takes (postfixStep g e) us us (· = none) := by
    rcases hus with rfl | ⟨joint, r, rfl⟩ <;>
    exact .look <| .ite_neg rfl <| .ite_neg rfl <| .ite_neg rfl <| .ite_neg rfl <| .pure rfl
  refine .look <| hstep.bind ?_
  rintro _ rfl
  exact .pure rfl

/-- No operator stands behind an operand at the end of an item. -/
theorem takes_operators (e : Expr) (hus : EndsItem us) :
    Takes (operators g true .jump e) us us (· = e) := by
  have hstep : Takes (operatorStep g true .jump e) us us (· = none) := by
    refine .look ?_
    cases hrange : e.isRange with
    | true => exact .pure rfl
    | false =>
      rcases hus with rfl | ⟨joint, r, rfl⟩ <;>
      exact .ite_neg rfl <| .ite_neg rfl <| .ite_neg rfl <| .pure rfl
  refine .look <| hstep.bind ?_
  rintro _ rfl
  exact .pure rfl

/-- Whether tokens do not start with an operator in front of an operand, or with an attribute. -/
def StartsAtom (ts : List Token) : Prop := ∀ o ∈ ["#", "&", "*", "!", "-"], isOp o ts = false

/-- An atom at the end of an item is an operand, if no attribute and no operator stands in front of
it. -/
theorem takes_operand (hatom : Takes (atom g true) ts us P) (hrange : ∀ e, P e → e.isRange = false)
    (hts : StartsAtom ts) (hus : EndsItem us) : Takes (operand g true) ts us P := by
  simp only [StartsAtom, List.forall_mem_cons] at hts
  obtain ⟨hhash, hand, hstar, hbang, hminus, -⟩ := hts
  have hnone : Takes (outerAttributes g) ts ts (· = []) :=
    .look <| .repeated_nil <| .look <| .ite_neg hhash <| .pure rfl
  refine .asWrittenIf <| hnone.bind ?_
  rintro _ rfl
  have hsigns : Takes (op? "*" <||> op? "!" <||> op? "-") ts ts (· = false) :=
    .op?_neg hstar <| .op?_neg hbang <| takes_op?_neg hminus
  refine .op?_neg hand <| .ite_neg rfl <| hsigns.bind ?_
  rintro _ rfl
  refine .ite_neg rfl <| hatom.bind fun e he => (takes_postfixes e hus).bind ?_
  rintro _ rfl
  refine .ite_neg ?_ <| .pure he
  rw [hrange _ he, Bool.false_and]

/-- An atom by itself is an expression. -/
theorem takes_expr {n : Nat} (hatom : Takes (atom (rules n) true) ts us P)
    (hrange : ∀ e, P e → e.isRange = false) (hts : StartsAtom ts) (hus : EndsItem us) :
    Takes (rules (n + 2) (.expr true)) ts us P := by
  refine (takes_operand hatom hrange hts hus).bind fun e he => ?_
  refine (takes_operators e hus).mono ?_
  rintro _ rfl
  exact he

theorem startsAtom_path {p : Path} (us : List Token) (hp : p.IsSimple) (hts : ts ∈ p.spelling) :
    StartsAtom (ts ++ us) ∧ isLiteral (ts ++ us) = false := by
  obtain ⟨-, joint, r, rfl⟩ | ⟨-, w, ss, line, r, hw, -, -, rfl⟩ := hp.starts hts
  · exact ⟨by simp [StartsAtom, isOp, startsWith], rfl⟩
  · refine ⟨by simp [StartsAtom, isOp, startsWith], ?_⟩
    change (w == "true" || w == "false") = false
    rw [beq_eq_false_of_word hw (by decide), beq_eq_false_of_word hw (by decide)]
    rfl

/-- A simple path is read as an expression. -/
theorem takes_expr_path {n : Nat} {p : Path} (hp : p.IsSimple) (hts : ts ∈ p.spelling)
    (hus : EndsItem us) : Takes (rules (n + 2) (.expr true)) (ts ++ us) us (· = .path p) := by
  refine takes_expr (takes_atom_path hp hts hus) ?_ (startsAtom_path us hp hts).1 hus
  rintro _ rfl
  rfl

/-- A literal is read as an expression. -/
theorem takes_expr_literal {n : Nat} {text : String} (hus : EndsItem us) :
    Takes (rules (n + 2) (.expr true)) (.literal text :: us) us (· = .literal text) := by
  refine takes_expr takes_atom_literal ?_ (by simp [StartsAtom, isOp, startsWith]) hus
  rintro _ rfl
  rfl

/-! ### Arrays -/

section Arrays

variable {γ : Type} {L : γ → Language Token} {R : γ → Expr → Prop} {as : List γ}
  {body : List Token} {size : Nat}

/-- Items with commas in between are read one by one. -/
theorem takes_commas {α : Type} {p : Parser α} {R : γ → α → Prop}
    (hitems : ∀ a ∈ as, ReadsItem p List.isEmpty EndsItem size (L a) (R a))
    (hts : ts ∈ listed ',' (as.map L)) (hsize : sizeList ts ≤ size) :
    Takes (commas p) ts [] fun x => List.Forall₂ R as x.1 := by
  have hlisted : Takes (commas p) (ts ++ []) [] fun x => List.Forall₂ R as x.1 :=
    Takes.listed rfl (fun joint vs => ⟨rfl, .inr ⟨joint, vs, rfl⟩⟩) hitems hts hsize rfl (.inl rfl)
  rwa [List.append_nil] at hlisted

/-- Items in brackets are read as the elements of an array. -/
theorem takes_bracketAtom
    (hitems : ∀ a ∈ as, ReadsItem (g (.expr true)) List.isEmpty EndsItem size (L a) (R a))
    (hbody : body ∈ listed ',' (as.map L)) (hsize : sizeList body ≤ size) :
    Takes (bracketAtom g) (.group .bracket body :: us) us
      fun e => ∃ elems, e = .array elems ∧ List.Forall₂ R as elems := by
  refine .inside ?_
  cases as with
  | nil =>
    obtain rfl : body = [] := hbody
    exact .look <| .ite_pos rfl <| .pure ⟨[], rfl, .nil⟩
  | cons a as =>
    obtain ⟨hfirst, hmore⟩ := List.forall_mem_cons.1 hitems
    obtain ⟨hlast, hmem⟩ | ⟨vs, hvs, joint, xs, hxs, rfl⟩ := mem_listed_cons.1 hbody
    · -- One element without a comma behind it: the body ends where the element does.
      obtain rfl : as = [] := List.map_eq_nil_iff.1 hlast
      obtain ⟨hstart, htakes⟩ := hfirst body hmem hsize
      have hnonempty := hstart []
      have htakes := htakes [] (.inl rfl)
      rw [List.append_nil] at hnonempty htakes
      refine .look <| .ite_neg hnonempty <| htakes.bind fun e he => .look <| .ite_pos rfl <|
        (takes_op?_neg rfl).discard.bind fun _ _ => (takes_commas hmore rfl (Nat.zero_le _)).bind ?_
      rintro ⟨more, trailing⟩ hforall
      exact .pure ⟨e :: more, rfl, .cons he hforall⟩
    · -- A comma behind the first element: what follows it is a list of its own.
      rw [sizeList_append, sizeList] at hsize
      obtain ⟨hstart, htakes⟩ := hfirst vs hvs (by omega)
      have htakes := htakes (.punct ',' joint :: xs) (.inr ⟨joint, xs, rfl⟩)
      refine .look <| .ite_neg (hstart _) <| htakes.bind fun e he => .look <| .ite_pos rfl <|
        (takes_op?_pos rfl).discard.bind fun _ _ => (takes_commas hmore hxs (by omega)).bind ?_
      rintro ⟨more, trailing⟩ hforall
      exact .pure ⟨e :: more, rfl, .cons he hforall⟩

/-- An array is read from the tokens of its elements, with commas in between and maybe one behind
them. -/
theorem takes_expr_array {n : Nat}
    (hitems : ∀ a ∈ as, ReadsItem (rules n (.expr true)) List.isEmpty EndsItem size (L a) (R a))
    (hbody : body ∈ listed ',' (as.map L)) (hsize : sizeList body ≤ size) (hus : EndsItem us) :
    Takes (rules (n + 2) (.expr true)) (.group .bracket body :: us) us
      fun e => ∃ elems, e = .array elems ∧ List.Forall₂ R as elems := by
  refine takes_expr (takes_atom_bracket (takes_bracketAtom hitems hbody hsize)) ?_
    (by simp [StartsAtom, isOp, startsWith]) hus
  rintro _ ⟨elems, rfl, -⟩
  rfl

end Arrays

/-! ### Values of attributes -/

/-- What does not start with a literal is refused as one. -/
theorem fails_literal (h : isLiteral ts = false) :
    Fails literal ts ⟨ts.isEmpty, .expected "literal"⟩ := by
  refine .look ?_
  split
  · cases h
  · exact .ite_neg h (fails_expected _)
  · exact .ite_neg h (fails_expected _)
  · exact fails_expected _

/-- What does not start with a literal is a value as it is an expression. -/
theorem takes_attributeValue (hliteral : isLiteral ts = false) (hhash : isOp "#" ts = false)
    (h : Takes (g (.expr true)) ts us P) : Takes (attributeValue g) ts us P := by
  refine (Takes.attempt?_none (fails_literal hliteral).bind).bind ?_
  rintro _ rfl
  refine .look <| .ite_neg ?_ h
  rw [hhash, Bool.false_and]

/-- A literal is a value by itself. -/
theorem takes_attributeValue_literal {n : Nat} {text : String} (hus : EndsItem us) :
    Takes (attributeValue (rules (n + 2))) (.literal text :: us) us (· = .literal text) := by
  have hexpr : Takes (rules (n + 2) (.expr true)) (.literal text :: us) us (· = .literal text) :=
    takes_expr_literal hus
  rcases hus with rfl | ⟨joint, r, rfl⟩
  · -- a literal that nothing follows is not read as an expression
    have hwhole : Takes (do
        let t ← literal
        unless (← rest).isEmpty do expected "end"
        return t) [.literal text] [] (· = text) := by
      refine takes_literal.bind ?_
      rintro _ rfl
      exact .look <| .ite_pos rfl <| .pure rfl
    refine hwhole.attempt?_some.bind ?_
    rintro _ ⟨_, rfl, rfl⟩
    exact .pure rfl
  · refine (Takes.attempt?_none (f := ⟨false, .expected "end"⟩) ?_).bind ?_
    · refine takes_literal.fails ?_
      rintro _ rfl
      exact .look <| .ite_neg rfl (fails_expected "end").bind
    · rintro _ rfl
      exact .look <| .ite_neg rfl hexpr

/-! ### Items -/

section Items

variable {w : String} {line : Nat} {r : List Token} {ss : List Segment}

/-- Words with colons in between are read as segments. -/
theorem takes_plainSegments (hss : ∀ s ∈ ss, ∃ w, s = .mk w .none)
    (hr : r ∈ Segment.spellingBehind ss) (hus : isOp "::" us = false) {n : Nat}
    (hn : ss.length ≤ n) :
    Takes (plainSegments isAnyWord (n + 1)) (.ident w line :: (r ++ us)) us
      (· = (.mk w .none :: ss, false)) := by
  induction ss generalizing w line r n with
  | nil =>
    obtain rfl : r = [] := hr
    refine .look <| .ite_pos rfl <| takes_anyWord.bind ?_
    rintro _ rfl
    exact .op?_neg hus <| .pure rfl
  | cons s ss ih =>
    obtain ⟨n, rfl⟩ : ∃ m, n = m + 1 := ⟨n - 1, by simp at hn; omega⟩
    obtain ⟨⟨w', rfl⟩, hmore⟩ := List.forall_mem_cons.1 hss
    obtain ⟨joint, vs, hvs, xs, hxs, rfl⟩ := Segment.mem_spellingBehind_cons.1 hr
    rw [Segment.spelling_word] at hvs
    obtain ⟨line', rfl⟩ := hvs
    -- The segments behind the first are read with the word after the `::` as their first.
    have hfurther : Takes (plainSegments isAnyWord (n + 1)) (.ident w' line' :: (xs ++ us)) us
        (· = (.mk w' .none :: ss, false)) := ih hmore hxs (by simpa using hn)
    refine .look <| .ite_pos rfl <| takes_anyWord.bind ?_
    rintro _ rfl
    refine .op?_pos rfl <| .ite_pos rfl <| hfurther.bind ?_
    rintro _ rfl
    exact .pure rfl

/-- A path of words is read up to where no colons follow. -/
theorem takes_wordPath (hss : ∀ s ∈ ss, ∃ w, s = .mk w .none)
    (hr : r ∈ Segment.spellingBehind ss) (hus : isOp "::" us = false) :
    Takes wordPath (.ident w line :: (r ++ us)) us (· = .mk false (.mk w .none :: ss)) := by
  have hcount : ss.length ≤ (.ident w line :: (r ++ us)).length := by
    have hle := Segment.length_le_of_mem_spellingBehind hr
    simp only [List.length_cons, List.length_append]
    omega
  refine .look <| (takes_plainSegments hss hr hus hcount).bind ?_
  rintro _ rfl
  exact .ite_neg rfl <| .pure rfl

theorem takes_wordPath_single (hus : isOp "::" us = false) :
    Takes wordPath (.ident w line :: us) us (· = .ofIdent w) := by
  have hnone : ∀ s ∈ ([] : List Segment), ∃ w, s = .mk w .none := by simp
  have hnil : ([] : List Token) ∈ Segment.spellingBehind [] := rfl
  exact @takes_wordPath us w line [] [] hnone hnil hus

/-- What starts with a word that is no truth value is an item with a path. -/
theorem takes_metaItem_word {P : MetaItem → Prop} {p : Path}
    (hw : isTypeWord w = true) (hpath : Takes wordPath (.ident w line :: r) us (· = p))
    (h : Takes (do
      match ← rest with
      | .group _ _ :: _ => return .list p (← anyGroup).2
      | _ => if ← op? "=" then return .value p (← attributeValue g) else return .word p) us ts P) :
    Takes (metaItem g) (.ident w line :: r) ts P := by
  have hliteral : isLiteral (.ident w line :: r) = false := by
    change (w == "true" || w == "false") = false
    rw [beq_eq_false_of_word hw (by decide), beq_eq_false_of_word hw (by decide)]
    rfl
  refine .look <| .ite_neg ?_ <| .ite_pos rfl <| hpath.bind ?_
  · rw [hliteral, Bool.false_and]
  · rintro _ rfl
    exact h

/-- A simple path that does not start with `::` is an item. -/
theorem takes_metaItem_path {p : Path} (hp : p.IsSimple) (hleading : p.isLeading = false)
    (hts : ts ∈ p.spelling) (hus : EndsItem us) :
    Takes (metaItem g) (ts ++ us) us (· = .word p) := by
  obtain ⟨hcolons, -⟩ | ⟨-, w, ss, line, r, hw, hsegments, hr, rfl⟩ := hp.starts hts
  · rw [hleading] at hcolons
    cases hcolons
  · have hss : ∀ s ∈ ss, ∃ w, s = Segment.mk w .none := by
      intro s hs
      obtain ⟨w, -, heq⟩ := hp.exists_word (hsegments ▸ List.mem_cons_of_mem _ hs)
      exact ⟨w, heq⟩
    obtain ⟨leading, segments⟩ := p
    obtain rfl : leading = false := hleading
    obtain rfl : segments = .mk w .none :: ss := hsegments
    refine takes_metaItem_word hw (takes_wordPath hss hr hus.endsPath.2) ?_
    rcases hus with rfl | ⟨joint, r, rfl⟩ <;>
    exact .look <| .op?_neg rfl <| .ite_neg rfl <| .pure rfl

/-- A path that starts with `::` is no item. -/
theorem fails_metaItem_colons {joint : Bool} :
    Fails (metaItem g) (.punct ':' true :: .punct ':' joint :: r)
      ⟨false, .expected "identifier or literal"⟩ :=
  .look <| .ite_neg rfl <| .ite_neg rfl <| fails_expected _

theorem takes_metaItem_literal {text : String} :
    Takes (metaItem g) (.literal text :: us) us (· = .literal text) := by
  refine .look <| .ite_pos rfl <| takes_literal.bind ?_
  rintro _ rfl
  exact .pure rfl

/-- A word in front of a group is an item with that group. -/
theorem takes_metaItem_list {d : Delimiter} {body : List Token} (hw : isTypeWord w = true) :
    Takes (metaItem g) (.ident w line :: .group d body :: us) us
      (· = .list (.ofIdent w) body) := by
  have hgroup : Takes anyGroup (.group d body :: us) us (· = (d, body)) :=
    fun _ _ => ⟨_, _, rfl, rfl⟩
  refine takes_metaItem_word hw (takes_wordPath_single rfl) <| .look <| hgroup.bind ?_
  rintro _ rfl
  exact .pure rfl

/-- A word in front of an equals sign is an item with the value behind it. -/
theorem takes_metaItem_value {joint : Bool} (hw : isTypeWord w = true)
    (h : Takes (attributeValue g) ts us P) :
    Takes (metaItem g) (.ident w line :: .punct '=' joint :: ts) us
      fun i => ∃ e, i = .value (.ofIdent w) e ∧ P e := by
  refine takes_metaItem_word hw (takes_wordPath_single rfl) <| .look <| .op?_pos rfl <|
    .ite_pos rfl <| h.bind fun e he => ?_
  exact .pure ⟨e, rfl, he⟩

end Items

/-! ### Lists of items -/

section Lists

variable {γ : Type} {L : γ → Language Token} {R : γ → MetaItem → Prop} {as : List γ}

/-- A list of items is read if each item is, in front of the end of an item. -/
theorem exists_metaItems_eq_ok
    (hitems : ∀ a ∈ as, ReadsItem (metaItem (rulesFor ts)) List.isEmpty EndsItem (sizeList ts) (L a)
      (R a))
    (hts : ts ∈ listed ',' (as.map L)) :
    ∃ items, metaItems ts = .ok items ∧ List.Forall₂ R as items := by
  have hcommas := takes_commas hitems hts le_rfl
  exact (hcommas.bind fun x hx => .pure hx).finish

/-- A list of items is refused where one of them is. -/
theorem metaItems_eq_error {f : Failure}
    (h : FailsBehind ',' (metaItem (rulesFor ts)) List.isEmpty f ts) : metaItems ts = .error f := by
  have hcommas : Fails (commas (metaItem (rulesFor ts))) ts f :=
    h.separated rfl fun _ _ => rfl
  exact hcommas.bind.finish

end Lists

end Grammar

end FieldBinder
