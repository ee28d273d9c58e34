import FieldBinder.Proofs.Grammar.Takes
import FieldBinder.Proofs.Source.Structural

/-!
# Reading the tokens of a type

What comes next decides how the reader of types goes on: one lemma for each form of type says that
the tokens of this form lead to its reader (`Grammar.takes_type_word` and those after it).  The
reader stops where the type ends because nothing that ends a type (`EndsType`) goes on with it.

A type is read back (`Ty.Reads`) if the reader takes exactly its tokens, wherever they stand in
front of the end of a type, and gives the same type.  Paths are read back if the arguments in them
are (`takes_path`).
-/

namespace FieldBinder

open Grammar
open Token (sizeList marks operators groups words single)

/-! ### What follows and what starts -/

/-- The characters that can follow a type, which may be a sum of bounds or not. -/
def typeEnds (plus : Bool) : List Char :=
  if plus then [',', ';', '>', '='] else [',', ';', '>', '=', '+']

/-- Whether tokens go on with something that ends a type. -/
def EndsType (plus : Bool) (ts : List Token) : Prop :=
  ∀ t ∈ ts.head?, ∃ c joint, t = .punct c joint ∧ c ∈ typeEnds plus

/-- Whether a type can start with a token. -/
def StartsType : Token → Prop
  | .ident w _ => isTypeWord w = true ∨ w ∈ ["dyn", "impl", "_"]
  | .punct c _ => c ∈ [':', '&', '*', '!']
  | .group d _ => d ≠ .brace
  | .lifetime _ | .literal _ => False

theorem endsType_nil {plus : Bool} : EndsType plus [] := by simp [EndsType]

/-- Marks that can follow a type end it. -/
theorem endsType_punct {plus : Bool} {c : Char} (hc : c ∈ typeEnds plus) (joint : Bool)
    (r : List Token) : EndsType plus (.punct c joint :: r) := by
  intro t ht
  cases ht
  exact ⟨c, joint, rfl, hc⟩

/-- What ends a sum of bounds ends a type without one. -/
theorem EndsType.sum {plus : Bool} {ts : List Token} (h : EndsType plus ts) :
    EndsType false ts := by
  cases plus with
  | false => exact h
  | true =>
    intro t ht
    obtain ⟨c, joint, rfl, hc⟩ := h t ht
    exact ⟨c, joint, rfl, List.mem_append_left ['+'] hc⟩

/-- No operator goes on where a type ends, unless the mark can follow a type. -/
theorem EndsType.isOp {plus : Bool} {ts : List Token} (h : EndsType plus ts) {o : String} {c : Char}
    {cs : List Char} (ho : o.toList = c :: cs) (hc : c ∉ typeEnds plus) : isOp o ts = false := by
  rw [Grammar.isOp, ho]
  cases ts with
  | nil => cases cs <;> rfl
  | cons t r =>
    obtain ⟨d, joint, rfl, hd⟩ := h t rfl
    have hne : (c == d) = false := by
      apply beq_false_of_ne
      rintro rfl
      exact hc hd
    cases cs <;> simp [startsWith, hne]

theorem EndsType.isGroup {plus : Bool} {ts : List Token} (h : EndsType plus ts) (d : Delimiter) :
    isGroup d ts = false := by
  cases ts with
  | nil => rfl
  | cons t r =>
    obtain ⟨c, joint, rfl, -⟩ := h t rfl
    rfl

/-- A type starts with no marks but those of references, pointers, paths and `!`. -/
theorem StartsType.startsWith {t : Token} (h : StartsType t) {c : Char}
    (hc : c ∉ [':', '&', '*', '!']) (cs : List Char) (r : List Token) :
    startsWith (c :: cs) (t :: r) = false := by
  cases t with
  | punct d joint =>
    have hne : (c == d) = false := by
      apply beq_false_of_ne
      rintro rfl
      exact hc h
    cases cs <;> simp [Grammar.startsWith, hne]
  | _ => cases cs <;> rfl

theorem StartsType.isOp {t : Token} (h : StartsType t) {o : String} {c : Char} {cs : List Char}
    (ho : o.toList = c :: cs) (hc : c ∉ [':', '&', '*', '!']) (r : List Token) :
    isOp o (t :: r) = false := by
  rw [Grammar.isOp, ho]
  exact h.startsWith hc cs r

theorem StartsType.isLifetime {t : Token} (h : StartsType t) (r : List Token) :
    isLifetime (t :: r) = false := by
  cases t with
  | lifetime => exact h.elim
  | _ => rfl

/-- Words can be told apart by a property. -/
theorem beq_eq_false_of_word {q : String → Bool} {v w : String} (hw : q w = true)
    (hv : q v = false) : (w == v) = false := by
  apply beq_false_of_ne
  rintro rfl
  rw [hw] at hv
  cases hv

/-- So can a word from the words of a list. -/
theorem contains_eq_false_of_word {q : String → Bool} {w : String} (hw : q w = true)
    {ws : List String} (hws : ws.all (fun v => !q v) = true) : ws.contains w = false := by
  apply Bool.eq_false_iff.2
  intro hmem
  have hnot := List.all_eq_true.1 hws w (List.contains_iff_mem.1 hmem)
  rw [hw] at hnot
  cases hnot

/-- A type does not start as a constant does. -/
theorem StartsType.isConstStart {t : Token} (h : StartsType t) (r : List Token) :
    isConstStart (t :: r) = false := by
  cases t with
  | ident w line =>
    have hword : (w == "true") = false ∧ (w == "false") = false := by
      rcases h with hw | hw
      · exact ⟨beq_eq_false_of_word hw (by decide), beq_eq_false_of_word hw (by decide)⟩
      · have hwords : ["dyn", "impl", "_"].all (fun w => w != "true" && w != "false") = true := by
          decide
        simpa using List.all_eq_true.1 hwords w hw
    simp [Grammar.isConstStart, isLiteral, isGroup, hword]
  | punct c joint =>
    -- A constant can begin with a minus sign, and a type cannot.
    have hminus : c ≠ '-' := by
      rintro rfl
      have h : '-' ∈ [':', '&', '*', '!'] := h
      exact absurd h (by decide)
    simp [Grammar.isConstStart, isLiteral, isGroup, hminus]
  | group d body =>
    have hbrace : (d == Delimiter.brace) = false := beq_false_of_ne h
    simp [Grammar.isConstStart, isLiteral, isGroup, hbrace]
  | lifetime => exact h.elim
  | literal => exact h.elim

/-! ### Which type comes next -/

namespace Grammar

variable {g : Rules} {plus : Bool} {line : Nat} {joint : Bool} {r us : List Token} {P : Ty → Prop}

/-- Where no `for` comes next there is no binder. -/
theorem Takes.noBinder {α : Type} {ts : List Token} {f : Option (List Token) → Parser α}
    {Q : α → Prop} (h : isWord "for" ts = false) (hf : Takes (f none) ts us Q) :
    Takes (binder? g >>= f) ts us Q := by
  have hnone : Takes (binder? g) ts ts (· = none) := .look <| .ite_neg h <| .pure rfl
  refine hnone.bind ?_
  rintro _ rfl
  exact hf

/-- A type that starts with a word is a path, unless the word is a keyword of types. -/
theorem takes_type_word {w : String} (hw : isTypeWord w = true) (hr : isOp "#" r = false)
    (h : Takes (pathType g plus none) (.ident w line :: r) us P) :
    Takes (type g plus) (.ident w line :: r) us P := by
  have hfor : isWord "for" (.ident w line :: r) = false := beq_eq_false_of_word hw (by decide)
  have hitem : isOneOf ["fn", "unsafe", "extern"] (.ident w line :: r) = false :=
    contains_eq_false_of_word hw (by decide)
  have hbuiltin : isBuiltin (.ident w line :: r) = false := by
    rw [isBuiltin, List.drop_one, List.tail_cons, hr, Bool.and_false]
  have hpath : (isName (.ident w line :: r) ||
      isOneOf ["super", "self", "Self", "crate"] (.ident w line :: r) ||
      isOp "::" (.ident w line :: r) || isOp "<" (.ident w line :: r)) = true := by
    change (isNameText w || ["super", "self", "Self", "crate"].contains w || false || false) = true
    rwa [Bool.or_false, Bool.or_false]
  exact .printed <| .look <| .noBinder hfor <| .look <| .ite_neg rfl <| .ite_neg rfl <|
    .ite_neg hitem <| .ite_neg hbuiltin <| .ite_pos hpath h

theorem takes_type_colons
    (h : Takes (pathType g plus none) (.punct ':' true :: .punct ':' joint :: r) us P) :
    Takes (type g plus) (.punct ':' true :: .punct ':' joint :: r) us P :=
  .printed <| .look <| .noBinder rfl <| .look <| .ite_neg rfl <| .ite_neg rfl <| .ite_neg rfl <|
    .ite_neg rfl <| .ite_pos rfl h

theorem takes_type_paren {body : List Token}
    (h : Takes (parenType g plus) (.group .paren body :: r) us P) :
    Takes (type g plus) (.group .paren body :: r) us P :=
  .printed <| .look <| .noBinder rfl <| .look <| .ite_neg rfl <| .ite_pos rfl h

theorem takes_type_bracket {body : List Token}
    (h : Takes (bracketType g) (.group .bracket body :: r) us P) :
    Takes (type g plus) (.group .bracket body :: r) us P :=
  .printed <| .look <| .noBinder rfl <| .look <| .ite_neg rfl <| .ite_neg rfl <| .ite_neg rfl <|
    .ite_neg rfl <| .ite_neg rfl <| .ite_neg rfl <| .ite_pos rfl h

theorem takes_type_dyn (h : Takes (dynType g plus) (.ident "dyn" line :: r) us P) :
    Takes (type g plus) (.ident "dyn" line :: r) us P :=
  .printed <| .look <| .noBinder rfl <| .look <| .ite_neg rfl <| .ite_neg rfl <| .ite_neg rfl <|
    .ite_neg rfl <| .ite_neg rfl <| .ite_pos rfl h

/-- A star and a keyword make a pointer. -/
theorem takes_type_pointer {isMut : Bool}
    (h : Takes (g (.type false)) r us fun t => P (.pointer isMut t)) :
    Takes (type g plus)
      (.punct '*' joint :: .ident (if isMut then "mut" else "const") line :: r) us P := by
  refine .printed <| .look <| .noBinder rfl <| .look <| .ite_neg rfl <| .ite_neg rfl <|
    .ite_neg rfl <| .ite_neg rfl <| .ite_neg rfl <| .ite_neg rfl <| .ite_neg rfl <|
    .op?_pos rfl <| .ite_pos rfl ?_
  cases isMut with
  | false => exact .word?_pos <| .ite_pos rfl <| h.bind fun t ht => .pure ht
  | true =>
    exact .word?_neg rfl <| .ite_neg rfl <| .word?_pos <| .ite_pos rfl <|
      h.bind fun t ht => .pure ht

theorem takes_type_reference
    (h : Takes (do
      let l ← lifetime?
      let isMut ← word? "mut"
      return Ty.reference l isMut (← g (.type false))) r us P) :
    Takes (type g plus) (.punct '&' joint :: r) us P :=
  .printed <| .look <| .noBinder rfl <| .look <| .ite_neg rfl <| .ite_neg rfl <| .ite_neg rfl <|
    .ite_neg rfl <| .ite_neg rfl <| .ite_neg rfl <| .ite_neg rfl <| .op?_neg rfl <| .ite_neg rfl <|
    .op?_pos rfl <| .ite_pos rfl h

theorem takes_type_never (h : P .never) : Takes (type g plus) (.punct '!' joint :: r) r P :=
  .printed <| .look <| .noBinder rfl <| .look <| .ite_neg rfl <| .ite_neg rfl <| .ite_neg rfl <|
    .ite_neg rfl <| .ite_neg rfl <| .ite_neg rfl <| .ite_neg rfl <| .op?_neg rfl <| .ite_neg rfl <|
    .op?_neg rfl <| .ite_neg rfl <| .ite_pos rfl <| .op rfl <| .pure h

/-- A sum of bounds behind `impl` has to name a trait. -/
theorem takes_type_impl
    (h : Takes (bounds g plus true true) r us fun x =>
      x.1.any namesTrait = true ∧ P (.implTrait x.1 x.2)) :
    Takes (type g plus) (.ident "impl" line :: r) us P := by
  refine .printed <| .look <| .noBinder rfl <| .look <| .ite_neg rfl <| .ite_neg rfl <|
    .ite_neg rfl <| .ite_neg rfl <| .ite_neg rfl <| .ite_neg rfl <| .ite_neg rfl <|
    .op?_neg rfl <| .ite_neg rfl <| .op?_neg rfl <| .ite_neg rfl <| .ite_neg rfl <|
    .word?_pos <| .ite_pos rfl <| h.bind ?_
  rintro ⟨bs, trailing⟩ ⟨htraits, hP⟩
  exact .ite_pos htraits <| .pure hP

theorem takes_type_infer (h : P .infer) : Takes (type g plus) (.ident "_" line :: r) r P :=
  .printed <| .look <| .noBinder rfl <| .look <| .ite_neg rfl <| .ite_neg rfl <| .ite_neg rfl <|
    .ite_neg rfl <| .ite_neg rfl <| .ite_neg rfl <| .ite_neg rfl <| .op?_neg rfl <| .ite_neg rfl <|
    .op?_neg rfl <| .ite_neg rfl <| .ite_neg rfl <| .word?_neg rfl <| .ite_neg rfl <|
    .ite_pos rfl <| takes_anyWord.discard.bind fun _ _ => .pure h

end Grammar

/-! ### What it is to be read back -/

/-- Whether a type is read back from its tokens. -/
def Ty.Reads (plus : Bool) (t : Ty) : Prop :=
  ∀ ts ∈ t.spelling, ∀ n, 2 * sizeList ts + 4 ≤ n → ∀ us, EndsType plus us →
    Takes (rules n (.type plus)) (ts ++ us) us fun u : Ty => u.plain = t.plain

/-- Whether a bound is read back from its tokens. -/
def Bound.Reads (b : Bound) : Prop :=
  ∀ ts ∈ b.spelling, ∀ n, 2 * sizeList ts + 3 ≤ n → ∀ us, EndsType false us →
    ∀ captures constant, Takes (rules n (.bound captures constant)) (ts ++ us) us
      fun b' : Bound => b'.plain = b.plain

/-- Whether the arguments of a segment are read back from their tokens. -/
def Args.Reads : Args → Prop
  | .none => True
  | .angle turbofish args trailing =>
    ∀ ts ∈ (Args.angle turbofish args trailing).spelling, ∀ n, 2 * sizeList ts + 2 ≤ n → ∀ us,
      Takes (angleArgs (rules n) turbofish) (ts ++ us) us
        fun a => a.plain = (Args.angle turbofish args trailing).plain
  | .paren inputs trailing output =>
    ∀ ts ∈ (Args.paren inputs trailing output).spelling, ∀ n, 2 * sizeList ts + 2 ≤ n →
      ∀ us, EndsType false us → Takes (parenArgs (rules n)) (ts ++ us) us
        fun a => a.plain = (Args.paren inputs trailing output).plain

/-- Whether a generic argument is read back from its tokens. -/
def GenericArg.Reads (a : GenericArg) : Prop :=
  ∀ ts ∈ a.spelling, ∀ n, 2 * sizeList ts + 4 ≤ n → ∀ us, EndsType true us → isOp "=" us = false →
    Takes (genericArg (rules n)) (ts ++ us) us fun a' => a'.plain = a.plain

/-! ### First tokens -/

/-- All elements but the first have a separator in front. -/
theorem joined_cons (S L : Language Token) (Ls : List (Language Token)) :
    Token.joined S (L :: Ls) = L * (Ls.map (S * ·)).prod := by
  induction Ls generalizing L with
  | nil => rw [Token.joined, List.map_nil, List.prod_nil, mul_one]
  | cons L' Ls ih => rw [Token.joined, ih, List.map_cons, List.prod_cons, mul_assoc, mul_assoc]

/-- A path starts with `::` or with its first name. -/
theorem Path.starts {p : Path} {inBound : Bool} (h : p.Sound inBound) {ts : List Token}
    (hts : ts ∈ p.spelling) :
    (∃ joint r, ts = .punct ':' true :: .punct ':' joint :: r) ∨
      p.isLeading = false ∧ ∃ w line r, p.idents.head? = some w ∧ ts = .ident w line :: r := by
  obtain ⟨leading, segments⟩ := p
  rw [Path.Sound] at h
  rw [Path.spelling] at hts
  obtain ⟨us, hus, vs, hvs, rfl⟩ := Language.mem_mul.1 hts
  cases leading with
  | true =>
    obtain ⟨joint, rfl⟩ := hus
    exact .inl ⟨joint, vs, rfl⟩
  | false =>
    obtain rfl : us = [] := hus
    obtain ⟨⟨w, args⟩, r, rfl⟩ := List.exists_cons_of_ne_nil h.1
    rw [Segment.spellingList, joined_cons, Segment.spelling, mul_assoc] at hvs
    obtain ⟨_, ⟨line, rfl⟩, xs, -, rfl⟩ := Language.mem_mul.1 hvs
    exact .inr ⟨rfl, w, line, xs, rfl, rfl⟩

/-- A path starts with `::` or with a word that can be the name of a segment. -/
theorem Path.starts_word {p : Path} {inBound : Bool} (h : p.Sound inBound) {ts : List Token}
    (hts : ts ∈ p.spelling) :
    (∃ joint r, ts = .punct ':' true :: .punct ':' joint :: r) ∨
      ∃ w line r, isSegmentWord w = true ∧ ts = .ident w line :: r := by
  obtain hcolons | ⟨-, w, line, r, hw, rfl⟩ := Path.starts h hts
  · exact .inl hcolons
  · obtain ⟨leading, segments⟩ := p
    rw [Path.Sound] at h
    obtain ⟨⟨w', args⟩, segments, rfl⟩ := List.exists_cons_of_ne_nil h.1
    obtain rfl : w' = w := Option.some.inj hw
    rw [Segment.SoundList, Segment.Sound] at h
    exact .inr ⟨_, line, r, h.2.1.2.1, rfl⟩

/-- The tokens of a type start as a type does. -/
theorem Ty.starts {t : Ty} {plus : Bool} (h : t.Sound plus) (hs : t.Structural) {ts : List Token}
    (hts : ts ∈ t.spelling) : ∃ t' r, ts = t' :: r ∧ StartsType t' := by
  cases t with
  | path p =>
    rw [Ty.Sound] at h
    rw [Ty.spelling] at hts
    -- A path begins with `::` or with its first word, which is none that begins another type.
    obtain ⟨joint, r, rfl⟩ | ⟨hleading, w, line, r, hw, rfl⟩ := Path.starts h.1 hts
    · exact ⟨_, _, rfl, List.mem_cons_self⟩
    · exact ⟨_, _, rfl, .inl (h.2 hleading w hw)⟩
  | reference l isMut elem =>
    cases l <;>
    · rw [Ty.spelling, mul_assoc, mul_assoc] at hts
      obtain ⟨_, ⟨joint, rfl⟩, us, -, rfl⟩ := Language.mem_mul.1 hts
      exact ⟨_, _, rfl, by simp [StartsType]⟩
  | pointer isMut elem =>
    rw [Ty.spelling, mul_assoc] at hts
    obtain ⟨_, ⟨joint, rfl⟩, us, -, rfl⟩ := Language.mem_mul.1 hts
    exact ⟨_, _, rfl, by simp [StartsType]⟩
  | slice elem | array elem len | tuple elems trailing | paren elem =>
    rw [Ty.spelling] at hts
    obtain ⟨body, -, rfl⟩ := hts
    exact ⟨_, _, rfl, by simp [StartsType]⟩
  | traitObject isDyn bounds trailing =>
    rw [Ty.Structural] at hs
    -- A trait object of the fragment is written with `dyn`.
    obtain ⟨rfl, -⟩ := hs
    rw [Ty.spelling] at hts
    obtain ⟨_, ⟨line, rfl⟩, us, -, rfl⟩ := Language.mem_mul.1 hts
    exact ⟨_, _, rfl, by simp [StartsType]⟩
  | implTrait bounds trailing =>
    rw [Ty.spelling] at hts
    obtain ⟨_, ⟨line, rfl⟩, us, -, rfl⟩ := Language.mem_mul.1 hts
    exact ⟨_, _, rfl, by simp [StartsType]⟩
  | never =>
    rw [Ty.spelling] at hts
    obtain ⟨joint, rfl⟩ := hts
    exact ⟨_, _, rfl, by simp [StartsType]⟩
  | infer =>
    rw [Ty.spelling] at hts
    obtain ⟨line, rfl⟩ := hts
    exact ⟨_, _, rfl, by simp [StartsType]⟩
  | group elem | other tokens =>
    rw [Ty.Structural] at hs
    exact hs.elim

/-- A generic argument starts with a lifetime or as a type does. -/
theorem GenericArg.starts {a : GenericArg} (h : a.Sound) (hs : a.Structural) {ts : List Token}
    (hts : ts ∈ a.spelling) : ∃ t r, ts = t :: r ∧ ((∃ l, t = .lifetime l) ∨ StartsType t) := by
  cases a with
  | lifetime name =>
    rw [GenericArg.spelling] at hts
    obtain rfl : ts = [.lifetime name] := hts
    exact ⟨_, _, rfl, .inl ⟨name, rfl⟩⟩
  | type t =>
    rw [GenericArg.Sound] at h
    rw [GenericArg.Structural] at hs
    rw [GenericArg.spelling] at hts
    obtain ⟨t', r, rfl, ht'⟩ := Ty.starts h hs hts
    exact ⟨t', r, rfl, .inr ht'⟩
  | assocType name args t =>
    rw [GenericArg.Sound] at h
    rw [GenericArg.spelling, mul_assoc] at hts
    obtain ⟨_, ⟨line, rfl⟩, us, -, rfl⟩ := Language.mem_mul.1 hts
    exact ⟨_, _, rfl, .inr (.inl h.2.1)⟩
  | other tokens =>
    rw [GenericArg.Structural] at hs
    exact hs.elim

/-! ### Segments -/

/-- Whether tokens do not go on with arguments in angle brackets. -/
def EndsSegment (ts : List Token) : Prop :=
  isOp "<" ts = false ∧ (isOp "::" ts && isOp "<" (ts.drop 2)) = false

/-- What stands behind an opening angle bracket does not make another operator of it. -/
theorem isOp_args {args : List GenericArg} (h : GenericArg.SoundList args)
    (hs : GenericArg.StructuralList args) {ts : List Token}
    (hts : ts ∈ Token.joined (marks ',') (GenericArg.spellingList args)) (joint joint' : Bool)
    (us : List Token) :
    isOp "<=" (.punct '<' joint :: (ts ++ .punct '>' joint' :: us)) = false ∧
      isOp "<<=" (.punct '<' joint :: (ts ++ .punct '>' joint' :: us)) = false := by
  -- No argument begins with `=` or `<`, and neither does the closing bracket.
  have hnext {c : Char} (hc : c = '=' ∨ c = '<') (cs : List Char) :
      startsWith (c :: cs) (ts ++ .punct '>' joint' :: us) = false := by
    cases args with
    | nil =>
      rw [GenericArg.spellingList, Token.joined, Language.mem_one] at hts
      subst hts
      rcases hc with rfl | rfl <;> cases cs <;> simp [startsWith]
    | cons a r =>
      rw [GenericArg.SoundList] at h
      rw [GenericArg.StructuralList] at hs
      rw [GenericArg.spellingList, joined_cons] at hts
      obtain ⟨vs, hvs, xs, -, rfl⟩ := Language.mem_mul.1 hts
      obtain ⟨t, r', rfl, ⟨l, rfl⟩ | ht⟩ := GenericArg.starts h.1 hs.1 hvs
      · cases cs <;> rfl
      · have hnot : c ∉ [':', '&', '*', '!'] := by rcases hc with rfl | rfl <;> decide
        exact ht.startsWith hnot cs (r' ++ xs ++ .punct '>' joint' :: us)
  constructor
  · change ('<' == '<' && joint && startsWith ['='] (ts ++ .punct '>' joint' :: us)) = false
    rw [hnext (.inl rfl), Bool.and_false]
  · change ('<' == '<' && joint && startsWith ['<', '='] (ts ++ .punct '>' joint' :: us)) = false
    rw [hnext (.inr rfl), Bool.and_false]

/-- The tokens of arguments in angle brackets. -/
theorem mem_spelling_angle {turbofish trailing : Bool} {args : List GenericArg} {ts : List Token} :
    ts ∈ (Args.angle turbofish args trailing).spelling ↔
      ∃ us ∈ (if turbofish then operators ':' ':' else 1 : Language Token), ∃ joint,
        ∃ vs ∈ Token.joined (marks ',') (GenericArg.spellingList args), ∃ joint',
          ts = us ++ .punct '<' joint :: (vs ++ [.punct '>' joint']) := by
  rw [Args.spelling]
  constructor
  · intro h
    obtain ⟨_, hargs, _, ⟨joint', rfl⟩, rfl⟩ := Language.mem_mul.1 h
    obtain ⟨_, hopening, vs, hvs, rfl⟩ := Language.mem_mul.1 hargs
    obtain ⟨us, hus, _, ⟨joint, rfl⟩, rfl⟩ := Language.mem_mul.1 hopening
    exact ⟨us, hus, joint, vs, hvs, joint', by simp⟩
  · rintro ⟨us, hus, joint, vs, hvs, joint', rfl⟩
    have hopening := Language.append_mem_mul hus
      (show [.punct '<' joint] ∈ marks '<' from ⟨joint, rfl⟩)
    have hargs := Language.append_mem_mul hopening hvs
    have hclosing := Language.append_mem_mul hargs
      (show [.punct '>' joint'] ∈ marks '>' from ⟨joint', rfl⟩)
    simpa using hclosing

/-- The arguments of a segment behind its name. -/
theorem takes_arguments {w : String} {args : Args} (h : args.Sound false (isGenericWord w))
    (hs : args.Structural) (hargs : args.Reads) {ts : List Token} (hts : ts ∈ args.spelling)
    {n : Nat} (hn : 2 * sizeList ts + 2 ≤ n) {us : List Token} (hus : EndsSegment us) :
    Takes (do
      let ts ← rest
      if isOp "::" ts && isOp "<" (ts.drop 2) then return .mk w (← angleArgs (rules n) true)
      else if !false && isOp "<" ts && !isOp "<=" ts && !isOp "<<=" ts then
        return .mk w (← angleArgs (rules n) false)
      else return .mk w .none) (ts ++ us) us fun s : Segment => s.plain = .mk w args.plain := by
  have hsegment (args' : Args) (h : args'.plain = args.plain) :
      (Segment.mk w args').plain = .mk w args.plain := by
    rw [Segment.plain, h]
  refine .look ?_
  cases args with
  | none =>
    rw [Args.spelling, Language.mem_one] at hts
    subst hts
    obtain ⟨hangle, hcolons⟩ := hus
    refine .ite_neg hcolons <| .ite_neg ?_ <| .pure (hsegment .none rfl)
    rw [List.nil_append, hangle]
    rfl
  | angle turbofish args trailing =>
    have htakes := hargs ts hts n hn us
    obtain ⟨vs, hvs, joint, xs, hxs, joint', rfl⟩ := mem_spelling_angle.1 hts
    cases turbofish with
    | true =>
      obtain ⟨joint'', rfl⟩ := hvs
      refine .ite_pos rfl <| htakes.bind fun a ha => .pure (hsegment a ha)
    | false =>
      -- the bracket could be the start of `<=` or `<<=`, but for what stands behind it
      rw [Args.Sound] at h
      rw [Args.Structural] at hs
      obtain rfl : vs = [] := hvs
      obtain ⟨hle, hshift⟩ := isOp_args h.2 hs hxs joint joint' us
      have hshape : [] ++ .punct '<' joint :: (xs ++ [.punct '>' joint']) ++ us =
          .punct '<' joint :: (xs ++ .punct '>' joint' :: us) := by
        simp
      rw [hshape] at htakes ⊢
      refine .ite_neg rfl <| .ite_pos ?_ <| htakes.bind fun a ha => .pure (hsegment a ha)
      rw [hle, hshift]
      rfl
  | paren inputs trailing output => cases (Args.sound_paren.1 h).1

/-- Behind a word without brackets there are no arguments. -/
theorem Args.Sound.eq_none {args : Args} {brackets : Bool} (h : args.Sound false brackets)
    (hbrackets : brackets = false) : args = .none := by
  cases args with
  | none => rfl
  | angle turbofish args trailing =>
    rw [Args.Sound] at h
    rw [h.1] at hbrackets
    cases hbrackets
  | paren inputs trailing output => cases (Args.sound_paren.1 h).1

/-- A segment is read back from its tokens, but for what stands behind its last argument. -/
theorem takes_segment {s : Segment} (h : s.Sound false) (hs : s.Structural) (hargs : s.args.Reads)
    {ts : List Token} (hts : ts ∈ s.spelling) {n : Nat} (hn : 2 * sizeList ts + 2 ≤ n)
    {us : List Token} (hus : EndsSegment us) :
    Takes (segment (rules n) false) (ts ++ us) us fun s' => s'.plain = s.plain := by
  obtain ⟨w, args⟩ := s
  rw [Segment.Sound] at h
  obtain ⟨-, hword, hsound⟩ := h
  rw [Segment.Structural] at hs
  rw [Segment.spelling] at hts
  obtain ⟨_, ⟨line, rfl⟩, vs, hvs, rfl⟩ := Language.mem_mul.1 hts
  rw [List.singleton_append, sizeList] at hn
  have harguments := takes_arguments hsound hs hargs hvs (n := n) (by omega) hus
  rw [List.singleton_append, List.cons_append, Segment.plain]
  refine .printed <| .look ?_
  cases hmodule : ["super", "self", "crate", "try"].contains w with
  | true =>
    refine .ite_pos hmodule ?_
    -- a word that leads to a module has no arguments
    have hwords : ["super", "self", "crate", "try"].all (fun w => !isGenericWord w) = true := by
      decide
    have hgeneric := List.all_eq_true.1 hwords w (List.contains_iff_mem.1 hmodule)
    have hnone := hsound.eq_none (by simpa using hgeneric)
    subst hnone
    rw [Args.spelling, Language.mem_one] at hvs
    subst hvs
    refine takes_anyWord.bind ?_
    rintro _ rfl
    exact .pure rfl
  | false =>
    refine .ite_neg hmodule <| .look ?_
    rw [isSegmentWord, hmodule, Bool.or_false, Bool.or_eq_true] at hword
    cases hself : w == "Self" with
    | true =>
      refine .ite_pos hself <| takes_anyWord.bind ?_
      rintro _ rfl
      exact harguments
    | false =>
      have hname : isNameText w = true := by simpa [hself] using hword
      refine .ite_neg hself <| (takes_name hname).bind ?_
      rintro _ rfl
      exact harguments

/-! ### Paths -/

/-- Whether tokens do not go on with a part of a path. -/
def EndsPath (ts : List Token) : Prop := isOp "<" ts = false ∧ isOp "::" ts = false

/-- No path goes on where a type ends. -/
theorem EndsType.endsPath {plus : Bool} {ts : List Token} (h : EndsType plus ts) : EndsPath ts := by
  constructor
  · exact h.isOp (o := "<") rfl (by cases plus <;> decide)
  · exact h.isOp (o := "::") rfl (by cases plus <;> decide)

/-- No arguments follow where a path ends. -/
theorem EndsPath.endsSegment {ts : List Token} (h : EndsPath ts) : EndsSegment ts := by
  refine ⟨h.1, ?_⟩
  rw [h.2]
  rfl

/-- The tokens of segments that stand behind a first one. -/
def Segment.spellingBehind (ss : List Segment) : Language Token :=
  (ss.map fun s => operators ':' ':' * s.spelling).prod

/-- The first segment has no colons in front of it, and all others have. -/
theorem Segment.joined_spellingList (s : Segment) (ss : List Segment) :
    Token.joined (operators ':' ':') (Segment.spellingList (s :: ss)) =
      s.spelling * Segment.spellingBehind ss := by
  rw [Segment.spellingList, joined_cons, Segment.spellingList_eq_map, List.map_map]
  rfl

/-- The tokens of further segments, one by one. -/
theorem Segment.mem_spellingBehind_cons {s : Segment} {ss : List Segment} {ts : List Token} :
    ts ∈ Segment.spellingBehind (s :: ss) ↔ ∃ joint, ∃ us ∈ s.spelling,
      ∃ vs ∈ Segment.spellingBehind ss, ts = .punct ':' true :: .punct ':' joint :: (us ++ vs) := by
  rw [Segment.spellingBehind, List.map_cons, List.prod_cons, mul_assoc]
  constructor
  · intro h
    obtain ⟨_, ⟨joint, rfl⟩, xs, hxs, rfl⟩ := Language.mem_mul.1 h
    obtain ⟨us, hus, vs, hvs, rfl⟩ := Language.mem_mul.1 hxs
    exact ⟨joint, us, hus, vs, hvs, rfl⟩
  · rintro ⟨joint, us, hus, vs, hvs, rfl⟩
    exact Language.append_mem_mul (show _ ∈ operators ':' ':' from ⟨joint, rfl⟩)
      (Language.append_mem_mul hus hvs)

theorem Segment.starts {s : Segment} {ts : List Token} (hts : ts ∈ s.spelling) :
    ∃ line r, ts = .ident s.ident line :: r := by
  obtain ⟨w, args⟩ := s
  rw [Segment.spelling] at hts
  obtain ⟨_, ⟨line, rfl⟩, r, -, rfl⟩ := Language.mem_mul.1 hts
  exact ⟨line, r, rfl⟩

/-- What stands behind a segment does not go on with arguments of it. -/
theorem endsSegment_behind {ss : List Segment} {ts us : List Token}
    (hts : ts ∈ Segment.spellingBehind ss) (hus : EndsPath us) : EndsSegment (ts ++ us) := by
  cases ss with
  | nil =>
    obtain rfl : ts = [] := hts
    exact hus.endsSegment
  | cons s ss =>
    obtain ⟨joint, vs, hvs, xs, -, rfl⟩ := Segment.mem_spellingBehind_cons.1 hts
    obtain ⟨line, r, rfl⟩ := Segment.starts hvs
    exact ⟨rfl, rfl⟩

/-- There are no more segments than tokens, so as many turns as there are tokens are enough. -/
theorem Segment.length_le_of_mem_spellingBehind {ss : List Segment} {ts : List Token}
    (hts : ts ∈ Segment.spellingBehind ss) : ss.length ≤ ts.length := by
  induction ss generalizing ts with
  | nil => exact Nat.zero_le _
  | cons s ss ih =>
    obtain ⟨joint, vs, -, xs, hxs, rfl⟩ := Segment.mem_spellingBehind_cons.1 hts
    have hle := ih hxs
    simp only [List.length_cons, List.length_append]
    omega

/-- What is read as a segment: the tokens of one, in front of what is no argument of it. -/
def ReadsSegment (g : Rules) (inExpr : Bool) (size : Nat) (s : Segment) (P : Segment → Prop) :
    Prop :=
  ∀ ts ∈ s.spelling, sizeList ts ≤ size → ∀ us, EndsSegment us →
    Takes (segment g inExpr) (ts ++ us) us P

section Segments

variable {g : Rules} {inExpr : Bool} {size : Nat} {R : Segment → Segment → Prop}
  {ss : List Segment} {ts us : List Token}

/-- The segments behind the first one are read one by one. -/
theorem Grammar.Takes.furtherSegments (hsegments : ∀ s ∈ ss, ReadsSegment g inExpr size s (R s))
    (hts : ts ∈ Segment.spellingBehind ss) (hsize : sizeList ts ≤ size) (hus : EndsPath us) :
    Takes (furtherSegments g inExpr) (ts ++ us) us (List.Forall₂ R ss) := by
  have hcount : ss.length < (ts ++ us).length + 1 := by
    have hle := Segment.length_le_of_mem_spellingBehind hts
    rw [List.length_append]
    omega
  rw [Grammar.furtherSegments, many]
  refine .look ?_
  generalize (ts ++ us).length + 1 = m at hcount
  -- one turn for each segment, and one that finds no more
  induction ss generalizing ts m with
  | nil =>
    obtain rfl : ts = [] := hts
    obtain ⟨m, rfl⟩ : ∃ k, m = k + 1 := ⟨m - 1, by omega⟩
    have hnone : (isOp "::" us && !isGroup .paren (us.drop 2)) = false := by
      rw [hus.2]
      rfl
    rw [List.nil_append]
    refine (Takes.repeated_nil ?_).mono ?_
    · exact .look <| .ite_neg hnone <| .pure rfl
    · rintro _ rfl
      exact .nil
  | cons s ss ih =>
    obtain ⟨m, rfl⟩ : ∃ k, m = k + 1 := ⟨m - 1, by omega⟩
    obtain ⟨hfirst, hmore⟩ := List.forall_mem_cons.1 hsegments
    obtain ⟨joint, vs, hvs, xs, hxs, rfl⟩ := Segment.mem_spellingBehind_cons.1 hts
    rw [sizeList, sizeList, sizeList_append] at hsize
    have hsegment := hfirst vs hvs (by omega) _ (endsSegment_behind hxs hus)
    have hmany := ih hmore hxs (by omega) m (by simpa using hcount)
    rw [List.cons_append, List.cons_append, List.append_assoc]
    have hpresent : (isOp "::" (.punct ':' true :: .punct ':' joint :: (vs ++ (xs ++ us))) &&
        !isGroup .paren ((.punct ':' true :: .punct ':' joint :: (vs ++ (xs ++ us))).drop 2)) =
        true := by
      obtain ⟨line, r, rfl⟩ := Segment.starts hvs
      rfl
    refine (Takes.repeated_cons (.look <| .ite_pos hpresent <| .op rfl <|
      hsegment.map fun s' hs' => ⟨s', rfl, hs'⟩) hmany).mono ?_
    rintro _ ⟨s', ss', rfl, hs', hss'⟩
    exact .cons hs' hss'

/-- A path is read as its segments are. -/
theorem Grammar.Takes.path {leading : Bool} (hne : ss ≠ [])
    (hsegments : ∀ s ∈ ss, ReadsSegment g inExpr size s (R s))
    (hts : ts ∈ (Path.mk leading ss).spelling) (hsize : sizeList ts ≤ size) (hus : EndsPath us) :
    Takes (path g inExpr) (ts ++ us) us
      fun p => p.isLeading = leading ∧ List.Forall₂ R ss p.segments := by
  obtain ⟨s, ss, rfl⟩ := List.exists_cons_of_ne_nil hne
  obtain ⟨hfirst, hmore⟩ := List.forall_mem_cons.1 hsegments
  rw [Path.spelling, Segment.joined_spellingList] at hts
  obtain ⟨vs, hvs, _, hspelled, rfl⟩ := Language.mem_mul.1 hts
  obtain ⟨xs, hxs, ys, hys, rfl⟩ := Language.mem_mul.1 hspelled
  rw [sizeList_append, sizeList_append] at hsize
  have hsegment := hfirst xs hxs (by omega) _ (endsSegment_behind hys hus)
  have hfurther := Takes.furtherSegments hmore hys (by omega) hus
  -- Behind a leading `::` or none, the rest is read the same way.
  have hboth : Takes (do
      let first ← segment g inExpr
      return .mk leading (first :: (← Grammar.furtherSegments g inExpr))) (xs ++ (ys ++ us)) us
      fun p : Path => p.isLeading = leading ∧ List.Forall₂ R (s :: ss) p.segments :=
    hsegment.bind fun s' hs' => hfurther.bind fun ss' hss' => .pure ⟨rfl, .cons hs' hss'⟩
  rw [List.append_assoc, List.append_assoc, Grammar.path]
  cases leading with
  | true =>
    obtain ⟨joint, rfl⟩ := hvs
    exact .op?_pos rfl hboth
  | false =>
    obtain rfl : vs = [] := hvs
    -- The first segment is a word, so no `::` is seen where none is written.
    refine .op?_neg ?_ hboth
    obtain ⟨line, r, rfl⟩ := Segment.starts hxs
    rfl

end Segments

/-- A path is read back from its tokens, but for what stands behind the last arguments in it. -/
theorem takes_path {p : Path} (h : p.Sound false) (hs : p.Structural)
    (hargs : ∀ s ∈ p.segments, s.args.Reads) {ts : List Token} (hts : ts ∈ p.spelling) {n : Nat}
    (hn : 2 * sizeList ts + 2 ≤ n) {us : List Token} (hus : EndsPath us) :
    Takes (path (rules n) false) (ts ++ us) us fun p' => p'.plain = p.plain := by
  obtain ⟨leading, segments⟩ := p
  rw [Path.Sound, Segment.soundList_iff] at h
  rw [Path.Structural, Segment.structuralList_iff] at hs
  have hsegments : ∀ s ∈ segments, ReadsSegment (rules n) false (sizeList ts) s
      fun s' => s'.plain = s.plain := by
    intro s hmem ts' hts' hsize us' hus'
    exact takes_segment (h.2 s hmem) (hs s hmem) (hargs s hmem) hts' (by omega) hus'
  refine (Takes.path h.1 hsegments hts le_rfl hus).mono ?_
  rintro ⟨leading', segments'⟩ ⟨hleading, hforall⟩
  have hplain : segments'.map Segment.plain = segments.map Segment.plain :=
    map_eq_map_of_forall₂ hforall
  obtain rfl : leading' = leading := hleading
  rw [Path.plain, Path.plain, Segment.plainList_eq_map, Segment.plainList_eq_map, hplain]

end FieldBinder
