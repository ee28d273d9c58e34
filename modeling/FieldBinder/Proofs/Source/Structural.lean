import FieldBinder.Proofs.Grammar.Sound
import FieldBinder.Proofs.Source.Scanning

/-!
# Structural types

The types whose written form shows all of them (`Ty.Structural`): they are made of paths,
references, pointers, slices, arrays of a simple length, tuples, parentheses, and sums of plain
bounds.  Their written form is cut into the tokens that it is meant to have (`Ty.isPhrase_render`).
Two such types are the same type if they agree but for the commas and plus signs behind the last
part (`Ty.plain`).
-/

namespace FieldBinder

open Grammar (isNameText)
open Token hiding ident lifetime literal punct group word

/-! ### Structural types -/

/-- Whether the length of an array is a literal or a name. -/
def IsLength : List Token → Prop
  | [.literal _] => True
  | [.ident w _] => isTypeWord w = true ∨ w = "true" ∨ w = "false"
  | _ => False

mutual

/-- Whether the written form of a type shows all of the type. -/
def Ty.Structural : Ty → Prop
  | .path p => p.Structural
  | .reference _ _ elem | .pointer _ elem | .slice elem | .paren elem => elem.Structural
  | .array elem len => elem.Structural ∧ IsLength len
  | .tuple elems _ => Ty.StructuralList elems
  | .traitObject isDyn bounds _ => isDyn = true ∧ Bound.StructuralList bounds
  | .implTrait bounds _ => Bound.StructuralList bounds
  | .never | .infer => True
  | .group _ | .other _ => False

/-- Whether all types are structural. -/
def Ty.StructuralList : List Ty → Prop
  | [] => True
  | t :: r => t.Structural ∧ Ty.StructuralList r

/-- Whether a bound is a lifetime, or a path with nothing in front of it. -/
def Bound.Structural : Bound → Prop
  | .trait parens isMaybe binder path =>
    parens = false ∧ isMaybe = false ∧ binder = none ∧ path.Structural
  | .lifetime _ => True
  | .other _ => False

/-- Whether all bounds are structural. -/
def Bound.StructuralList : List Bound → Prop
  | [] => True
  | b :: r => b.Structural ∧ Bound.StructuralList r

/-- Whether all arguments in a path are structural. -/
def Path.Structural : Path → Prop
  | .mk _ segments => Segment.StructuralList segments

/-- Whether all arguments in segments are structural. -/
def Segment.StructuralList : List Segment → Prop
  | [] => True
  | s :: r => s.Structural ∧ Segment.StructuralList r

/-- Whether the arguments of a segment are structural. -/
def Segment.Structural : Segment → Prop
  | .mk _ args => args.Structural

/-- Whether arguments are structural. -/
def Args.Structural : Args → Prop
  | .none => True
  | .angle _ args _ => GenericArg.StructuralList args
  | .paren inputs _ output =>
    Ty.StructuralList inputs ∧
      match output with
      | .none => True
      | .some t => t.Structural

/-- Whether all generic arguments are structural. -/
def GenericArg.StructuralList : List GenericArg → Prop
  | [] => True
  | a :: r => a.Structural ∧ GenericArg.StructuralList r

/-- Whether a generic argument is a lifetime, a type, or a type for a name. -/
def GenericArg.Structural : GenericArg → Prop
  | .lifetime _ => True
  | .type t => t.Structural
  | .assocType _ args t => args.isNone = true ∧ t.Structural
  | .other _ => False

end

/-! ### Whether a type is structural can be computed -/

instance : DecidablePred IsLength
  | [] | [.lifetime _] | [.punct _ _] | [.group _ _] => isFalse id
  | _ :: _ :: _ => isFalse (by simp [IsLength])
  | [.literal _] => isTrue trivial
  | [.ident w _] => inferInstanceAs (Decidable (isTypeWord w = true ∨ w = "true" ∨ w = "false"))

mutual

def Ty.decideStructural : (t : Ty) → Decidable t.Structural
  | .path p => p.decideStructural
  | .reference _ _ elem | .pointer _ elem | .slice elem | .paren elem => elem.decideStructural
  | .array elem len =>
    @instDecidableAnd _ _ elem.decideStructural (inferInstanceAs (Decidable (IsLength len)))
  | .tuple elems _ => Ty.decideStructuralList elems
  | .traitObject isDyn bounds _ =>
    @instDecidableAnd _ _ (inferInstanceAs (Decidable (isDyn = true)))
      (Bound.decideStructuralList bounds)
  | .implTrait bounds _ => Bound.decideStructuralList bounds
  | .never | .infer => isTrue trivial
  | .group _ | .other _ => isFalse id

def Ty.decideStructuralList : (ts : List Ty) → Decidable (Ty.StructuralList ts)
  | [] => isTrue trivial
  | t :: r => @instDecidableAnd _ _ t.decideStructural (Ty.decideStructuralList r)

def Bound.decideStructural : (b : Bound) → Decidable b.Structural
  | .trait parens isMaybe binder path =>
    @instDecidableAnd _ _ (inferInstanceAs (Decidable (parens = false))) <|
      @instDecidableAnd _ _ (inferInstanceAs (Decidable (isMaybe = false))) <|
        @instDecidableAnd _ _ (decidable_of_iff (binder.isNone = true) Option.isNone_iff_eq_none)
          path.decideStructural
  | .lifetime _ => isTrue trivial
  | .other _ => isFalse id

def Bound.decideStructuralList : (bs : List Bound) → Decidable (Bound.StructuralList bs)
  | [] => isTrue trivial
  | b :: r => @instDecidableAnd _ _ b.decideStructural (Bound.decideStructuralList r)

def Path.decideStructural : (p : Path) → Decidable p.Structural
  | .mk _ segments => Segment.decideStructuralList segments

def Segment.decideStructuralList : (ss : List Segment) → Decidable (Segment.StructuralList ss)
  | [] => isTrue trivial
  | s :: r => @instDecidableAnd _ _ s.decideStructural (Segment.decideStructuralList r)

def Segment.decideStructural : (s : Segment) → Decidable s.Structural
  | .mk _ args => args.decideStructural

def Args.decideStructural : (a : Args) → Decidable a.Structural
  | .none => isTrue trivial
  | .angle _ args _ => GenericArg.decideStructuralList args
  | .paren inputs _ .none =>
    @instDecidableAnd _ _ (Ty.decideStructuralList inputs) (isTrue trivial)
  | .paren inputs _ (.some t) =>
    @instDecidableAnd _ _ (Ty.decideStructuralList inputs) t.decideStructural

def GenericArg.decideStructuralList :
    (as : List GenericArg) → Decidable (GenericArg.StructuralList as)
  | [] => isTrue trivial
  | a :: r => @instDecidableAnd _ _ a.decideStructural (GenericArg.decideStructuralList r)

def GenericArg.decideStructural : (a : GenericArg) → Decidable a.Structural
  | .lifetime _ => isTrue trivial
  | .type t => t.decideStructural
  | .assocType _ args t =>
    @instDecidableAnd _ _ (inferInstanceAs (Decidable (args.isNone = true))) t.decideStructural
  | .other _ => isFalse id

end

instance : DecidablePred Ty.Structural := Ty.decideStructural

/-! ### The same type -/

/-- A token without its place in the source. -/
def Token.unplaced : Token → Token
  | .ident name _ => .word name
  | t => t

mutual

/-- A type without the commas and plus signs behind its last parts. -/
def Ty.plain : Ty → Ty
  | .path p => .path p.plain
  | .reference l isMut elem => .reference l isMut elem.plain
  | .pointer isMut elem => .pointer isMut elem.plain
  | .slice elem => .slice elem.plain
  | .array elem len => .array elem.plain (len.map Token.unplaced)
  | .tuple elems _ => .tuple (Ty.plainList elems) false
  | .traitObject isDyn bounds _ => .traitObject isDyn (Bound.plainList bounds) false
  | .implTrait bounds _ => .implTrait (Bound.plainList bounds) false
  | .group elem => .group elem.plain
  | .paren elem => .paren elem.plain
  | .never => .never
  | .infer => .infer
  | .other tokens => .other tokens

/-- Types without what stands behind their last parts. -/
def Ty.plainList : List Ty → List Ty
  | [] => []
  | t :: r => t.plain :: Ty.plainList r

/-- A bound without what stands behind the last parts in it. -/
def Bound.plain : Bound → Bound
  | .trait parens isMaybe binder path => .trait parens isMaybe binder path.plain
  | .lifetime name => .lifetime name
  | .other tokens => .other tokens

/-- Bounds without what stands behind the last parts in them. -/
def Bound.plainList : List Bound → List Bound
  | [] => []
  | b :: r => b.plain :: Bound.plainList r

/-- A path without what stands behind the last parts in it. -/
def Path.plain : Path → Path
  | .mk leading segments => .mk leading (Segment.plainList segments)

/-- Segments without what stands behind the last parts in them. -/
def Segment.plainList : List Segment → List Segment
  | [] => []
  | s :: r => s.plain :: Segment.plainList r

/-- A segment without what stands behind the last parts in it. -/
def Segment.plain : Segment → Segment
  | .mk ident args => .mk ident args.plain

/-- Arguments without what stands behind their last parts. -/
def Args.plain : Args → Args
  | .none => .none
  | .angle turbofish args _ => .angle turbofish (GenericArg.plainList args) false
  | .paren inputs _ output =>
    .paren (Ty.plainList inputs) false
      (match output with
        | .none => .none
        | .some t => .some t.plain)

/-- Generic arguments without what stands behind the last parts in them. -/
def GenericArg.plainList : List GenericArg → List GenericArg
  | [] => []
  | a :: r => a.plain :: GenericArg.plainList r

/-- A generic argument without what stands behind the last parts in it. -/
def GenericArg.plain : GenericArg → GenericArg
  | .lifetime name => .lifetime name
  | .type t => .type t.plain
  | .assocType name args t => .assocType name args.plain t.plain
  | .other tokens => .other tokens

end

/-! ### The tokens of written forms -/

/-- The tokens of the length of an array. -/
def lengthSpelling : List Token → Language Token
  | [.literal text] => single (.literal text)
  | [.ident w _] => words w
  | _ => 0

mutual

/-- The tokens of the written form of a type; of one that is not structural there are none. -/
def Ty.spelling : Ty → Language Token
  | .path p => p.spelling
  | .reference l isMut elem =>
    marks '&' * (match l with | .none => 1 | .some l => single (.lifetime l)) *
      (if isMut then words "mut" else 1) * elem.spelling
  | .pointer isMut elem => marks '*' * words (if isMut then "mut" else "const") * elem.spelling
  | .slice elem => groups .bracket elem.spelling
  | .array elem len => groups .bracket (elem.spelling * marks ';' * lengthSpelling len)
  | .tuple elems _ =>
    groups .paren (joined (marks ',') (Ty.spellingList elems) *
      if elems.length = 1 then marks ',' else 1)
  | .traitObject isDyn bounds _ =>
    (if isDyn then words "dyn" else 1) * joined (marks '+') (Bound.spellingList bounds)
  | .implTrait bounds _ => words "impl" * joined (marks '+') (Bound.spellingList bounds)
  | .paren elem => groups .paren elem.spelling
  | .never => marks '!'
  | .infer => words "_"
  | .group _ | .other _ => 0

/-- The tokens of the written forms of types. -/
def Ty.spellingList : List Ty → List (Language Token)
  | [] => []
  | t :: r => t.spelling :: Ty.spellingList r

/-- The tokens of the written form of a bound. -/
def Bound.spelling : Bound → Language Token
  | .trait _ _ _ path => path.spelling
  | .lifetime name => single (.lifetime name)
  | .other _ => 0

/-- The tokens of the written forms of bounds. -/
def Bound.spellingList : List Bound → List (Language Token)
  | [] => []
  | b :: r => b.spelling :: Bound.spellingList r

/-- The tokens of the written form of a path. -/
def Path.spelling : Path → Language Token
  | .mk leading segments =>
    (if leading then operators ':' ':' else 1) *
      joined (operators ':' ':') (Segment.spellingList segments)

/-- The tokens of the written forms of segments. -/
def Segment.spellingList : List Segment → List (Language Token)
  | [] => []
  | s :: r => s.spelling :: Segment.spellingList r

/-- The tokens of the written form of a segment. -/
def Segment.spelling : Segment → Language Token
  | .mk ident args => words ident * args.spelling

/-- The tokens of the written form of arguments. -/
def Args.spelling : Args → Language Token
  | .none => 1
  | .angle turbofish args _ =>
    (if turbofish then operators ':' ':' else 1) * marks '<' *
      joined (marks ',') (GenericArg.spellingList args) * marks '>'
  | .paren inputs _ output =>
    groups .paren (joined (marks ',') (Ty.spellingList inputs)) *
      match output with
      | .none => 1
      | .some t => operators '-' '>' * t.spelling

/-- The tokens of the written forms of generic arguments. -/
def GenericArg.spellingList : List GenericArg → List (Language Token)
  | [] => []
  | a :: r => a.spelling :: GenericArg.spellingList r

/-- The tokens of the written form of a generic argument. -/
def GenericArg.spelling : GenericArg → Language Token
  | .lifetime name => single (.lifetime name)
  | .type t => t.spelling
  | .assocType name _ t => words name * marks '=' * t.spelling
  | .other _ => 0

end

/-! ### Lists -/

/-- Types are structural one by one. -/
theorem Ty.structuralList_iff {ts : List Ty} :
    Ty.StructuralList ts ↔ ∀ t ∈ ts, t.Structural := by
  induction ts with
  | nil => simp [Ty.StructuralList]
  | cons t ts ih => simp [Ty.StructuralList, ih]

theorem Bound.structuralList_iff {bs : List Bound} :
    Bound.StructuralList bs ↔ ∀ b ∈ bs, b.Structural := by
  induction bs with
  | nil => simp [Bound.StructuralList]
  | cons b bs ih => simp [Bound.StructuralList, ih]

/-- Segments are structural one by one. -/
theorem Segment.structuralList_iff {ss : List Segment} :
    Segment.StructuralList ss ↔ ∀ s ∈ ss, s.Structural := by
  induction ss with
  | nil => simp [Segment.StructuralList]
  | cons s ss ih => simp [Segment.StructuralList, ih]

theorem GenericArg.structuralList_iff {as : List GenericArg} :
    GenericArg.StructuralList as ↔ ∀ a ∈ as, a.Structural := by
  induction as with
  | nil => simp [GenericArg.StructuralList]
  | cons a as ih => simp [GenericArg.StructuralList, ih]

/-- What stands behind last parts is taken off each type. -/
theorem Ty.plainList_eq_map (ts : List Ty) : Ty.plainList ts = ts.map Ty.plain := by
  induction ts with
  | nil => rw [Ty.plainList, List.map_nil]
  | cons t ts ih => rw [Ty.plainList, List.map_cons, ih]

theorem Ty.spellingList_eq_map (ts : List Ty) :
    Ty.spellingList ts = ts.map Ty.spelling := by
  induction ts with
  | nil => rw [Ty.spellingList, List.map_nil]
  | cons t ts ih => rw [Ty.spellingList, List.map_cons, ih]

theorem Bound.plainList_eq_map (bs : List Bound) : Bound.plainList bs = bs.map Bound.plain := by
  induction bs with
  | nil => rw [Bound.plainList, List.map_nil]
  | cons b bs ih => rw [Bound.plainList, List.map_cons, ih]

theorem Bound.spellingList_eq_map (bs : List Bound) :
    Bound.spellingList bs = bs.map Bound.spelling := by
  induction bs with
  | nil => rw [Bound.spellingList, List.map_nil]
  | cons b bs ih => rw [Bound.spellingList, List.map_cons, ih]

theorem Segment.plainList_eq_map (ss : List Segment) :
    Segment.plainList ss = ss.map Segment.plain := by
  induction ss with
  | nil => rw [Segment.plainList, List.map_nil]
  | cons s ss ih => rw [Segment.plainList, List.map_cons, ih]

theorem Segment.spellingList_eq_map (ss : List Segment) :
    Segment.spellingList ss = ss.map Segment.spelling := by
  induction ss with
  | nil => rw [Segment.spellingList, List.map_nil]
  | cons s ss ih => rw [Segment.spellingList, List.map_cons, ih]

theorem GenericArg.plainList_eq_map (as : List GenericArg) :
    GenericArg.plainList as = as.map GenericArg.plain := by
  induction as with
  | nil => rw [GenericArg.plainList, List.map_nil]
  | cons a as ih => rw [GenericArg.plainList, List.map_cons, ih]

theorem GenericArg.spellingList_eq_map (as : List GenericArg) :
    GenericArg.spellingList as = as.map GenericArg.spelling := by
  induction as with
  | nil => rw [GenericArg.spellingList, List.map_nil]
  | cons a as ih => rw [GenericArg.spellingList, List.map_cons, ih]

/-! ### Written forms as phrases -/

open Lexeme

/-- The colons in a path are written without white space around them. -/
theorem isSeparator_colons : IsSeparator "::" (operators ':' ':') :=
  ⟨(lexes_operators rfl (by decide) (by decide)).mono fun _ _ => trivial,
    stops_append (s := "::") rfl (by decide)⟩

/-- A comma is written with white space behind it. -/
theorem isSeparator_comma : IsSeparator ", " (marks ',') :=
  isSeparator_blank (s := ",") (lexes_marks rfl (by decide)) rfl (by decide)

theorem isSeparator_semicolon : IsSeparator "; " (marks ';') :=
  isSeparator_blank (s := ";") (lexes_marks rfl (by decide)) rfl (by decide)

/-- A plus sign is written with white space around it. -/
theorem isSeparator_plus : IsSeparator " + " (marks '+') :=
  isSeparator_blanks (s := "+") (lexes_marks rfl (by decide)) rfl (by decide)

theorem isSeparator_equals : IsSeparator " = " (marks '=') :=
  isSeparator_blanks (s := "=") (lexes_marks rfl (by decide)) rfl (by decide)

theorem isSeparator_arrow : IsSeparator " -> " (operators '-' '>') :=
  isSeparator_blanks (s := "->") (lexes_operators rfl (by decide) (by decide)) rfl (by decide)

/-- The comma of a tuple with one element. -/
theorem isTail_comma (b : Bool) : IsTail (if b then "," else "") (if b then marks ',' else 1) := by
  cases b
  · exact isTail_empty
  · exact ⟨(lexes_marks rfl (by decide)).mono fun _ _ => trivial,
      fun x _ => stops_append (s := ",") rfl (by decide) x⟩

/-- The length of an array in front of its bracket. -/
theorem lexes_length {len : List Token} (h : LexicalList len) (hlen : IsLength len) :
    Lexes (Token.textList len) (lengthSpelling len) (fun x => x.head? = some ']') ∧
      ∀ x, Starts ((Token.textList len).toList ++ x) := by
  match len, h, hlen with
  | [.literal text], h, _ =>
    rw [textList, Token.text, lengthSpelling]
    exact ⟨lexes_literal (lexical_literal.1 h.1), starts_literal (lexical_literal.1 h.1)⟩
  | [.ident w line], h, _ =>
    have hphrase := isPhrase_word (lexical_ident.1 h.1)
    rw [textList, Token.text, lengthSpelling]
    refine ⟨hphrase.lexes.mono fun x hx => ?_, hphrase.starts⟩
    intro c hc
    rw [Option.some.inj (hc.symm.trans hx)]
    decide

/-- Arguments in angle brackets behind a name. -/
theorem isTail_angle (turbofish : Bool) {ss : List String} {Ls : List (Language Token)}
    (h : List.Forall₂ IsPhrase ss Ls) :
    IsTail ((if turbofish then "::" else "") ++ "<" ++ joinTexts ", " ss ++ ">")
      ((if turbofish then operators ':' ':' else 1) * marks '<' * joined (marks ',') Ls *
        marks '>') := by
  have hcolons : Lexes (if turbofish then "::" else "")
      (if turbofish then operators ':' ':' else 1) fun _ => True := by
    cases turbofish
    · exact lexes_empty
    · exact lexes_operators rfl (by decide) (by decide)
  have hopening : Lexes "<" (marks '<') fun _ => True := lexes_marks rfl (by decide)
  have hclosing : Lexes ">" (marks '>') fun _ => True := lexes_marks rfl (by decide)
  have hargs := (hcolons.append hopening fun _ _ => trivial).append
    (lexes_joinTexts isSeparator_comma h) fun _ _ => trivial
  refine ⟨(hargs.append hclosing fun x _ => stops_append (s := ">") rfl (by decide) x).mono
    fun _ _ => trivial, fun x _ => ?_⟩
  rw [String.append_assoc, String.append_assoc]
  cases turbofish
  · exact stops_append (c := '<') (by simp; rfl) (by decide) x
  · exact stops_append (c := ':') (by simp; rfl) (by decide) x

/-- Arguments in parentheses behind a name, with the type of a result or without. -/
theorem isTail_paren {ss : List String} {Ls : List (Language Token)}
    (h : List.Forall₂ IsPhrase ss Ls) {s : String} {L : Language Token} (hs : IsTail s L) :
    IsTail ("(" ++ joinTexts ", " ss ++ ")" ++ s) (groups .paren (joined (marks ',') Ls) * L) := by
  have hinputs := isPhrase_paren rfl (lexes_joinTexts isSeparator_comma h) fun _ hx =>
    head?_joinTexts_ne isSeparator_comma h hx
  refine ⟨hinputs.lexes.append hs.lexes hs.stops, fun x _ => ?_⟩
  rw [String.append_assoc, String.append_assoc]
  exact stops_append (c := '(') (by simp; rfl) (by decide) x

/-- Where a trait is named there is a bound. -/
theorem bounds_ne_nil {bounds : List Bound} (h : namesTraits bounds = true) : bounds ≠ [] := by
  rintro rfl
  cases h

/-- Where there is a bound, one is written. -/
theorem Bound.renderList_ne_nil {bounds : List Bound} (h : bounds ≠ []) :
    Bound.renderList bounds ≠ [] := by
  cases bounds with
  | nil => exact absurd rfl h
  | cons b r =>
    rw [Bound.renderList]
    exact List.cons_ne_nil _ _

mutual

/-- The written form of a structural type is cut into the tokens that it is meant to have. -/
theorem Ty.isPhrase_render : ∀ {t : Ty} {plus : Bool}, t.Sound plus → t.Structural →
    IsPhrase t.render t.spelling
  | .path p, _, h, hs => by
    rw [Ty.Sound] at h
    rw [Ty.Structural] at hs
    rw [Ty.render, Ty.spelling]
    exact Path.isPhrase_render h.1 hs
  | .reference none isMut elem, _, h, hs => by
    rw [Ty.Sound] at h
    rw [Ty.Structural] at hs
    have hamp : IsLead "&" (marks '&') := isLead_mark rfl (by decide)
    have hmut : IsLead "mut " (words "mut") := (isPhrase_word isNameText_mut).blank
    rw [Ty.render, Ty.spelling]
    exact ((hamp.append isLead_empty).append (hmut.ite isMut)).phrase (Ty.isPhrase_render h.2 hs)
  | .reference (some l) isMut elem, _, h, hs => by
    rw [Ty.Sound] at h
    rw [Ty.Structural] at hs
    have hamp : IsLead "&" (marks '&') := isLead_mark rfl (by decide)
    have hl : IsLead (l ++ " ") (single (.lifetime l)) := (isPhrase_lifetime (h.1 l rfl)).blank
    have hmut : IsLead "mut " (words "mut") := (isPhrase_word isNameText_mut).blank
    rw [Ty.render, Ty.spelling]
    exact ((hamp.append hl).append (hmut.ite isMut)).phrase (Ty.isPhrase_render h.2 hs)
  | .pointer isMut elem, _, h, hs => by
    rw [Ty.Sound] at h
    rw [Ty.Structural] at hs
    have hstar : IsLead "*" (marks '*') := isLead_mark rfl (by decide)
    have helem := Ty.isPhrase_render h hs
    rw [Ty.render, Ty.spelling]
    cases isMut
    · exact (hstar.append (isPhrase_word isNameText_const).blank).phrase helem
    · exact (hstar.append (isPhrase_word isNameText_mut).blank).phrase helem
  | .slice elem, _, h, hs => by
    rw [Ty.Sound] at h
    rw [Ty.Structural] at hs
    rw [Ty.render, Ty.spelling]
    exact isPhrase_bracket rfl (Ty.isPhrase_render h hs).lexes (stops_cons (by decide))
  | .array elem len, _, h, hs => by
    rw [Ty.Sound] at h
    rw [Ty.Structural] at hs
    -- The length is text of its own: it has to be told from the `; ` in front of it.
    obtain ⟨hlen, hstarts⟩ := lexes_length h.2 hs.2
    have hlexes := ((Ty.isPhrase_render h.1 hs.1).lexes.append isSeparator_semicolon.lexes
      fun x _ => isSeparator_semicolon.stops x).append hlen fun x _ => hstarts x
    rw [Ty.render, Ty.spelling]
    exact isPhrase_bracket (by simp only [String.append_assoc]) hlexes fun _ => rfl
  | .tuple elems _, _, h, hs => by
    rw [Ty.Sound] at h
    rw [Ty.Structural] at hs
    have helems := Ty.isPhrase_renderList h hs
    -- A tuple of one element is written with a comma behind it, which makes it a tuple.
    have htail := isTail_comma (decide (elems.length = 1))
    simp only [decide_eq_true_eq] at htail
    have hlexes := (lexes_joinTexts isSeparator_comma helems).append htail.lexes htail.stops
    rw [Ty.render, Ty.spelling]
    -- A slash behind the parenthesis could begin the omission mark; no element begins with one.
    refine isPhrase_paren (by simp only [String.append_assoc]) hlexes fun x hx => ?_
    rw [String.toList_append, List.append_assoc]
    exact head?_joinTexts_ne isSeparator_comma helems (htail.stops x hx)
  | .traitObject isDyn bounds _, plus, h, hs => by
    rw [Ty.Sound] at h
    rw [Ty.Structural] at hs
    have hdyn : IsLead "dyn " (words "dyn") := (isPhrase_word isNameText_dyn).blank
    -- Without a bound nothing would stand behind `dyn`, and the text would end in a blank.
    have hne := bounds_ne_nil (h.2 hs.1).1
    rw [Ty.render, Ty.spelling]
    exact (hdyn.ite isDyn).phrase
      (isPhrase_joinTexts isSeparator_plus (Bound.isPhrase_renderList h.1 hs.2)
        (Bound.renderList_ne_nil hne))
  | .implTrait bounds _, _, h, hs => by
    rw [Ty.Sound] at h
    rw [Ty.Structural] at hs
    have himpl : IsLead "impl " (words "impl") := (isPhrase_word isNameText_impl).blank
    rw [Ty.render, Ty.spelling]
    exact himpl.phrase (isPhrase_joinTexts isSeparator_plus (Bound.isPhrase_renderList h.1 hs)
      (Bound.renderList_ne_nil (bounds_ne_nil h.2.1)))
  | .paren elem, _, h, hs => by
    rw [Ty.Sound] at h
    rw [Ty.Structural] at hs
    have helem := Ty.isPhrase_render h hs
    rw [Ty.render, Ty.spelling]
    exact isPhrase_paren rfl helem.lexes fun x _ => helem.head?_ne x
  | .never, _, _, _ => by
    rw [Ty.render, Ty.spelling]
    exact isPhrase_mark rfl (by decide)
  | .infer, _, _, _ => by
    rw [Ty.render, Ty.spelling]
    exact isPhrase_word isNameText_blank
  | .group _, _, _, hs | .other _, _, _, hs => by
    rw [Ty.Structural] at hs
    exact hs.elim

/-- The written forms of types are cut into the tokens of each. -/
theorem Ty.isPhrase_renderList : ∀ {ts : List Ty}, Ty.SoundList ts → Ty.StructuralList ts →
    List.Forall₂ IsPhrase (Ty.renderList ts) (Ty.spellingList ts)
  | [], _, _ => .nil
  | t :: r, h, hs => by
    rw [Ty.SoundList] at h
    rw [Ty.StructuralList] at hs
    rw [Ty.renderList, Ty.spellingList]
    exact .cons (Ty.isPhrase_render h.1 hs.1) (Ty.isPhrase_renderList h.2 hs.2)

/-- The written form of a bound is cut into the tokens that it is meant to have. -/
theorem Bound.isPhrase_render : ∀ {b : Bound}, b.Sound → b.Structural →
    IsPhrase b.render b.spelling
  | .trait parens isMaybe binder path, h, hs => by
    rw [Bound.Sound] at h
    rw [Bound.Structural] at hs
    rw [Bound.render, Bound.spelling]
    exact Path.isPhrase_render h.2 hs.2.2.2
  | .lifetime name, h, _ => by
    rw [Bound.Sound] at h
    rw [Bound.render, Bound.spelling]
    exact isPhrase_lifetime h
  | .other _, _, hs => by
    rw [Bound.Structural] at hs
    exact hs.elim

theorem Bound.isPhrase_renderList : ∀ {bs : List Bound}, Bound.SoundList bs →
    Bound.StructuralList bs →
    List.Forall₂ IsPhrase (Bound.renderList bs) (Bound.spellingList bs)
  | [], _, _ => .nil
  | b :: r, h, hs => by
    rw [Bound.SoundList] at h
    rw [Bound.StructuralList] at hs
    rw [Bound.renderList, Bound.spellingList]
    exact .cons (Bound.isPhrase_render h.1 hs.1) (Bound.isPhrase_renderList h.2 hs.2)

/-- The written form of a path is cut into its names, its colons and the tokens of its arguments. -/
theorem Path.isPhrase_render : ∀ {p : Path} {inBound : Bool}, p.Sound inBound → p.Structural →
    IsPhrase p.render p.spelling
  | .mk leading [], _, h, _ => by
    rw [Path.Sound] at h
    exact absurd rfl h.1
  | .mk leading (s :: r), _, h, hs => by
    rw [Path.Sound] at h
    rw [Path.Structural] at hs
    have hcolons : IsLead "::" (operators ':' ':') := isLead_operator rfl (by decide) (by decide)
    have hsegments := Segment.isPhrase_renderList h.2 hs
    rw [Segment.renderList] at hsegments
    rw [Path.render, Path.spelling, Segment.renderList]
    exact (hcolons.ite leading).phrase
      (isPhrase_joinTexts isSeparator_colons hsegments (List.cons_ne_nil _ _))

theorem Segment.isPhrase_renderList : ∀ {ss : List Segment} {inBound : Bool},
    Segment.SoundList inBound ss → Segment.StructuralList ss →
    List.Forall₂ IsPhrase (Segment.renderList ss) (Segment.spellingList ss)
  | [], _, _, _ => .nil
  | s :: r, _, h, hs => by
    rw [Segment.SoundList] at h
    rw [Segment.StructuralList] at hs
    rw [Segment.renderList, Segment.spellingList]
    exact .cons (Segment.isPhrase_render h.1 hs.1) (Segment.isPhrase_renderList h.2 hs.2)

/-- The arguments of a segment stand directly behind its name, and are no part of it. -/
theorem Segment.isPhrase_render : ∀ {s : Segment} {parens : Bool}, s.Sound parens →
    s.Structural → IsPhrase s.render s.spelling
  | .mk ident args, _, h, hs => by
    rw [Segment.Sound] at h
    rw [Segment.Structural] at hs
    rw [Segment.render, Segment.spelling]
    exact (isPhrase_word h.1).tail (Args.isTail_render h.2.2 hs)

/-- What is written for arguments cannot go on with the name in front of them. -/
theorem Args.isTail_render : ∀ {a : Args} {parens brackets : Bool}, a.Sound parens brackets →
    a.Structural → IsTail a.render a.spelling
  | .none, _, _, _, _ => by
    rw [Args.render, Args.spelling]
    exact isTail_empty
  | .angle turbofish args _, _, _, h, hs => by
    rw [Args.Sound] at h
    rw [Args.Structural] at hs
    rw [Args.render, Args.spelling]
    exact isTail_angle turbofish (GenericArg.isPhrase_renderList h.2 hs)
  | .paren inputs _ none, _, _, h, hs => by
    rw [Args.Sound] at h
    rw [Args.Structural] at hs
    rw [Args.render, Args.spelling]
    exact isTail_paren (Ty.isPhrase_renderList h.2.1 hs.1) isTail_empty
  | .paren inputs _ (some t), _, _, h, hs => by
    rw [Args.Sound] at h
    rw [Args.Structural] at hs
    rw [Args.render, Args.spelling]
    exact isTail_paren (Ty.isPhrase_renderList h.2.1 hs.1)
      (isSeparator_arrow.tail (Ty.isPhrase_render h.2.2 hs.2))

theorem GenericArg.isPhrase_renderList : ∀ {as : List GenericArg}, GenericArg.SoundList as →
    GenericArg.StructuralList as →
    List.Forall₂ IsPhrase (GenericArg.renderList as) (GenericArg.spellingList as)
  | [], _, _ => .nil
  | a :: r, h, hs => by
    rw [GenericArg.SoundList] at h
    rw [GenericArg.StructuralList] at hs
    rw [GenericArg.renderList, GenericArg.spellingList]
    exact .cons (GenericArg.isPhrase_render h.1 hs.1) (GenericArg.isPhrase_renderList h.2 hs.2)

/-- The written form of a generic argument is cut into the tokens that it is meant to have. -/
theorem GenericArg.isPhrase_render : ∀ {a : GenericArg}, a.Sound → a.Structural →
    IsPhrase a.render a.spelling
  | .lifetime name, h, _ => by
    rw [GenericArg.Sound] at h
    rw [GenericArg.render, GenericArg.spelling]
    exact isPhrase_lifetime h
  | .type t, h, hs => by
    rw [GenericArg.Sound] at h
    rw [GenericArg.Structural] at hs
    rw [GenericArg.render, GenericArg.spelling]
    exact Ty.isPhrase_render h hs
  | .assocType name args t, h, hs => by
    rw [GenericArg.Sound] at h
    rw [GenericArg.Structural] at hs
    rw [GenericArg.render, GenericArg.spelling]
    exact (isPhrase_word h.1).separated isSeparator_equals (Ty.isPhrase_render h.2.2.2 hs.2)
  | .other _, _, hs => by
    rw [GenericArg.Structural] at hs
    exact hs.elim

end

end FieldBinder
