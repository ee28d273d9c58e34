import FieldBinder.Grammar.Type
import FieldBinder.Proofs.Source.Lexical

/-!
# Trees as readers give them

What holds of every type, bound and path that is read from a text: names are names, tokens are those
of texts, and a form stands only where the grammar has it (`Ty.Sound`).  The tokens that such a type
prints can stand in a text again (`Ty.Sound.lexicalList`).  Of the other trees only the names and
tokens matter that the rest of the library looks at (`Item.Sound`).
-/

namespace FieldBinder

open Grammar (isNameText namesTrait)
open Token hiding ident lifetime literal punct group word

/-- Whether a word can be the name of a path segment; the last four have no arguments. -/
def isSegmentWord (w : String) : Bool :=
  isNameText w || w == "Self" || ["super", "self", "crate", "try"].contains w

/-- Whether a word can stand in front of angle brackets. -/
def isGenericWord (w : String) : Bool := isNameText w || w == "Self"

/-- Whether a type can start with a word as a path does. -/
def isTypeWord (w : String) : Bool := isNameText w || ["super", "self", "Self", "crate"].contains w

/-- Whether one of the bounds is a trait, or is left as it stands. -/
def namesTraits (bounds : List Bound) : Bool := bounds.any namesTrait

mutual

/-- What holds of a type that is read, where it may be a sum of bounds or not. -/
def Ty.Sound (plus : Bool) : Ty → Prop
  | .path p => p.Sound false ∧ (p.isLeading = false → ∀ w ∈ p.idents.head?, isTypeWord w = true)
  | .reference lifetime _ elem => (∀ l ∈ lifetime, IsLifetimeText l) ∧ elem.Sound false
  | .pointer _ elem => elem.Sound false
  | .slice elem => elem.Sound true
  | .array elem len => elem.Sound true ∧ LexicalList len
  | .tuple elems _ => Ty.SoundList elems
  | .traitObject isDyn bounds _ =>
    Bound.SoundList bounds ∧
      (isDyn = true → namesTraits bounds = true ∧ (plus = false → bounds.length = 1))
  | .implTrait bounds _ =>
    Bound.SoundList bounds ∧ namesTraits bounds = true ∧ (plus = false → bounds.length = 1)
  | .group elem => elem.Sound plus
  | .paren elem => elem.Sound true
  | .never | .infer => True
  | .other tokens => LexicalList tokens

/-- What holds of types that are read with commas in between. -/
def Ty.SoundList : List Ty → Prop
  | [] => True
  | t :: r => t.Sound true ∧ Ty.SoundList r

/-- What holds of a bound that is read. -/
def Bound.Sound : Bound → Prop
  | .trait _ _ binder path => (∀ ts ∈ binder, LexicalList ts) ∧ path.Sound true
  | .lifetime name => IsLifetimeText name
  | .other tokens => LexicalList tokens

/-- What holds of bounds that are read. -/
def Bound.SoundList : List Bound → Prop
  | [] => True
  | b :: r => b.Sound ∧ Bound.SoundList r

/-- What holds of a path that is read, in a bound or elsewhere. -/
def Path.Sound (inBound : Bool) : Path → Prop
  | .mk _ segments => segments ≠ [] ∧ Segment.SoundList inBound segments

/-- What holds of segments that are read; only the last one in a bound has parentheses. -/
def Segment.SoundList (inBound : Bool) : List Segment → Prop
  | [] => True
  | s :: r => s.Sound (inBound && r.isEmpty) ∧ Segment.SoundList inBound r

/-- What holds of a segment that is read, with parentheses if they are admitted. -/
def Segment.Sound (parens : Bool) : Segment → Prop
  | .mk ident args =>
    IsNameText ident ∧ isSegmentWord ident = true ∧ args.Sound parens (isGenericWord ident)

/-- What holds of arguments that are read, with parentheses or brackets if they are admitted. -/
def Args.Sound (parens brackets : Bool) : Args → Prop
  | .none => True
  | .angle _ args _ => brackets = true ∧ GenericArg.SoundList args
  | .paren inputs _ output =>
    parens = true ∧ Ty.SoundList inputs ∧
      match output with
      | .none => True
      | .some t => t.Sound false

/-- What holds of generic arguments that are read. -/
def GenericArg.SoundList : List GenericArg → Prop
  | [] => True
  | a :: r => a.Sound ∧ GenericArg.SoundList r

/-- What holds of a generic argument that is read. -/
def GenericArg.Sound : GenericArg → Prop
  | .lifetime name => IsLifetimeText name
  | .type t => t.Sound true
  | .assocType name args t =>
    IsNameText name ∧ isTypeWord name = true ∧ args.Sound false (isGenericWord name) ∧ t.Sound true
  | .other tokens => LexicalList tokens

end

/-! ### Lists -/

/-- In a list, each type may be a sum of bounds. -/
theorem Ty.soundList_iff {ts : List Ty} : Ty.SoundList ts ↔ ∀ t ∈ ts, t.Sound true := by
  induction ts with
  | nil => simp [Ty.SoundList]
  | cons t r ih => simp [Ty.SoundList, ih]

theorem Bound.soundList_iff {bs : List Bound} : Bound.SoundList bs ↔ ∀ b ∈ bs, b.Sound := by
  induction bs with
  | nil => simp [Bound.SoundList]
  | cons b r ih => simp [Bound.SoundList, ih]

theorem GenericArg.soundList_iff {as : List GenericArg} :
    GenericArg.SoundList as ↔ ∀ a ∈ as, a.Sound := by
  induction as with
  | nil => simp [GenericArg.SoundList]
  | cons a r ih => simp [GenericArg.SoundList, ih]

/-- Outside of bounds no segment has parentheses. -/
theorem Segment.soundList_iff {ss : List Segment} :
    Segment.SoundList false ss ↔ ∀ s ∈ ss, s.Sound false := by
  induction ss with
  | nil => simp [Segment.SoundList]
  | cons s ss ih => simp [Segment.SoundList, ih]

/-- Only the last segment of a path in a bound may have parentheses. -/
theorem Segment.soundList_append {inBound : Bool} {ss : List Segment} {s : Segment} :
    Segment.SoundList inBound (ss ++ [s]) ↔ (∀ s ∈ ss, s.Sound false) ∧ s.Sound inBound := by
  induction ss with
  | nil => simp [Segment.SoundList]
  | cons s' ss ih =>
    have hmore : (ss ++ [s]).isEmpty = false := by simp
    rw [List.cons_append, Segment.SoundList, hmore, Bool.and_false, ih, List.forall_mem_cons,
      and_assoc]

/-- What holds of arguments in parentheses, with or without a result. -/
theorem Args.sound_paren {parens brackets trailing : Bool} {inputs : List Ty} {output : Option Ty} :
    (Args.paren inputs trailing output).Sound parens brackets ↔
      parens = true ∧ Ty.SoundList inputs ∧ ∀ t ∈ output, t.Sound false := by
  cases output with
  | none => rw [Args.Sound]; simp
  | some t => rw [Args.Sound]; simp

/-- What is read where no parentheses are admitted can stand where they are. -/
theorem Args.Sound.mono {a : Args} {parens brackets : Bool} (h : a.Sound false brackets) :
    a.Sound parens brackets := by
  cases a with
  | none => rwa [Args.Sound] at h ⊢
  | angle turbofish args trailing => rwa [Args.Sound] at h ⊢
  | paren inputs trailing output => cases (Args.sound_paren.1 h).1

/-- A segment without parentheses can stand where they are admitted. -/
theorem Segment.Sound.mono {s : Segment} {parens : Bool} (h : s.Sound false) : s.Sound parens := by
  obtain ⟨ident, args⟩ := s
  rw [Segment.Sound] at h ⊢
  exact ⟨h.1, h.2.1, h.2.2.mono⟩

/-- Segments outside of a bound can stand in one. -/
theorem Segment.SoundList.mono {inBound : Bool} {ss : List Segment}
    (h : Segment.SoundList false ss) : Segment.SoundList inBound ss := by
  induction ss with
  | nil => trivial
  | cons s ss ih =>
    rw [Segment.SoundList] at h ⊢
    exact ⟨h.1.mono, ih h.2⟩

/-- A path outside of a bound can stand in one. -/
theorem Path.Sound.mono {p : Path} {inBound : Bool} (h : p.Sound false) : p.Sound inBound := by
  obtain ⟨leading, segments⟩ := p
  rw [Path.Sound] at h ⊢
  exact ⟨h.1, h.2.mono⟩

/-! ### Printed tokens -/

theorem isNameText_mut : IsNameText "mut" := isNameText_of_isWordText (by decide)

theorem isNameText_const : IsNameText "const" := isNameText_of_isWordText (by decide)

theorem isNameText_dyn : IsNameText "dyn" := isNameText_of_isWordText (by decide)

theorem isNameText_impl : IsNameText "impl" := isNameText_of_isWordText (by decide)

theorem isNameText_blank : IsNameText "_" := isNameText_of_isWordText (by decide)

/-- The mark between the segments of a path can stand in a text. -/
theorem lexicalList_operator_colons : LexicalList (operator [':', ':']) :=
  lexicalList_operator (by decide)

/-- The mark in front of a result can stand in a text. -/
theorem lexicalList_operator_arrow : LexicalList (operator ['-', '>']) :=
  lexicalList_operator (by decide)

mutual

/-- A type that is read prints tokens that can stand in a text again: every form puts marks and
keywords between the tokens of its parts. -/
theorem Ty.Sound.lexicalList : ∀ {t : Ty} {plus : Bool}, t.Sound plus → LexicalList t.tokens
  | .path p, _, h => by
    rw [Ty.tokens]
    rw [Ty.Sound] at h
    exact h.1.lexicalList
  | .reference l isMut elem, _, h => by
    rw [Ty.Sound] at h
    -- the lifetime of a reference may be missing
    have hl : LexicalList (l.toList.map Token.lifetime) := by
      cases l with
      | none => trivial
      | some l => exact ⟨lexical_lifetime.2 (h.1 l rfl), trivial⟩
    have hmut : LexicalList (if isMut then [Token.word "mut"] else []) := by
      cases isMut <;> simp [isNameText_mut]
    rw [Ty.tokens, lexicalList_cons, lexicalList_append, lexicalList_append]
    exact ⟨lexical_punct.2 (by decide), hl, hmut, h.2.lexicalList⟩
  | .pointer isMut elem, _, h => by
    rw [Ty.Sound] at h
    have hword : (Token.word (if isMut then "mut" else "const")).Lexical := by
      cases isMut <;> simp [isNameText_mut, isNameText_const]
    rw [Ty.tokens, lexicalList_cons, lexicalList_cons]
    exact ⟨lexical_punct.2 (by decide), hword, h.lexicalList⟩
  | .slice elem, _, h => by
    rw [Ty.Sound] at h
    rw [Ty.tokens, lexicalList_cons, lexical_group]
    exact ⟨h.lexicalList, trivial⟩
  | .array elem len, _, h => by
    rw [Ty.Sound] at h
    rw [Ty.tokens, lexicalList_cons, lexical_group, lexicalList_append, lexicalList_cons]
    exact ⟨⟨h.1.lexicalList, lexical_punct.2 (by decide), h.2⟩, trivial⟩
  | .tuple elems _, _, h => by
    rw [Ty.Sound] at h
    rw [Ty.tokens, lexicalList_cons, lexical_group]
    exact ⟨lexicalList_separate (by decide) _ (Ty.SoundList.lexicalList h), trivial⟩
  | .traitObject isDyn bounds _, _, h => by
    rw [Ty.Sound] at h
    have hdyn : LexicalList (if isDyn then [Token.word "dyn"] else []) := by
      cases isDyn <;> simp [isNameText_dyn]
    rw [Ty.tokens, lexicalList_append]
    exact ⟨hdyn, lexicalList_separate (by decide) _ (Bound.SoundList.lexicalList h.1)⟩
  | .implTrait bounds _, _, h => by
    rw [Ty.Sound] at h
    rw [Ty.tokens, lexicalList_cons]
    exact ⟨lexical_word.2 isNameText_impl,
      lexicalList_separate (by decide) _ (Bound.SoundList.lexicalList h.1)⟩
  | .group elem, _, h => by
    rw [Ty.Sound] at h
    rw [Ty.tokens]
    exact h.lexicalList
  | .paren elem, _, h => by
    rw [Ty.Sound] at h
    rw [Ty.tokens, lexicalList_cons, lexical_group]
    exact ⟨h.lexicalList, trivial⟩
  | .never, _, _ => by
    rw [Ty.tokens, lexicalList_cons]
    exact ⟨lexical_punct.2 (by decide), trivial⟩
  | .infer, _, _ => by
    rw [Ty.tokens, lexicalList_cons]
    exact ⟨lexical_word.2 isNameText_blank, trivial⟩
  | .other tokens, _, h => by
    rw [Ty.Sound] at h
    rwa [Ty.tokens]

/-- So does each of the types in a list. -/
theorem Ty.SoundList.lexicalList : ∀ {ts : List Ty}, Ty.SoundList ts →
    ∀ x ∈ Ty.tokensList ts, LexicalList x
  | [], _ => by simp [Ty.tokensList]
  | t :: r, h => by
    rw [Ty.SoundList] at h
    rw [Ty.tokensList, List.forall_mem_cons]
    exact ⟨h.1.lexicalList, Ty.SoundList.lexicalList h.2⟩

/-- A bound that is read prints tokens of texts, in parentheses or not. -/
theorem Bound.Sound.lexicalList : ∀ {b : Bound}, b.Sound → LexicalList b.tokens
  | .trait parens isMaybe binder path, h => by
    rw [Bound.Sound] at h
    have hmaybe : LexicalList (if isMaybe then [Token.punct '?' false] else []) := by
      cases isMaybe
      · trivial
      · exact ⟨lexical_punct.2 (by decide), trivial⟩
    have hbinder : LexicalList (binder.getD []) := by
      cases binder with
      | none => trivial
      | some ts => exact h.1 ts rfl
    -- parentheses enclose the sign, the binder and the path together
    have hbody := lexicalList_append.2 ⟨lexicalList_append.2 ⟨hmaybe, hbinder⟩, h.2.lexicalList⟩
    rw [Bound.tokens]
    cases parens
    · exact hbody
    · exact ⟨lexical_group.2 hbody, trivial⟩
  | .lifetime name, h => by
    rw [Bound.Sound] at h
    rw [Bound.tokens, lexicalList_cons]
    exact ⟨lexical_lifetime.2 h, trivial⟩
  | .other tokens, h => by
    rw [Bound.Sound] at h
    rwa [Bound.tokens]

theorem Bound.SoundList.lexicalList : ∀ {bs : List Bound}, Bound.SoundList bs →
    ∀ x ∈ Bound.tokensList bs, LexicalList x
  | [], _ => by simp [Bound.tokensList]
  | b :: r, h => by
    rw [Bound.SoundList] at h
    rw [Bound.tokensList, List.forall_mem_cons]
    exact ⟨h.1.lexicalList, Bound.SoundList.lexicalList h.2⟩

/-- A path that is read prints tokens of texts. -/
theorem Path.Sound.lexicalList : ∀ {p : Path} {inBound : Bool}, p.Sound inBound →
    LexicalList p.tokens
  | .mk leading segments, _, h => by
    rw [Path.Sound] at h
    have hleading : LexicalList (if leading then operator [':', ':'] else []) := by
      cases leading
      · trivial
      · exact lexicalList_operator_colons
    rw [Path.tokens, lexicalList_append]
    exact ⟨hleading, Segment.SoundList.lexicalList h.2⟩

/-- The segments of a path print tokens of texts, with colons in between. -/
theorem Segment.SoundList.lexicalList : ∀ {ss : List Segment} {inBound : Bool},
    Segment.SoundList inBound ss → LexicalList (Segment.tokensList ss)
  | [], _, _ => by rw [Segment.tokensList]; trivial
  | [s], _, h => by
    rw [Segment.SoundList] at h
    rw [Segment.tokensList]
    exact h.1.lexicalList
  | s :: s' :: r, _, h => by
    rw [Segment.SoundList] at h
    rw [Segment.tokensList, lexicalList_append, lexicalList_append]
    exact ⟨h.1.lexicalList, lexicalList_operator_colons, Segment.SoundList.lexicalList h.2⟩

theorem Segment.Sound.lexicalList : ∀ {s : Segment} {parens : Bool}, s.Sound parens →
    LexicalList s.tokens
  | .mk ident args, _, h => by
    rw [Segment.Sound] at h
    rw [Segment.tokens, lexicalList_cons]
    exact ⟨lexical_word.2 h.1, h.2.2.lexicalList⟩

/-- Arguments that are read print tokens of texts; in angle brackets the lifetimes come first. -/
theorem Args.Sound.lexicalList : ∀ {a : Args} {parens brackets : Bool}, a.Sound parens brackets →
    LexicalList a.tokens
  | .none, _, _, _ => by rw [Args.tokens]; trivial
  | .angle turbofish args trailing, _, _, h => by
    rw [Args.Sound] at h
    have hcolons : LexicalList (if turbofish then operator [':', ':'] else []) := by
      cases turbofish
      · trivial
      · exact lexicalList_operator_colons
    rw [Args.tokens, lexicalList_append, lexicalList_cons, lexicalList_append, lexicalList_cons]
    -- lifetimes are moved to the front, which changes no token
    exact ⟨hcolons, lexical_punct.2 (by decide),
      lexicalList_lifetimesFirst (GenericArg.SoundList.lexicalList h.2),
      lexical_punct.2 (by decide), trivial⟩
  | .paren inputs trailing .none, _, _, h => by
    rw [Args.Sound] at h
    rw [Args.tokens, lexicalList_cons, lexical_group]
    exact ⟨lexicalList_separate (by decide) _ (Ty.SoundList.lexicalList h.2.1), trivial⟩
  | .paren inputs trailing (.some t), _, _, h => by
    rw [Args.Sound] at h
    rw [Args.tokens, lexicalList_cons, lexical_group, lexicalList_append]
    exact ⟨lexicalList_separate (by decide) _ (Ty.SoundList.lexicalList h.2.1),
      lexicalList_operator_arrow, h.2.2.lexicalList⟩

theorem GenericArg.SoundList.lexicalList : ∀ {as : List GenericArg}, GenericArg.SoundList as →
    ∀ x ∈ GenericArg.tokensList as, LexicalList x.2
  | [], _ => by simp [GenericArg.tokensList]
  | a :: r, h => by
    rw [GenericArg.SoundList] at h
    rw [GenericArg.tokensList, List.forall_mem_cons]
    exact ⟨h.1.lexicalList, GenericArg.SoundList.lexicalList h.2⟩

/-- A generic argument that is read prints tokens of texts. -/
theorem GenericArg.Sound.lexicalList : ∀ {a : GenericArg}, a.Sound → LexicalList a.tokens.2
  | .lifetime name, h => by
    rw [GenericArg.Sound] at h
    rw [GenericArg.tokens, lexicalList_cons]
    exact ⟨lexical_lifetime.2 h, trivial⟩
  | .type t, h => by
    rw [GenericArg.Sound] at h
    rw [GenericArg.tokens]
    exact h.lexicalList
  | .assocType name args t, h => by
    rw [GenericArg.Sound] at h
    rw [GenericArg.tokens, lexicalList_cons, lexicalList_append, lexicalList_cons]
    exact ⟨lexical_word.2 h.1, h.2.2.1.lexicalList, lexical_punct.2 (by decide),
      h.2.2.2.lexicalList⟩
  | .other tokens, h => by
    rw [GenericArg.Sound] at h
    rwa [GenericArg.tokens]

end

/-! ### Expressions, attributes and items -/

mutual

/-- What holds of an expression that is read, as far as it is taken apart. -/
def Expr.Sound : Expr → Prop
  | .path p => p.Sound false
  | .array elems => Expr.SoundList elems
  | .group e => e.Sound
  | .literal _ | .operation _ _ | .other _ => True

/-- What holds of expressions that are read. -/
def Expr.SoundList : List Expr → Prop
  | [] => True
  | e :: r => e.Sound ∧ Expr.SoundList r

end

/-- Expressions in a list are told one by one. -/
theorem Expr.soundList_iff {es : List Expr} : Expr.SoundList es ↔ ∀ e ∈ es, e.Sound := by
  induction es with
  | nil => simp [Expr.SoundList]
  | cons e r ih => simp [Expr.SoundList, ih]

/-- What holds of an attribute that is read. -/
def Attribute.Sound (a : Attribute) : Prop :=
  match a.args with
  | .none => True
  | .list tokens => LexicalList tokens
  | .value e => e.Sound

mutual

/-- What holds of the tree of a `use` item that is read. -/
def UseTree.Sound : UseTree → Prop
  | .path ident tree => IsNameText ident ∧ tree.Sound
  | .name ident => IsNameText ident
  | .rename ident alias_ => IsNameText ident ∧ IsNameText alias_
  | .glob => True
  | .group trees => UseTree.SoundList trees

/-- What holds of trees that are read. -/
def UseTree.SoundList : List UseTree → Prop
  | [] => True
  | t :: r => t.Sound ∧ UseTree.SoundList r

end

/-- Trees in a group are told one by one. -/
theorem UseTree.soundList_iff {ts : List UseTree} :
    UseTree.SoundList ts ↔ ∀ t ∈ ts, t.Sound := by
  induction ts with
  | nil => simp [UseTree.SoundList]
  | cons t r ih => simp [UseTree.SoundList, ih]

/-- What holds of a field with a name that is read. -/
structure NamedField.Sound (f : NamedField) : Prop where
  attributes : ∀ a ∈ f.attributes, a.Sound
  name : IsNameText f.name
  type : f.type.Sound true

/-- What holds of the fields of a struct that are read. -/
def Fields.Sound : Fields → Prop
  | .named fields => ∀ f ∈ fields, f.Sound
  | .tuple _ | .unit => True

mutual

/-- What holds of an item that is read. -/
def Item.Sound : Item → Prop
  | .use _ tree => tree.Sound
  | .struct name fields => IsNameText name ∧ fields.Sound
  | .enum name | .union name | .trait name _ | .typeAlias name => IsNameText name
  | .mod name .none => IsNameText name
  | .mod name (.some items) => IsNameText name ∧ Item.SoundList items
  | .impl _ _ _ _ | .verbatim | .other => True

/-- What holds of items that are read. -/
def Item.SoundList : List Item → Prop
  | [] => True
  | i :: r => i.Sound ∧ Item.SoundList r

end

/-- Items of a module are told one by one. -/
theorem Item.soundList_iff {is : List Item} : Item.SoundList is ↔ ∀ i ∈ is, i.Sound := by
  induction is with
  | nil => simp [Item.SoundList]
  | cons i r ih => simp [Item.SoundList, ih]

/-- What holds of the results of reading a phrase. -/
def Grammar.Phrase.Sound : (p : Grammar.Phrase) → p.Result → Prop
  | .type plus => Ty.Sound plus
  | .bound _ _ => Bound.Sound
  | .expr _ | .operand _ | .standing => Expr.Sound
  -- operators are read behind an operand, and give it back if there are none
  | .operators _ _ left => fun e => left.Sound → e.Sound
  | .pattern | .statements => fun _ => True
  | .useTree _ => fun o => ∀ t ∈ o, t.Sound
  | .fields => fun fields => ∀ f ∈ fields, f.Sound
  | .item => Item.Sound

end FieldBinder
