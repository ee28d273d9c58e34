import FieldBinder.Proofs.Source.Literal
import FieldBinder.Proofs.Source.Quoted
import FieldBinder.Source.Tree

/-!
# Tokens of texts

The tokens of a text are made of names, literals and punctuation, and nothing else
(`lexicalList_of_lex?`).  Of such tokens only a literal can hold the end of a line
(`newline_mem_textList_iff`).
-/

namespace FieldBinder

open Lexeme

/-- Whether a text is a name. -/
def IsNameText (name : String) : Prop := IsName name.toList

/-- Whether a text is a lifetime: a name behind an apostrophe. -/
def IsLifetimeText (name : String) : Prop := ∃ w, name.toList = '\'' :: w ∧ IsName w

/-- The name of a lifetime has no line break. -/
theorem IsLifetimeText.newline_not_mem {name : String} (h : IsLifetimeText name) :
    '\n' ∉ name.toList := by
  obtain ⟨w, hname, hw⟩ := h
  rw [hname, List.mem_cons, not_or]
  exact ⟨by decide, hw.newline_not_mem⟩

/-- Whether a text is a literal, or stands for an expression that could not be read. -/
def IsLiteralText (text : String) : Prop :=
  text.toList = Literal.omission ∨ ∃ cs r, Literal.scan? cs = some (text.toList, r)

namespace Token

mutual

/-- Whether a token can stand in a text. -/
def Lexical : Token → Prop
  | ident name _ => IsNameText name
  | lifetime name => IsLifetimeText name
  | literal text => IsLiteralText text
  | punct c _ => isPunct c = true
  | group _ body => LexicalList body

/-- Whether all tokens can stand in a text. -/
def LexicalList : List Token → Prop
  | [] => True
  | t :: r => t.Lexical ∧ LexicalList r

end

/-- A list can stand in a text if each of its tokens can. -/
theorem lexicalList_iff {ts : List Token} : LexicalList ts ↔ ∀ t ∈ ts, t.Lexical := by
  induction ts with
  | nil => simp [LexicalList]
  | cons t r ih => simp [LexicalList, ih]

@[simp] theorem lexicalList_nil : LexicalList [] := trivial

@[simp] theorem lexicalList_cons {t : Token} {ts : List Token} :
    LexicalList (t :: ts) ↔ t.Lexical ∧ LexicalList ts := Iff.rfl

@[simp] theorem lexicalList_append {ts us : List Token} :
    LexicalList (ts ++ us) ↔ LexicalList ts ∧ LexicalList us := by
  simp only [lexicalList_iff, List.mem_append]
  exact ⟨fun h => ⟨fun t ht => h t (.inl ht), fun t ht => h t (.inr ht)⟩,
    fun h t ht => ht.elim (h.1 t) (h.2 t)⟩

@[simp] theorem lexicalList_reverse {ts : List Token} :
    LexicalList ts.reverse ↔ LexicalList ts := by
  simp only [lexicalList_iff, List.mem_reverse]

@[simp] theorem lexical_group {d : Delimiter} {body : List Token} :
    (group d body).Lexical ↔ LexicalList body := by rw [Lexical]

@[simp] theorem lexical_punct {c : Char} {joint : Bool} :
    (punct c joint).Lexical ↔ isPunct c = true := by rw [Lexical]

@[simp] theorem lexical_ident {name : String} {line : Nat} :
    (ident name line).Lexical ↔ IsNameText name := by rw [Lexical]

@[simp] theorem lexical_word {name : String} : (word name).Lexical ↔ IsNameText name := by
  rw [word, Lexical]

@[simp] theorem lexical_lifetime {name : String} :
    (lifetime name).Lexical ↔ IsLifetimeText name := by rw [Lexical]

@[simp] theorem lexical_literal {text : String} :
    (literal text).Lexical ↔ IsLiteralText text := by rw [Lexical]

/-- Some of the tokens of a text can stand in a text. -/
theorem LexicalList.mono {ts us : List Token} (h : LexicalList ts) (hsub : us ⊆ ts) :
    LexicalList us :=
  lexicalList_iff.2 fun t ht => lexicalList_iff.1 h t (hsub ht)

theorem LexicalList.drop {ts : List Token} (h : LexicalList ts) (n : Nat) :
    LexicalList (ts.drop n) := h.mono (List.drop_subset n ts)

theorem LexicalList.take {ts : List Token} (h : LexicalList ts) (n : Nat) :
    LexicalList (ts.take n) := h.mono (List.take_subset n ts)

/-! ### Words and operators -/

/-- Whether the characters of a text are a name of letters and underscores. -/
def isWordText (name : String) : Bool :=
  match name.toList with
  | [] => false
  | c :: r => Text.isIdentStart c && r.all Text.isIdentContinue

/-- A text with the characters of a name is one. -/
theorem isNameText_of_isWordText {name : String} (h : isWordText name = true) :
    IsNameText name := by
  rw [isWordText] at h
  split at h
  · cases h
  · next c r hname =>
    rw [Bool.and_eq_true, List.all_eq_true] at h
    exact .inl ⟨c, r, hname, h.1, h.2⟩

/-- An operator can stand in a text if its characters are marks. -/
theorem lexicalList_operator {cs : List Char} (h : cs.all isPunct = true) :
    LexicalList (operator cs) := by
  fun_induction operator cs with
  | case1 => trivial
  | case2 c => simpa using h
  | case3 c d r ih =>
    rw [List.all_cons, Bool.and_eq_true] at h
    exact ⟨h.1, ih h.2⟩

/-- The digits of a number can stand in a text. -/
theorem isLiteralText_decimal (n : Nat) : IsLiteralText (toString n) :=
  .inr ⟨_, _, Literal.scan?_decimal n⟩

/-- A quoted text can stand in a text. -/
theorem isLiteralText_quote (s : String) : IsLiteralText (Text.quote s) :=
  .inr ⟨_, _, Literal.scan?_quote s (r := []) rfl⟩

/-! ### Printed lists -/

/-- Lists with marks in between can stand in a text if each of them can. -/
theorem lexicalList_separate {c : Char} (hc : isPunct c = true) (trailing : Bool)
    {xs : List (List Token)} (h : ∀ x ∈ xs, LexicalList x) :
    LexicalList (separate c trailing xs) := by
  fun_induction separate c trailing xs with
  | case1 => trivial
  | case2 x => cases trailing <;> simpa [hc] using h
  | case3 x y r ih =>
    simp only [lexicalList_append, lexicalList_cons, lexical_punct]
    exact ⟨h x List.mem_cons_self, hc, ih fun z hz => h z (List.mem_cons_of_mem _ hz)⟩

/-- Marks in between take no element away. -/
theorem mem_punctuate {α : Type} {c : Char} {trailing : Bool} {xs : List (α × List Token)}
    {a : α × List Token × Bool} (h : a ∈ punctuate c trailing xs) : ∃ x ∈ xs, a.2.1 = x.2 := by
  fun_induction punctuate c trailing xs with
  | case1 => cases h
  | case2 x =>
    rw [List.mem_singleton] at h
    exact ⟨x, List.mem_cons_self, by rw [h]⟩
  | case3 x y r ih =>
    rcases List.mem_cons.1 h with rfl | h
    · exact ⟨x, List.mem_cons_self, rfl⟩
    · obtain ⟨z, hz, heq⟩ := ih h
      exact ⟨z, List.mem_cons_of_mem _ hz, heq⟩

/-- Arguments can change places. -/
theorem lexicalList_lifetimesFirst {trailing : Bool} {args : List (Bool × List Token)}
    (h : ∀ a ∈ args, LexicalList a.2) : LexicalList (lifetimesFirst trailing args) := by
  have hcomma : isPunct ',' = true := by decide
  have hargs : ∀ a ∈ punctuate ',' trailing args, LexicalList a.2.1 := by
    intro a ha
    obtain ⟨x, hx, heq⟩ := mem_punctuate ha
    rw [heq]
    exact h x hx
  have hwrite {ts : List Token} (hts : LexicalList ts) (comma : Bool) :
      LexicalList (ts ++ if comma then [punct ',' false] else []) := by
    cases comma <;> simp [hts, hcomma]
  -- The fold keeps what is written so far lexical; the flag only says whether a comma is due.
  have hfold (l : List (Bool × List Token × Bool)) (hl : ∀ a ∈ l, LexicalList a.2.1)
      (acc : List Token × Bool) (hacc : LexicalList acc.1) :
      LexicalList (l.foldl
        (fun acc a =>
          (acc.1 ++ (if acc.2 then [] else [punct ',' false]) ++
            (a.2.1 ++ if a.2.2 then [punct ',' false] else []), a.2.2)) acc).1 := by
    induction l generalizing acc with
    | nil => exact hacc
    | cons a l ih =>
      refine ih (fun b hb => hl b (List.mem_cons_of_mem _ hb)) _ ?_
      have hclosed : LexicalList (if acc.2 then [] else [punct ',' false]) := by
        cases acc.2 <;> simp [hcomma]
      rw [lexicalList_append, lexicalList_append]
      exact ⟨⟨hacc, hclosed⟩, hwrite (hl a List.mem_cons_self) _⟩
  rw [lifetimesFirst]
  simp only [lexicalList_append]
  refine ⟨lexicalList_iff.2 fun t ht => ?_, hfold _ (fun a ha => ?_) _ trivial⟩
  · obtain ⟨a, ha, ht⟩ := List.mem_flatMap.1 ht
    exact lexicalList_iff.1 (hwrite (hargs a (List.mem_filter.1 ha).1) _) t ht
  · exact hargs a (List.mem_filter.1 ha).1

end Token

/-! ### Lines -/

namespace Token

mutual

/-- The literals of a token tree. -/
def literals : Token → List String
  | literal text => [text]
  | group _ body => literalsList body
  | _ => []

/-- The literals of token trees. -/
def literalsList : List Token → List String
  | [] => []
  | t :: r => t.literals ++ literalsList r

end

/-- Delimiters have no line breaks. -/
theorem newline_not_mem_delimiter (d : Delimiter) :
    '\n' ∉ d.opening.toList ∧ '\n' ∉ d.closing.toList := by
  cases d <;> decide

mutual

/-- Only where a literal goes on over several lines does the printed form of a token. -/
theorem newline_mem_text_iff : ∀ {t : Token}, t.Lexical →
    ('\n' ∈ t.text.toList ↔ ∃ l ∈ t.literals, '\n' ∈ l.toList)
  | ident name _, h => by
    simp only [text, literals, List.not_mem_nil, false_and, exists_false, iff_false]
    exact IsName.newline_not_mem (lexical_ident.1 h)
  | lifetime name, h => by
    simp only [text, literals, List.not_mem_nil, false_and, exists_false, iff_false]
    exact (lexical_lifetime.1 h).newline_not_mem
  | literal t, _ => by simp [text, literals]
  | punct c _, h => by
    have hc : c ≠ '\n' := by
      rintro rfl
      exact absurd (lexical_punct.1 h) (by decide)
    simp [text, literals, hc.symm]
  | group d body, h => by
    obtain ⟨hopening, hclosing⟩ := newline_not_mem_delimiter d
    -- Braces have blanks inside, which are no line feeds either.
    have hblank : '\n' ∉ (if d = .brace ∧ body.isEmpty = false then " " else "").toList := by
      split <;> decide
    simp only [text, literals, String.toList_append, List.mem_append, hopening, hclosing, hblank,
      or_false, false_or]
    exact newline_mem_textList_iff (lexical_group.1 h)

/-- Only where a literal goes on over several lines does the printed form of tokens. -/
theorem newline_mem_textList_iff : ∀ {ts : List Token}, LexicalList ts →
    ('\n' ∈ (textList ts).toList ↔ ∃ l ∈ literalsList ts, '\n' ∈ l.toList)
  | [], _ => by simp [textList, literalsList]
  | [t], h => by
    simp only [textList, literalsList, List.append_nil]
    exact newline_mem_text_iff (lexicalList_cons.1 h).1
  | t :: u :: r, h => by
    obtain ⟨ht, hr⟩ := lexicalList_cons.1 h
    have hblank : '\n' ∉ (if t.isJoint then "" else " ").toList := by
      split <;> decide
    rw [textList, literalsList]
    simp only [String.toList_append, List.mem_append, hblank, or_false,
      newline_mem_text_iff ht, newline_mem_textList_iff hr, or_and_right, exists_or]

end

end Token

/-! ### Texts -/

namespace Lexeme

open Token

/-- Whether the tokens of a lexeme can stand in a text. -/
def Lexical : Lexeme → Prop
  | opening _ | closing _ => True
  | tokens ts => LexicalList ts

/-- A comment can stand in a text as the attribute that it is short for. -/
theorem lexicalList_docAttribute (inner : Bool) (comment : List Char) :
    LexicalList (docAttribute inner comment) := by
  have hdoc : IsNameText "doc" := isNameText_of_isWordText (by decide)
  have hpunct : isPunct '#' = true ∧ isPunct '!' = true ∧ isPunct '=' = true := by decide
  cases inner <;>
    simp [docAttribute, hdoc, hpunct, isLiteralText_quote]

/-- A token that is no group can stand in a text when it is taken from one. -/
theorem lexical_of_leaf? {line : Nat} {cs t r : List Char} {token : Token}
    (h : leaf? line cs = some (token, t, r)) : token.Lexical := by
  rw [leaf?.eq_def] at h
  split at h
  · -- A literal is what the scanner of literals took.
    next u rest hscan =>
    cases h
    exact lexical_literal.2 (.inr ⟨cs, r, by rw [String.toList_ofList]; exact hscan⟩)
  split at h
  · cases h
  next c rest =>
  split at h
  · -- An apostrophe that opens no character literal: a mark of its own or a lifetime.
    next hquote =>
    split at h
    · next w x hname =>
      split at h
      · cases h
      split at h
      · cases h
        rw [lexical_punct, hquote]
        decide
      · cases h
        exact lexical_lifetime.2 ⟨w, by rw [String.toList_ofList, hquote], isName_of_name? hname⟩
    · cases h
  split at h
  · -- A slash is no mark where a comment begins, hence the cases behind `startsPunct`.
    next hpunct =>
    cases h
    rw [lexical_punct]
    unfold startsPunct at hpunct
    split at hpunct
    · cases hpunct
    · cases hpunct
    · next heq =>
      cases heq
      exact hpunct
    · cases hpunct
  split at h
  · cases h
  split at h
  · cases h
    -- The omission mark is a literal by its text alone: no scanner of literals reads it.
    exact lexical_literal.2 (.inl (String.toList_ofList ..))
  · obtain ⟨⟨w, x⟩, hname, heq⟩ := Option.map_eq_some_iff.1 h
    cases heq
    rw [lexical_ident, IsNameText, String.toList_ofList]
    exact isName_of_name? hname

/-- All that is taken from a text can stand in one. -/
theorem lexical_of_scan? {n line : Nat} {cs : List Char} {ls : List Lexeme}
    (h : scan? n line cs = some ls) : ∀ l ∈ ls, l.Lexical := by
  induction n generalizing line cs ls with
  | zero =>
    cases cs with
    | nil =>
      rw [scan?] at h
      cases h
      simp
    | cons c r =>
      rw [scan?] at h
      · cases h
      · simp
  | succ n ih =>
    -- every branch puts one lexeme in front of what the rest gives
    have hcons (l : Lexeme) (hl : l.Lexical) {line : Nat} {rest : List Char}
        (h : (scan? n line rest).map (l :: ·) = some ls) : ∀ l ∈ ls, l.Lexical := by
      obtain ⟨ls', hls, rfl⟩ := Option.map_eq_some_iff.1 h
      intro l' hl'
      rcases List.mem_cons.1 hl' with rfl | hl'
      · exact hl
      · exact ih hls l' hl'
    cases cs with
    | nil =>
      rw [scan?] at h
      cases h
      simp
    | cons c r =>
      rw [scan?] at h
      split at h
      · exact ih h
      split at h
      · next inner comment rest _ =>
        split at h
        · exact hcons (.tokens (docAttribute inner comment))
            (lexicalList_docAttribute inner comment) h
        · cases h
      split at h
      · exact hcons (.opening _) trivial h
      · exact hcons (.closing _) trivial h
      · split at h
        · next token t rest hleaf =>
          exact hcons (.tokens [token]) (lexicalList_cons.2 ⟨lexical_of_leaf? hleaf, trivial⟩) h
        · cases h

/-- Groups are made of what was taken from a text. -/
theorem lexicalList_of_nest {opened : List (Delimiter × List Token)} {before : List Token}
    {ls : List Lexeme} {ts : List Token} (h : nest opened before ls = some ts)
    (hopened : ∀ o ∈ opened, LexicalList o.2) (hbefore : LexicalList before)
    (hls : ∀ l ∈ ls, l.Lexical) : LexicalList ts := by
  induction ls generalizing opened before with
  | nil =>
    rw [nest] at h
    split at h
    · cases h
      rwa [lexicalList_reverse]
    · cases h
  | cons l r ih =>
    have hl := hls l List.mem_cons_self
    have hr : ∀ l ∈ r, l.Lexical := fun l' hl' => hls l' (List.mem_cons_of_mem _ hl')
    cases l with
    | tokens ts' =>
      rw [nest] at h
      refine ih h hopened ?_ hr
      rw [lexicalList_append, lexicalList_reverse]
      exact ⟨hl, hbefore⟩
    | opening d =>
      rw [nest] at h
      -- what was read so far waits outside the group that is opened
      refine ih h (fun o ho => ?_) trivial hr
      rcases List.mem_cons.1 ho with rfl | ho
      · exact hbefore
      · exact hopened o ho
    | closing d =>
      rw [nest.eq_def] at h
      simp only at h
      split at h
      · cases h
      · next d' outside opened' =>
        split at h
        · refine ih h (fun o ho => hopened o (List.mem_cons_of_mem _ ho)) ?_ hr
          rw [lexicalList_cons, lexical_group, lexicalList_reverse]
          exact ⟨hbefore, hopened (d', outside) List.mem_cons_self⟩
        · cases h

end Lexeme

/-- The tokens of a text are names, lifetimes, literals and punctuation. -/
theorem Token.lexicalList_of_lex? {text : String} {ts : List Token} (h : lex? text = some ts) :
    LexicalList ts := by
  obtain ⟨ls, hscan, hnest⟩ := Option.bind_eq_some_iff.1 h
  exact lexicalList_of_nest hnest (by simp) trivial (lexical_of_scan? hscan)

end FieldBinder
