import FieldBinder.Proofs.Source.Lexical
import FieldBinder.Source.TypeText
import Mathlib.Computability.Language

/-!
# Pieces of texts

What tokens a text has, piece by piece: a piece is cut into tokens of a language in front of certain
other texts (`Lexes`), and of two pieces the first has to stand in front of the second
(`Lexes.append`).  A piece that starts a token, and that can stand in front of all that ends one, is
a phrase (`IsPhrase`); phrases come with separators between them (`IsSeparator`,
`IsPhrase.separated`), in groups, and by themselves (`IsPhrase.lex?`).
-/

namespace FieldBinder

open Text

/-! ### Languages of tokens -/

namespace Token

/-- A name, on any line. -/
def words (name : String) : Language Token := {ts | ∃ line, ts = [ident name line]}

/-- A token that is no name. -/
def single (t : Token) : Language Token := {ts | ts = [t]}

/-- A punctuation character, whatever comes behind it. -/
def marks (c : Char) : Language Token := {ts | ∃ joint, ts = [punct c joint]}

/-- An operator of two characters. -/
def operators (c d : Char) : Language Token := {ts | ∃ joint, ts = [punct c true, punct d joint]}

/-- A group of tokens. -/
def groups (d : Delimiter) (L : Language Token) : Language Token :=
  {ts | ∃ body ∈ L, ts = [group d body]}

/-- Tokens of each language in turn, with a separator in between. -/
def joined (S : Language Token) : List (Language Token) → Language Token
  | [] => 1
  | [L] => L
  | L :: L' :: r => L * S * joined S (L' :: r)

/-- Tokens of each language in turn, with a mark in between, and possibly one behind the last. -/
def listed (c : Char) : List (Language Token) → Language Token
  | [] => 1
  | [L] => L * (1 + marks c)
  | L :: L' :: r => L * marks c * listed c (L' :: r)

end Token

open Token hiding ident lifetime literal punct group word

namespace Lexeme

/-! ### Nesting -/

mutual

/-- The lexemes of a token. -/
def ofToken : Token → List Lexeme
  | .group d body => .opening d :: (ofTokens body ++ [.closing d])
  | t => [.tokens [t]]

/-- The lexemes of tokens. -/
def ofTokens : List Token → List Lexeme
  | [] => []
  | t :: r => ofToken t ++ ofTokens r

end

/-- The lexemes of tokens in a row are those of each. -/
theorem ofTokens_append (ts us : List Token) :
    ofTokens (ts ++ us) = ofTokens ts ++ ofTokens us := by
  induction ts with
  | nil => rfl
  | cons t r ih => rw [List.cons_append, ofTokens, ofTokens, ih, List.append_assoc]

mutual

/-- The lexemes of tokens nest to these tokens again. -/
theorem nest_ofToken (opened : List (Delimiter × List Token)) (before : List Token)
    (r : List Lexeme) : ∀ t, nest opened before (ofToken t ++ r) = nest opened (t :: before) r
  | .group d body => by
    rw [ofToken, List.cons_append, nest, List.append_assoc, nest_ofTokens, List.singleton_append,
      nest, if_pos rfl, List.append_nil, List.reverse_reverse]
  | .ident _ _ | .lifetime _ | .literal _ | .punct _ _ => by
    rw [ofToken]
    · rfl
    · simp

/-- The lexemes of tokens nest to the tokens. -/
theorem nest_ofTokens (opened : List (Delimiter × List Token)) (before : List Token)
    (r : List Lexeme) :
    ∀ ts, nest opened before (ofTokens ts ++ r) = nest opened (ts.reverse ++ before) r
  | [] => rfl
  | t :: ts => by
    rw [ofTokens, List.append_assoc, nest_ofToken opened before _ t, nest_ofTokens,
      List.reverse_cons, List.append_assoc, List.singleton_append]

end

/-! ### Scanning -/

variable {c : Char} {r x : List Char} {line : Nat} {ls : List Lexeme}

/-- Whether characters, of which the first stands on the given line, have the given lexemes. -/
def Scans (line : Nat) (cs : List Char) (ls : List Lexeme) : Prop :=
  ∀ n, cs.length ≤ n → scan? n line cs = some ls

theorem scans_nil (line : Nat) : Scans line [] [] := by
  intro n _
  rw [scan?]

/-- Whether a character is not the first of white space or of a comment, and no byte order mark. -/
def IsSolid (c : Char) : Prop := isGap c = false ∧ c ≠ '/' ∧ c ≠ '\uFEFF'

instance (c : Char) : Decidable (IsSolid c) := inferInstanceAs (Decidable (_ ∧ _))

/-- Neither white space nor a comment starts with a solid character. -/
theorem gap?_of_isSolid (hc : IsSolid c) (r : List Char) : gap? (c :: r) = none := by
  unfold gap?
  split
  case h_10 heq =>
    obtain ⟨rfl, rfl⟩ := List.cons.inj heq
    rw [if_neg (by rw [hc.1]; exact Bool.false_ne_true)]
  case h_11 heq => cases heq
  all_goals
    next heq => exact absurd (List.cons.inj heq).1 hc.2.1

/-- Nor does a comment that documents something. -/
theorem doc?_of_isSolid (hc : IsSolid c) (r : List Char) : doc? (c :: r) = none := by
  unfold doc?
  dsimp only
  split
  case h_7 => rfl
  all_goals
    next heq => exact absurd (List.cons.inj heq).1 hc.2.1

/-- Whether a character can be the first of a token that is no group. -/
def IsLeafStart (c : Char) : Prop := IsSolid c ∧ c ∉ "([\x7b)]\x7d".toList

instance (c : Char) : Decidable (IsLeafStart c) := inferInstanceAs (Decidable (_ ∧ _))

theorem opens?_of_isLeafStart (hc : IsLeafStart c) (r : List Char) : opens? (c :: r) = none := by
  unfold opens?
  rw [List.head?_cons]
  split
  case h_4 => rfl
  all_goals
    next heq =>
      cases heq
      exact absurd (by decide) hc.2

theorem closes?_of_isLeafStart (hc : IsLeafStart c) : closes? c = none := by
  unfold closes?
  split
  case h_4 => rfl
  all_goals exact absurd (by decide) hc.2

/-- A token that is no group, and what follows it. -/
theorem Scans.leaf {token : Token} {t : List Char} (htoken : ofToken token = [.tokens [token]])
    (hc : IsSolid c) (hopens : opens? (c :: r) = none) (hcloses : closes? c = none)
    (hleaf : leaf? line (c :: r) = some (token, t, x)) (hlength : x.length ≤ r.length)
    (h : Scans (line + lineBreaks t) x ls) : Scans line (c :: r) (ofTokens [token] ++ ls) := by
  intro n hn
  cases n with
  | zero => cases hn
  | succ n =>
    rw [scan?, gap?_of_isSolid hc, doc?_of_isSolid hc, hopens, hcloses, hleaf]
    dsimp only
    rw [h n (hlength.trans (Nat.le_of_succ_le_succ hn)), Option.map_some, ofTokens, htoken]
    rfl

/-- A delimiter opens a group, whatever is in it. -/
theorem Scans.opening {d : Delimiter} (hc : IsSolid c) (hopens : opens? (c :: r) = some d)
    (h : Scans line r ls) : Scans line (c :: r) (.opening d :: ls) := by
  intro n hn
  cases n with
  | zero => cases hn
  | succ n =>
    rw [scan?, gap?_of_isSolid hc, doc?_of_isSolid hc, hopens]
    dsimp only
    rw [h n (Nat.le_of_succ_le_succ hn), Option.map_some]

/-- A delimiter closes a group. -/
theorem Scans.closing {d : Delimiter} (hc : IsSolid c) (hopens : opens? (c :: r) = none)
    (hcloses : closes? c = some d) (h : Scans line r ls) :
    Scans line (c :: r) (.closing d :: ls) := by
  intro n hn
  cases n with
  | zero => cases hn
  | succ n =>
    rw [scan?, gap?_of_isSolid hc, doc?_of_isSolid hc, hopens, hcloses]
    dsimp only
    rw [h n (Nat.le_of_succ_le_succ hn), Option.map_some]

/-- White space is passed over. -/
theorem Scans.blank (hx : ∀ c ∈ x.head?, isGap c = false) (h : Scans line x ls) :
    Scans line (' ' :: x) ls := by
  have hgap : gap? (' ' :: x) = some ([' '], x) := by
    have htake : x.takeWhile isGap = [] ∧ x.dropWhile isGap = x := by
      cases x with
      | nil => exact ⟨rfl, rfl⟩
      | cons d x =>
        have hd := hx d rfl
        simp [hd]
    have hblank : isGap ' ' = true := by decide
    have hgap : gap? (' ' :: x) =
        if isGap ' ' then some (' ' :: x.takeWhile isGap, x.dropWhile isGap) else none := rfl
    rw [hgap, if_pos hblank, htake.1, htake.2]
  intro n hn
  cases n with
  | zero => cases hn
  | succ n =>
    rw [scan?, hgap]
    exact h n (Nat.le_of_succ_le_succ hn)

/-! ### Pieces -/

/-- Whether a text is cut into tokens of a language in front of certain texts. -/
def Lexes (s : String) (L : Language Token) (F : List Char → Prop) : Prop :=
  ∀ x, F x → ∀ line, ∃ ts ∈ L, ∃ line', ∀ ls, Scans line' x ls →
    Scans line (s.toList ++ x) (ofTokens ts ++ ls)

/-- Whether a text goes on with something that ends a token before it. -/
def Stops (x : List Char) : Prop := ∀ c ∈ x.head?, c ∈ " ,;:<>()]".toList

/-- Whether a text goes on with a token. -/
def Starts (x : List Char) : Prop := ∃ c r, x = c :: r ∧ IsSolid c

variable {s s' : String} {L L' S : Language Token} {F F' : List Char → Prop}

theorem lexes_empty : Lexes "" 1 F := by
  intro x _ line
  exact ⟨[], rfl, line, fun ls h => h⟩

/-- Texts in a row are cut one by one if the first one ends where the second one starts. -/
theorem Lexes.append (hs : Lexes s L F) (hs' : Lexes s' L' F')
    (h : ∀ x, F' x → F (s'.toList ++ x)) : Lexes (s ++ s') (L * L') F' := by
  intro x hx line
  obtain ⟨ts, hts, line', hscans⟩ := hs _ (h x hx) line
  obtain ⟨us, hus, line'', hscans'⟩ := hs' x hx line'
  refine ⟨ts ++ us, Language.append_mem_mul hts hus, line'', fun ls hls => ?_⟩
  rw [String.toList_append, List.append_assoc, ofTokens_append, List.append_assoc]
  exact hscans _ (hscans' _ hls)

/-- A text that is cut in front of some texts is cut in front of fewer. -/
theorem Lexes.mono (hs : Lexes s L F) (h : ∀ x, F' x → F x) : Lexes s L F' :=
  fun x hx => hs x (h x hx)

/-- A blank has no tokens, in front of a token. -/
theorem lexes_blank : Lexes " " 1 Starts := by
  intro x hx line
  obtain ⟨c, r, rfl, hc⟩ := hx
  refine ⟨[], rfl, line, fun ls h => ?_⟩
  exact Scans.blank (fun d hd => by rw [← Option.some.inj hd]; exact hc.1) h

/-- A token that is no group is cut from a text as a whole. -/
theorem lexes_of_leaf? {t : List Char} (hs : s.toList = c :: t) (hc : IsSolid c)
    (hcloses : closes? c = none) (hopens : ∀ x, F x → opens? (c :: t ++ x) = none)
    (hleaf : ∀ x, F x → ∀ line, ∃ token, [token] ∈ L ∧ ofToken token = [.tokens [token]] ∧
      leaf? line (c :: t ++ x) = some (token, c :: t, x)) : Lexes s L F := by
  intro x hx line
  obtain ⟨token, hmem, htoken, hleaf⟩ := hleaf x hx line
  refine ⟨[token], hmem, line + lineBreaks (c :: t), fun ls h => ?_⟩
  rw [hs]
  have hlength : x.length ≤ (t ++ x).length := by
    rw [List.length_append]
    exact Nat.le_add_left _ _
  exact Scans.leaf htoken hc (hopens x hx) hcloses hleaf hlength h

/-! ### Names and literals -/

theorem isLeafStart_of_isIdentStart (hc : isIdentStart c = true) : IsLeafStart c := by
  have hbetween := isBetween_eq_false (.inl hc)
  have hmark : c ≠ '\uFEFF' := by
    rintro rfl
    have : isIdentStart '\uFEFF' = false := by decide +kernel
    rw [this] at hc
    cases hc
  have hother (d : Char) (hd : isBetween d = true) : c ≠ d := ne_of_isIdent (.inl hc) hd
  have hgap : isGap c = false := by
    simp only [isBetween, Bool.or_eq_false_iff] at hbetween
    exact hbetween.1.1
  refine ⟨⟨hgap, hother _ (by decide), hmark⟩, fun hmem => ?_⟩
  have hdelimiters : "([\x7b)]\x7d".toList.all isBetween = true := by decide
  exact hother c (List.all_eq_true.1 hdelimiters c hmem) rfl

/-- What ends a token ends a name. -/
theorem Stops.endsName (hx : Stops x) : EndsName x := by
  cases x with
  | nil => exact endsName_nil
  | cons c r => exact endsName_cons (hx c rfl) r

/-- A name is cut as one token. -/
theorem lexes_words {name : String} (hname : IsNameText name) : Lexes name (words name) Stops := by
  obtain ⟨c, t, hcs, hc⟩ := IsName.exists_cons hname
  have hstart := isLeafStart_of_isIdentStart hc
  refine lexes_of_leaf? hcs hstart.1 (closes?_of_isLeafStart hstart)
    (fun x _ => opens?_of_isLeafStart hstart _) fun x hx line => ?_
  refine ⟨.ident name line, ⟨line, rfl⟩, rfl, ?_⟩
  rw [← hcs, leaf?_name hname hx.endsName, String.ofList_toList]

/-- A lifetime is cut as one token. -/
theorem lexes_lifetime {name : String} (hname : IsLifetimeText name) :
    Lexes name (single (.lifetime name)) Stops := by
  obtain ⟨w, hcs, hw⟩ := hname
  have hstart : IsLeafStart '\'' := by decide
  refine lexes_of_leaf? hcs hstart.1 (closes?_of_isLeafStart hstart)
    (fun x _ => opens?_of_isLeafStart hstart _) fun x hx line => ?_
  refine ⟨.lifetime name, rfl, rfl, ?_⟩
  rw [List.cons_append, leaf?_lifetime hw hx.endsName, ← hcs, String.ofList_toList]

/-- A literal starts with no delimiter, no white space and no comment. -/
theorem isLeafStart_of_scan? {t : List Char} (h : Literal.scan? (c :: x) = some (t, r)) :
    IsLeafStart c := by
  by_cases hdigit : c.isDigit = true
  · have hc : c.toNat < 128 := lt_of_isAlphanum (by rw [Char.isAlphanum, hdigit, Bool.or_true])
    exact forall_ascii (P := fun c => c.isDigit = true → IsLeafStart c) (by decide +kernel)
      hc hdigit
  · by_cases hc : c ∈ Literal.starts
    · have hstarts : Literal.starts.all (fun c => decide (IsLeafStart c)) = true := by decide
      exact of_decide_eq_true (List.all_eq_true.1 hstarts c hc)
    · rw [Literal.scan?_eq_none (Bool.not_eq_true _ ▸ hdigit) hc] at h
      cases h

theorem starts_literal {text : String} (htext : IsLiteralText text) (x : List Char) :
    Starts (text.toList ++ x) := by
  rcases htext with htext | ⟨cs, r, hscan⟩
  · exact ⟨'(', _, by rw [htext]; rfl, by decide⟩
  · have hagain := Literal.scan?_append hscan (x := []) (by simp [Literal.Closes])
    cases hcs : text.toList with
    | nil =>
      rw [hcs] at hagain
      cases hagain
    | cons c t =>
      rw [hcs] at hagain
      exact ⟨c, _, rfl, (isLeafStart_of_scan? hagain).1⟩

/-- A literal in front of a bracket. -/
theorem lexes_literal {text : String} (htext : IsLiteralText text) :
    Lexes text (single (.literal text)) fun x => x.head? = some ']' := by
  rcases htext with htext | ⟨cs, r, hscan⟩
  · refine lexes_of_leaf? htext (by decide) rfl (fun x _ => rfl) fun x _ line => ?_
    refine ⟨.literal text, rfl, rfl, ?_⟩
    have hname : text = String.ofList Literal.omission := by rw [← htext, String.ofList_toList]
    rw [hname]
    rfl
  · have hagain (x : List Char) (hx : Literal.Closes x) := Literal.scan?_append hscan hx
    cases hcs : text.toList with
    | nil =>
      have hempty := hagain [] (by simp [Literal.Closes])
      rw [hcs] at hempty
      cases hempty
    | cons c t =>
      rw [hcs] at hagain
      have hstart := isLeafStart_of_scan? (hagain [] (by simp [Literal.Closes]))
      refine lexes_of_leaf? hcs hstart.1 (closes?_of_isLeafStart hstart)
        (fun x _ => opens?_of_isLeafStart hstart _) fun x hx line => ?_
      refine ⟨.literal text, rfl, rfl, ?_⟩
      -- Only a closing bracket may follow: behind a letter or a digit the literal would go on.
      have hcloses : Literal.Closes x := fun d hd => Option.some.inj (hd.symm.trans hx)
      rw [leaf?.eq_def, hagain x hcloses]
      dsimp only
      rw [← hcs, String.ofList_toList]

/-- A text with a blank behind it. -/
theorem Lexes.blank (hs : Lexes s L F) (hF : ∀ x, F (' ' :: x)) : Lexes (s ++ " ") L Starts := by
  have hlexes := hs.append lexes_blank fun x _ => hF x
  rwa [mul_one] at hlexes

/-- A text behind a blank. -/
theorem Lexes.behind_blank (hs : Lexes s L F) (hstarts : ∀ x, F x → Starts (s.toList ++ x)) :
    Lexes (" " ++ s) L F := by
  have hlexes := lexes_blank.append hs hstarts
  rwa [one_mul] at hlexes

/-! ### Punctuation -/

/-- The punctuation in the written forms of types. -/
def marksOfTypes : List Char := "&*!:<>,;=-+".toList

/-- The marks in types are punctuation that starts no literal. -/
theorem of_mem_marksOfTypes (hc : c ∈ marksOfTypes) :
    IsLeafStart c ∧ c.isDigit = false ∧ c ∉ Literal.starts ∧ isPunct c = true := by
  have hmarks : marksOfTypes.all (fun c => decide (IsLeafStart c ∧ c.isDigit = false ∧
      c ∉ Literal.starts ∧ isPunct c = true)) = true := by
    decide
  exact of_decide_eq_true (List.all_eq_true.1 hmarks c hc)

theorem startsPunct_of_mem_marksOfTypes (hc : c ∈ marksOfTypes) (x : List Char) :
    startsPunct (c :: x) = true := by
  obtain ⟨hstart, -, -, hpunct⟩ := of_mem_marksOfTypes hc
  have hslash : c ≠ '/' := hstart.1.2.1
  simp [startsPunct, hslash, hpunct]

/-- A punctuation character is joint to what goes on with punctuation. -/
theorem Scans.mark (hc : c ∈ marksOfTypes) (h : Scans line x ls) :
    Scans line (c :: x) (ofTokens [.punct c (startsPunct x)] ++ ls) := by
  obtain ⟨hstart, hdigit, hliteral, -⟩ := of_mem_marksOfTypes hc
  -- The apostrophe opens literals, and a mark of types opens none.
  have hquote : c ≠ '\'' := by
    rintro rfl
    exact hliteral (by decide)
  have hleaf : leaf? line (c :: x) = some (.punct c (startsPunct x), [c], x) := by
    rw [leaf?, Literal.scan?_eq_none hdigit hliteral, if_neg hquote,
      if_pos (startsPunct_of_mem_marksOfTypes hc x)]
  have hline : lineBreaks [c] = 0 := by
    have hmarks : marksOfTypes.all (fun c => lineBreaks [c] == 0) = true := by decide
    exact eq_of_beq (List.all_eq_true.1 hmarks c hc)
  refine Scans.leaf rfl hstart.1 (opens?_of_isLeafStart hstart x) (closes?_of_isLeafStart hstart)
    hleaf (Nat.le_refl _) ?_
  rwa [hline]

/-- A mark is cut as one token, joint or not. -/
theorem lexes_marks (hs : s.toList = [c]) (hc : c ∈ marksOfTypes) :
    Lexes s (marks c) fun _ => True := by
  intro x _ line
  refine ⟨_, ⟨startsPunct x, rfl⟩, line, fun ls h => ?_⟩
  rw [hs]
  exact h.mark hc

/-- An operator is cut as two tokens, the first one joint to the second. -/
theorem lexes_operators {d : Char} (hs : s.toList = [c, d]) (hc : c ∈ marksOfTypes)
    (hd : d ∈ marksOfTypes) : Lexes s (operators c d) fun _ => True := by
  intro x _ line
  refine ⟨_, ⟨startsPunct x, rfl⟩, line, fun ls h => ?_⟩
  rw [hs]
  have hscans := (h.mark hd).mark hc
  rw [startsPunct_of_mem_marksOfTypes hd] at hscans
  exact hscans

/-! ### Groups -/

/-- A text in parentheses is one group; it may not start with a slash, which could begin a
comment. -/
theorem Lexes.paren (hs : Lexes s L F) (hF : ∀ x, F (')' :: x))
    (hstart : ∀ x, (s.toList ++ ')' :: x).head? ≠ some '/') :
    Lexes ("(" ++ s ++ ")") (groups .paren L) fun _ => True := by
  intro x _ line
  obtain ⟨ts, hts, line', hscans⟩ := hs _ (hF x) line
  refine ⟨_, ⟨ts, hts, rfl⟩, line', fun ls h => ?_⟩
  have hopens : opens? ('(' :: (s.toList ++ ')' :: x)) = some .paren := by
    -- The omission mark begins with a parenthesis and a slash; what is inside begins with none.
    have homission : Literal.omission.isPrefixOf ('(' :: (s.toList ++ ')' :: x)) = false := by
      cases hcs : s.toList ++ ')' :: x with
      | nil => rfl
      | cons c r =>
        have hc : '/' ≠ c := by
          rintro rfl
          exact hstart x (by rw [hcs, List.head?_cons])
        rw [show Literal.omission = '(' :: '/' :: "*ERROR*/)".toList from rfl,
          List.isPrefixOf_cons_cons, List.isPrefixOf_cons_cons, beq_false_of_ne hc]
        rfl
    unfold opens?
    rw [List.head?_cons]
    simp only [homission, Bool.false_eq_true, if_false]
  have hsolid : IsSolid '(' ∧ IsSolid ')' := by decide
  have hclosing := h.closing hsolid.2 (r := x) rfl rfl
  have hopening := (hscans _ hclosing).opening hsolid.1 hopens
  rw [show ("(" ++ s ++ ")").toList ++ x = '(' :: (s.toList ++ ')' :: x) by simp]
  simpa [ofTokens, ofToken] using hopening

/-- A text in brackets is one group. -/
theorem Lexes.bracket (hs : Lexes s L F) (hF : ∀ x, F (']' :: x)) :
    Lexes ("[" ++ s ++ "]") (groups .bracket L) fun _ => True := by
  intro x _ line
  obtain ⟨ts, hts, line', hscans⟩ := hs _ (hF x) line
  refine ⟨_, ⟨ts, hts, rfl⟩, line', fun ls h => ?_⟩
  have hsolid : IsSolid '[' ∧ IsSolid ']' := by decide
  have hclosing := h.closing hsolid.2 (r := x) rfl rfl
  have hopening := (hscans _ hclosing).opening hsolid.1 rfl
  rw [show ("[" ++ s ++ "]").toList ++ x = '[' :: (s.toList ++ ']' :: x) by simp]
  simpa [ofTokens, ofToken] using hopening

/-! ### Phrases -/

/-- Whether a text is cut into tokens of a language in front of all that ends a token, and starts
with a token. -/
structure IsPhrase (s : String) (L : Language Token) : Prop where
  lexes : Lexes s L Stops
  starts : ∀ x, Starts (s.toList ++ x)

/-- Whether a text can stand in front of a phrase; it may be empty. -/
structure IsLead (s : String) (L : Language Token) : Prop where
  lexes : Lexes s L Starts
  starts : ∀ x, Starts x → Starts (s.toList ++ x)

/-- Whether a text can stand behind a phrase; it may be empty. -/
structure IsTail (s : String) (L : Language Token) : Prop where
  lexes : Lexes s L Stops
  stops : ∀ x, Stops x → Stops (s.toList ++ x)

/-- Whether a text can stand between two phrases. -/
structure IsSeparator (s : String) (L : Language Token) : Prop where
  lexes : Lexes s L Starts
  stops : ∀ x, Stops (s.toList ++ x)

theorem starts_append {t : List Char} (hs : s.toList = c :: t) (hc : IsSolid c) (x : List Char) :
    Starts (s.toList ++ x) :=
  ⟨c, t ++ x, by rw [hs, List.cons_append], hc⟩

theorem stops_cons (hc : c ∈ " ,;:<>()]".toList) (x : List Char) : Stops (c :: x) := by
  intro d hd
  rwa [← Option.some.inj hd]

theorem stops_append {t : List Char} (hs : s.toList = c :: t) (hc : c ∈ " ,;:<>()]".toList)
    (x : List Char) : Stops (s.toList ++ x) := by
  rw [hs]
  exact stops_cons hc _

/-- A name is a phrase. -/
theorem isPhrase_word {name : String} (hname : IsNameText name) : IsPhrase name (words name) := by
  obtain ⟨c, t, hcs, hc⟩ := IsName.exists_cons hname
  exact ⟨lexes_words hname, starts_append hcs (isLeafStart_of_isIdentStart hc).1⟩

/-- A lifetime is a phrase. -/
theorem isPhrase_lifetime {name : String} (hname : IsLifetimeText name) :
    IsPhrase name (single (.lifetime name)) := by
  obtain ⟨w, hcs, -⟩ := id hname
  exact ⟨lexes_lifetime hname, starts_append hcs (by decide)⟩

theorem isPhrase_mark (hs : s.toList = [c]) (hc : c ∈ marksOfTypes) : IsPhrase s (marks c) :=
  ⟨(lexes_marks hs hc).mono fun _ _ => trivial, starts_append hs (of_mem_marksOfTypes hc).1.1⟩

theorem isLead_empty : IsLead "" 1 := ⟨lexes_empty, fun _ hx => hx⟩

theorem isLead_mark (hs : s.toList = [c]) (hc : c ∈ marksOfTypes) : IsLead s (marks c) :=
  ⟨(lexes_marks hs hc).mono fun _ _ => trivial,
    fun x _ => starts_append hs (of_mem_marksOfTypes hc).1.1 x⟩

theorem isLead_operator {d : Char} (hs : s.toList = [c, d]) (hc : c ∈ marksOfTypes)
    (hd : d ∈ marksOfTypes) : IsLead s (operators c d) :=
  ⟨(lexes_operators hs hc hd).mono fun _ _ => trivial,
    fun x _ => starts_append hs (of_mem_marksOfTypes hc).1.1 x⟩

/-- A phrase with a blank behind it. -/
theorem IsPhrase.blank (hs : IsPhrase s L) : IsLead (s ++ " ") L := by
  refine ⟨hs.lexes.blank (stops_cons (by decide)), fun x _ => ?_⟩
  rw [String.toList_append, List.append_assoc]
  exact hs.starts _

/-- Two texts that can stand in front of a phrase can do so in a row. -/
theorem IsLead.append (hs : IsLead s L) (hs' : IsLead s' L') : IsLead (s ++ s') (L * L') := by
  refine ⟨hs.lexes.append hs'.lexes hs'.starts, fun x hx => ?_⟩
  rw [String.toList_append, List.append_assoc]
  exact hs.starts _ (hs'.starts x hx)

theorem IsLead.ite (hs : IsLead s L) (b : Bool) :
    IsLead (if b then s else "") (if b then L else 1) := by
  cases b
  · exact isLead_empty
  · exact hs

/-- A phrase with a text in front is a phrase. -/
theorem IsLead.phrase (hs : IsLead s L) (hs' : IsPhrase s' L') : IsPhrase (s ++ s') (L * L') := by
  refine ⟨hs.lexes.append hs'.lexes fun x _ => hs'.starts x, fun x => ?_⟩
  rw [String.toList_append, List.append_assoc]
  exact hs.starts _ (hs'.starts x)

theorem isTail_empty : IsTail "" 1 := ⟨lexes_empty, fun _ hx => hx⟩

/-- A phrase with a text behind it is a phrase. -/
theorem IsPhrase.tail (hs : IsPhrase s L) (hs' : IsTail s' L') : IsPhrase (s ++ s') (L * L') := by
  refine ⟨hs.lexes.append hs'.lexes hs'.stops, fun x => ?_⟩
  rw [String.toList_append, List.append_assoc]
  exact hs.starts _

/-- A separator and a phrase can stand behind a phrase. -/
theorem IsSeparator.tail (hs : IsSeparator s L) (hs' : IsPhrase s' L') :
    IsTail (s ++ s') (L * L') := by
  refine ⟨hs.lexes.append hs'.lexes fun x _ => hs'.starts x, fun x _ => ?_⟩
  rw [String.toList_append, List.append_assoc]
  exact hs.stops _

/-- A separator with a blank behind it. -/
theorem isSeparator_blank (hs : Lexes s L fun _ => True) {t : List Char} (hcs : s.toList = c :: t)
    (hc : c ∈ " ,;:<>()]".toList) : IsSeparator (s ++ " ") L := by
  refine ⟨hs.blank fun _ => trivial, fun x => ?_⟩
  rw [String.toList_append, List.append_assoc]
  exact stops_append hcs hc _

/-- A separator between two blanks. -/
theorem isSeparator_blanks (hs : Lexes s L fun _ => True) {t : List Char} (hcs : s.toList = c :: t)
    (hc : IsSolid c) : IsSeparator (" " ++ (s ++ " ")) L := by
  have hstarts (x : List Char) (_ : Starts x) : Starts ((s ++ " ").toList ++ x) := by
    rw [String.toList_append, List.append_assoc]
    exact starts_append hcs hc _
  refine ⟨(hs.blank fun _ => trivial).behind_blank hstarts, fun x => ?_⟩
  rw [String.toList_append, List.append_assoc]
  exact stops_cons (by decide) _

/-- Two phrases with a separator in between. -/
theorem IsPhrase.separated (hs : IsPhrase s L) {sep : String} (hsep : IsSeparator sep S)
    (hs' : IsPhrase s' L') : IsPhrase (s ++ sep ++ s') (L * S * L') := by
  rw [String.append_assoc, mul_assoc]
  exact hs.tail (hsep.tail hs')

/-- Phrases with separators in between are a phrase. -/
theorem isPhrase_joinTexts {sep : String} (hsep : IsSeparator sep S) {ss : List String}
    {Ls : List (Language Token)} (h : List.Forall₂ IsPhrase ss Ls) (hne : ss ≠ []) :
    IsPhrase (joinTexts sep ss) (joined S Ls) := by
  induction h with
  | nil => exact absurd rfl hne
  | @cons s L ss Ls hs h ih =>
    cases h with
    | nil => exact hs
    | cons hs' h => exact hs.separated hsep (ih (List.cons_ne_nil _ _))

/-- Phrases with separators in between are cut into their tokens, also if there are none. -/
theorem lexes_joinTexts {sep : String} (hsep : IsSeparator sep S) {ss : List String}
    {Ls : List (Language Token)} (h : List.Forall₂ IsPhrase ss Ls) :
    Lexes (joinTexts sep ss) (joined S Ls) Stops := by
  cases h with
  | nil => exact lexes_empty
  | cons hs h => exact (isPhrase_joinTexts hsep (.cons hs h) (List.cons_ne_nil _ _)).lexes

theorem IsPhrase.head?_ne (hs : IsPhrase s L) (x : List Char) :
    (s.toList ++ x).head? ≠ some '/' := by
  obtain ⟨c, r, hcs, hc⟩ := hs.starts x
  rw [hcs, List.head?_cons]
  exact fun hslash => hc.2.1 (Option.some.inj hslash)

/-- Phrases with separators in between do not start a comment. -/
theorem head?_joinTexts_ne {sep : String} (hsep : IsSeparator sep S) {ss : List String}
    {Ls : List (Language Token)} (h : List.Forall₂ IsPhrase ss Ls) (hx : Stops x) :
    ((joinTexts sep ss).toList ++ x).head? ≠ some '/' := by
  cases h with
  | nil =>
    intro hslash
    exact absurd (hx _ hslash) (by decide)
  | cons hs h => exact (isPhrase_joinTexts hsep (.cons hs h) (List.cons_ne_nil _ _)).head?_ne x

/-- A text in parentheses is a phrase. -/
theorem isPhrase_paren {u : String} (hu : u = "(" ++ s) (hs : Lexes s L Stops)
    (hstart : ∀ x, Stops x → (s.toList ++ x).head? ≠ some '/') :
    IsPhrase (u ++ ")") (groups .paren L) := by
  have hclosing (x : List Char) : Stops (')' :: x) := stops_cons (by decide) x
  rw [hu]
  refine ⟨(hs.paren hclosing fun x => hstart _ (hclosing x)).mono fun _ _ => trivial, fun x => ?_⟩
  rw [String.append_assoc]
  exact starts_append (c := '(') (by simp; rfl) (by decide) x

/-- A text in brackets is a phrase. -/
theorem isPhrase_bracket {u : String} (hu : u = "[" ++ s) (hs : Lexes s L F)
    (hF : ∀ x, F (']' :: x)) : IsPhrase (u ++ "]") (groups .bracket L) := by
  rw [hu]
  refine ⟨(hs.bracket hF).mono fun _ _ => trivial, fun x => ?_⟩
  rw [String.append_assoc]
  exact starts_append (c := '[') (by simp; rfl) (by decide) x

/-- A phrase by itself is a text with tokens of its language. -/
theorem IsPhrase.lex? (hs : IsPhrase s L) : ∃ ts ∈ L, Token.lex? s = some ts := by
  have hstops : Stops [] := by simp [Stops]
  obtain ⟨ts, hts, line', hscans⟩ := hs.lexes [] hstops 1
  have hscan := hscans [] (scans_nil line')
  rw [List.append_nil, List.append_nil] at hscan
  refine ⟨ts, hts, ?_⟩
  obtain ⟨c, r, hcs, hc⟩ := hs.starts []
  rw [List.append_nil] at hcs
  -- The lexemes of tokens are nested back into them.
  have hnest := nest_ofTokens [] [] [] ts
  rw [List.append_nil, List.append_nil, nest] at hnest
  unfold Token.lex?
  dsimp only
  split
  · next heq =>
    rw [hcs] at heq
    exact absurd (List.cons.inj heq).1 hc.2.2
  · rw [hscan _ (Nat.le_refl _), Option.bind_some, hnest]
    simp

end Lexeme

end FieldBinder
