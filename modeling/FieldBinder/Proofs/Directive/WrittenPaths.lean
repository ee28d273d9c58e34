import FieldBinder.Proofs.Directive.Names
import FieldBinder.Proofs.Grammar.MetaItems

/-!
# Written paths in directives

How the paths of a directive are written, and what is read where they stand: bare or in a string
literal (`Path.written`), as an element of an array, as a value, or in parentheses, where a path
that starts with `::` is understood in a string literal only (`Path.enclosed`, `itemsOf_eq_error`).
A key has its paths behind an equals sign or in parentheses (`keySpelling`).
-/

namespace FieldBinder

open Grammar
open Token (sizeList marks operators groups words listed)

/-! ### How paths are written -/

/-- The string literals that hold the tokens of a path. -/
def Path.quoted (p : Path) : Language Token :=
  {ts | ∃ text value us, ts = [.literal text] ∧ Literal.kind text = .string ∧
    Literal.stringValue text = (value, "") ∧ Token.lex? value = some us ∧ us ∈ p.spelling}

/-- The tokens of a path, bare or in a string literal. -/
def Path.written (p : Path) : Language Token := p.spelling + p.quoted

/-- The tokens of a path that are understood in parentheses: a path that starts with `::` has to be
in a string literal there. -/
def Path.enclosed (p : Path) : Language Token :=
  (if p.isLeading then 0 else p.spelling) + p.quoted

theorem Path.mem_written_iff {p : Path} {ts : List Token} :
    ts ∈ p.written ↔ ts ∈ p.enclosed ∨ p.isLeading = true ∧ ts ∈ p.spelling := by
  rw [written, enclosed, Language.mem_add, Language.mem_add]
  cases p.isLeading with
  | true => simp [or_comm]
  | false => simp

/-- The tokens that a simple path prints are a spelling of it. -/
theorem Path.IsSimple.tokens_mem_spelling {p : Path} (hp : p.IsSimple) : p.tokens ∈ p.spelling := by
  -- The spelling joins the segments with `::`, and the tokens have one between any two.
  have hsegments (ss : List Segment) (hss : ∀ s ∈ ss, ∃ w, s = .mk w .none) :
      Segment.tokensList ss ∈ Token.joined (operators ':' ':') (Segment.spellingList ss) := by
    induction ss with
    | nil => exact rfl
    | cons s ss ih =>
      obtain ⟨⟨w, rfl⟩, hmore⟩ := List.forall_mem_cons.1 hss
      have hword : (Segment.mk w .none).tokens ∈ (Segment.mk w .none).spelling := by
        rw [Segment.spelling_word]
        exact ⟨0, rfl⟩
      cases ss with
      | nil => exact hword
      | cons s' ss =>
        have hcolons : Token.operator [':', ':'] ∈ operators ':' ':' := ⟨false, rfl⟩
        rw [Segment.tokensList, Segment.spellingList, Segment.spellingList, Token.joined, mul_assoc]
        exact Language.append_mem_mul hword (Language.append_mem_mul hcolons (ih hmore))
  obtain ⟨leading, segments⟩ := p
  have hwords : ∀ s ∈ segments, ∃ w, s = Segment.mk w .none := by
    intro s hs
    obtain ⟨w, -, heq⟩ := hp.exists_word hs
    exact ⟨w, heq⟩
  rw [Path.tokens, Path.spelling]
  refine Language.append_mem_mul ?_ (hsegments segments hwords)
  cases leading with
  | true => exact ⟨false, rfl⟩
  | false => exact rfl

/-- A simple path of words is written in full. -/
theorem Path.IsSimple.sound {p : Path} (hp : p.IsSimple) (hnamed : p.IsNamed) :
    p.Sound false ∧ p.Structural := by
  have hwords : ∀ s ∈ p.segments, ∃ w, isTypeWord w = true ∧ s = .mk w .none :=
    fun _ => hp.exists_word
  obtain ⟨leading, segments⟩ := p
  rw [Path.Sound, Segment.soundList_iff, Path.Structural, Segment.structuralList_iff]
  refine ⟨⟨hp.ne_nil, fun s hs => ?_⟩, fun s hs => ?_⟩
  · obtain ⟨w, hw, rfl⟩ := hwords s hs
    rw [Segment.Sound]
    exact ⟨hnamed w (List.mem_map_of_mem hs), isSegmentWord_of_isTypeWord hw, trivial⟩
  · obtain ⟨w, -, rfl⟩ := hwords s hs
    rw [Segment.Structural]
    trivial

/-- A string literal holds a path if it stands for the written form of the path. -/
theorem Path.IsSimple.literal_mem_quoted {p : Path} (hp : p.IsSimple) (hnamed : p.IsNamed)
    {text : String} (hkind : Literal.kind text = .string)
    (hvalue : Literal.stringValue text = (p.render, "")) : [.literal text] ∈ p.quoted := by
  obtain ⟨hsound, hs⟩ := hp.sound hnamed
  obtain ⟨us, hus, hlex⟩ := (Path.isPhrase_render hsound hs).lex?
  exact ⟨text, _, us, rfl, hkind, hvalue, hlex, hus⟩

theorem literalKind_of_kind {text : String} (h : Literal.kind text = .string) :
    literalKind text = .string := by
  have htruth : ¬(text = "true" ∨ text = "false") := by
    rintro (rfl | rfl) <;> exact absurd h (by decide)
  rw [literalKind, if_neg htruth]
  split
  · next cs hcs =>
    have hnumber : Literal.kind text = if Literal.isWhole ('-' :: cs) then .int else .float := by
      rw [Literal.kind, hcs]
      rfl
    rw [h] at hnumber
    split at hnumber <;> cases hnumber
  · exact h

/-- The path in a string literal is read from it. -/
theorem Path.IsSimple.ofString {p : Path} (hp : p.IsSimple) {text : String}
    (h : [.literal text] ∈ p.quoted) :
    literalKind text = .string ∧ Path.ofString text = .ok p := by
  obtain ⟨text', value, us, heq, hkind, hvalue, hlex, hus⟩ := h
  obtain rfl : text = text' := by simpa using heq
  have hpath : Takes (path (rulesFor us) false) (us ++ []) [] (· = p) :=
    hp.takes_path hus ⟨rfl, rfl⟩
  rw [List.append_nil] at hpath
  obtain ⟨p', hfinish, hp'⟩ := hpath.finish
  rw [hp'] at hfinish
  have hparse : Path.parse value = .ok p := by
    rw [Path.parse, readAll, hlex]
    exact congrArg (Except.mapError TextFault.grammar) hfinish
  refine ⟨literalKind_of_kind hkind, ?_⟩
  rw [Path.ofString, hvalue]
  dsimp only
  rw [hparse]
  rfl

/-! ### How paths are read -/

section Reading

variable {g : Rules} {n size : Nat} {p : Path} {ts us : List Token}

/-- A path in either form is an element of an array. -/
theorem readsItem_written (hp : p.IsSimple) :
    ReadsItem (rules (n + 2) (.expr true)) List.isEmpty EndsItem size p.written
      fun e => Path.ofExpr e = .ok p := by
  intro ts hts hsize
  rcases hts with hbare | hquoted
  · constructor
    · intro us
      obtain ⟨-, joint, r, rfl⟩ | ⟨-, w, ss, line, r, -, -, -, rfl⟩ := hp.starts hbare <;> rfl
    · intro us hus
      refine (takes_expr_path hp hbare hus).mono ?_
      rintro _ rfl
      rfl
  · obtain ⟨text, -, -, rfl, -⟩ := id hquoted
    obtain ⟨hkind, hpath⟩ := hp.ofString hquoted
    refine ⟨fun us => rfl, fun us hus => (takes_expr_literal hus).mono ?_⟩
    rintro _ rfl
    rw [Path.ofExpr, if_pos hkind, hpath]

/-- A path in either form is a value. -/
theorem takes_attributeValue_written (hp : p.IsSimple) (hts : ts ∈ p.written) (hus : EndsItem us) :
    Takes (attributeValue (rules (n + 2))) (ts ++ us) us fun e => Path.ofExpr e = .ok p := by
  rcases hts with hbare | hquoted
  · obtain ⟨hstart, hliteral⟩ := startsAtom_path us hp hbare
    refine takes_attributeValue hliteral (hstart "#" (by simp)) <|
      (takes_expr_path hp hbare hus).mono ?_
    rintro _ rfl
    rfl
  · obtain ⟨text, -, -, rfl, -⟩ := id hquoted
    obtain ⟨hkind, hpath⟩ := hp.ofString hquoted
    refine (takes_attributeValue_literal hus).mono ?_
    rintro _ rfl
    rw [Path.ofExpr, if_pos hkind, hpath]

theorem readsItem_enclosed (hp : p.IsSimple) :
    ReadsItem (metaItem g) List.isEmpty EndsItem size p.enclosed fun i => i.path = .ok p := by
  intro ts hts hsize
  rcases hts with hbare | hquoted
  · -- A bare path is written without a leading `::`; with one it would have no spelling here.
    obtain ⟨hleading, hbare⟩ : p.isLeading = false ∧ ts ∈ p.spelling := by
      cases hleading : p.isLeading with
      | true =>
        rw [hleading] at hbare
        exact absurd hbare (Language.notMem_zero ts)
      | false =>
        rw [hleading] at hbare
        exact ⟨rfl, hbare⟩
    constructor
    · intro us
      obtain ⟨-, joint, r, rfl⟩ | ⟨-, w, ss, line, r, -, -, -, rfl⟩ := hp.starts hbare <;> rfl
    · intro us hus
      refine (takes_metaItem_path hp hleading hbare hus).mono ?_
      rintro _ rfl
      rfl
  · -- A path in quotes is a literal item, and its text is read as a path afterwards.
    obtain ⟨text, -, -, rfl, -⟩ := id hquoted
    obtain ⟨hkind, hpath⟩ := hp.ofString hquoted
    refine ⟨fun us => rfl, fun us _ => takes_metaItem_literal.mono ?_⟩
    rintro _ rfl
    rw [MetaItem.path, if_pos hkind, hpath]

end Reading

/-! ### Lists in parentheses -/

section Lists

variable {g : Rules} {ps : List Path} {body : List Token}

/-- A list of paths is understood in parentheses, or behind paths that are it comes to one that
starts with `::`. -/
theorem mem_listed_enclosed_or_fails (hps : ∀ p ∈ ps, p.IsSimple)
    (h : body ∈ listed ',' (ps.map Path.written)) :
    body ∈ listed ',' (ps.map Path.enclosed) ∨ FailsBehind ',' (metaItem g) List.isEmpty
      ⟨false, .expected "identifier or literal"⟩ body := by
  -- the paths in front of the first one that starts with `::` are read, and then it fails
  induction ps generalizing body with
  | nil => exact .inl h
  | cons p ps ih =>
    obtain ⟨hp, hps⟩ := List.forall_mem_cons.1 hps
    have hcolons {us : List Token} (vs : List Token) (hleading : p.isLeading = true)
        (hus : us ∈ p.spelling) : FailsBehind ',' (metaItem g) List.isEmpty
          ⟨false, .expected "identifier or literal"⟩ (us ++ vs) := by
      obtain ⟨-, joint, r, rfl⟩ | ⟨hfalse, -⟩ := hp.starts hus
      · exact .here rfl fails_metaItem_colons
      · rw [hleading] at hfalse
        cases hfalse
    obtain ⟨hlast, hbody⟩ | ⟨us, hus, joint, vs, hvs, rfl⟩ := mem_listed_cons.1 h
    · obtain rfl : ps = [] := List.map_eq_nil_iff.1 hlast
      rcases Path.mem_written_iff.1 hbody with hbody | ⟨hleading, hbody⟩
      · exact .inl (mem_listed_last hbody)
      · have hfails := hcolons [] hleading hbody
        rw [List.append_nil] at hfails
        exact .inr hfails
    · rcases Path.mem_written_iff.1 hus with hus | ⟨hleading, hus⟩
      · rcases ih hps hvs with hvs | hvs
        · exact .inl (mem_listed_behind hus joint hvs)
        · obtain ⟨hstart, hread⟩ := readsItem_enclosed (g := g) hp us hus le_rfl
          exact .inr (.behind (hstart _) (hread _ (.inr ⟨joint, vs, rfl⟩)) hvs)
      · exact .inr (hcolons _ hleading hus)

/-- The items of a list in parentheses are its paths. -/
theorem exists_itemsOf_eq_ok (hps : ∀ p ∈ ps, p.IsSimple)
    (h : body ∈ listed ',' (ps.map Path.enclosed)) :
    ∃ items, itemsOf body = .ok items ∧
      List.Forall₂ (fun p (i : MetaItem) => i.path = .ok p) ps items := by
  obtain ⟨items, hitems, hforall⟩ :=
    exists_metaItems_eq_ok (fun p hp => readsItem_enclosed (hps p hp)) h
  exact ⟨items, by rw [itemsOf, hitems]; rfl, hforall⟩

/-- What is said of a bare path that starts with `::` in parentheses. -/
def colonsFault : ArgumentFault :=
  .syntax_ (.grammar ⟨false, .expected "identifier or literal"⟩)

theorem itemsOf_eq_error (hps : ∀ p ∈ ps, p.IsSimple)
    (h : body ∈ listed ',' (ps.map Path.written))
    (hnot : body ∉ listed ',' (ps.map Path.enclosed)) : itemsOf body = .error colonsFault := by
  have hfails := (mem_listed_enclosed_or_fails (g := rulesFor body) hps h).resolve_left hnot
  rw [itemsOf, metaItems_eq_error hfails]
  rfl

end Lists

/-! ### Keys -/

/-- The tokens of a key: a value behind an equals sign, or a list in parentheses. -/
def keySpelling (key : String) (value inside : Language Token) : Language Token :=
  words key * (marks '=' * value + groups .paren inside)

section Membership

variable {key : String} {value inside : Language Token} {line : Nat} {ts : List Token}

theorem value_mem_keySpelling (hts : ts ∈ value) (joint : Bool) :
    .ident key line :: .punct '=' joint :: ts ∈ keySpelling key value inside := by
  have hmark : [.punct '=' joint] ∈ marks '=' := ⟨joint, rfl⟩
  exact Language.append_mem_mul (show [.ident key line] ∈ words key from ⟨line, rfl⟩)
    (.inl (Language.append_mem_mul hmark hts))

theorem list_mem_keySpelling (hts : ts ∈ inside) :
    [.ident key line, .group .paren ts] ∈ keySpelling key value inside :=
  Language.append_mem_mul (show [.ident key line] ∈ words key from ⟨line, rfl⟩)
    (.inr ⟨ts, hts, rfl⟩)

end Membership

/-- Whether an item is the value of a key, from which a certain result is read. -/
def MetaItem.Gives {α : Type} (key : String) (ofItems : List MetaItem → Except ArgumentFault α)
    (ofExpr : Expr → Except ArgumentFault α) (result : Except ArgumentFault α) (i : MetaItem) :
    Prop :=
  ((∃ tokens, i = .list (.ofIdent key) tokens) ∨ ∃ e, i = .value (.ofIdent key) e) ∧
    i.read ofItems ofExpr = result

/-- Whether tokens are one item in the list of an attribute, with a property. -/
def ReadsEntry (ts : List Token) (P : MetaItem → Prop) : Prop :=
  ∀ n us, (ts ++ us).isEmpty = false ∧
    (EndsItem us → Takes (metaItem (rules (n + 6))) (ts ++ us) us P)

section Keys

variable {α : Type} {key : String} {ofItems : List MetaItem → Except ArgumentFault α}
  {ofExpr : Expr → Except ArgumentFault α} {value inside : Language Token} {a : α}
  {ts : List Token}

theorem readsEntry_value (hkey : isTypeWord key = true) {line : Nat} {joint : Bool}
    (h : ∀ n us, EndsItem us →
      Takes (attributeValue (rules (n + 6))) (ts ++ us) us fun e => ofExpr e = .ok a) :
    ReadsEntry (.ident key line :: .punct '=' joint :: ts)
      (·.Gives key ofItems ofExpr (.ok a)) := by
  refine fun n us => ⟨rfl, fun hus => (takes_metaItem_value hkey (h n us hus)).mono ?_⟩
  rintro _ ⟨e, rfl, he⟩
  exact ⟨.inr ⟨e, rfl⟩, he⟩

theorem readsEntry_list (hkey : isTypeWord key = true) (line : Nat) (body : List Token)
    (ofItems : List MetaItem → Except ArgumentFault α)
    (ofExpr : Expr → Except ArgumentFault α) :
    ReadsEntry [.ident key line, .group .paren body]
      (·.Gives key ofItems ofExpr (itemsOf body >>= ofItems)) := by
  refine fun n us => ⟨rfl, fun _ => (takes_metaItem_list hkey).mono ?_⟩
  rintro _ rfl
  exact ⟨.inl ⟨body, rfl⟩, rfl⟩

/-- A key gives the result that its value and its list give. -/
theorem readsEntry_ok (hkey : isTypeWord key = true)
    (hvalue : ∀ ts ∈ value, ∀ n us, EndsItem us →
      Takes (attributeValue (rules (n + 6))) (ts ++ us) us fun e => ofExpr e = .ok a)
    (hinside : ∀ body ∈ inside, itemsOf body >>= ofItems = .ok a)
    (hts : ts ∈ keySpelling key value inside) :
    ReadsEntry ts (·.Gives key ofItems ofExpr (.ok a)) := by
  obtain ⟨_, ⟨line, rfl⟩, _, hvalueOrList, rfl⟩ := Language.mem_mul.1 hts
  rcases hvalueOrList with hmem | ⟨body, hbody, rfl⟩
  · obtain ⟨_, ⟨joint, rfl⟩, vs, hvs, rfl⟩ := Language.mem_mul.1 hmem
    exact readsEntry_value hkey (hvalue vs hvs)
  · have hlist := readsEntry_list hkey line body ofItems ofExpr
    rwa [hinside body hbody] at hlist

/-- A key gives no result if it has a list that gives none. -/
theorem readsEntry_error (hkey : isTypeWord key = true) {inside' : Language Token}
    (hinside : ∀ body ∈ inside', body ∉ inside → ∃ f, itemsOf body >>= ofItems = .error f)
    (hts : ts ∈ keySpelling key value inside') (hnot : ts ∉ keySpelling key value inside) :
    ∃ f, ReadsEntry ts (·.Gives key ofItems ofExpr (.error f)) := by
  obtain ⟨_, ⟨line, rfl⟩, _, hvalueOrList, rfl⟩ := Language.mem_mul.1 hts
  rcases hvalueOrList with hmem | ⟨body, hbody, rfl⟩
  · obtain ⟨_, ⟨joint, rfl⟩, vs, hvs, rfl⟩ := Language.mem_mul.1 hmem
    exact absurd (value_mem_keySpelling hvs joint) hnot
  · have hbody' : body ∉ inside := fun hmem => hnot (list_mem_keySpelling hmem)
    obtain ⟨f, hf⟩ := hinside body hbody hbody'
    have hlist := readsEntry_list hkey line body ofItems ofExpr
    rw [hf] at hlist
    exact ⟨f, hlist⟩

end Keys

end FieldBinder
