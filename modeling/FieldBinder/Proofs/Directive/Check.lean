import FieldBinder.Directive.Check
import FieldBinder.Field.Basic
import FieldBinder.Proofs.Attempts
import FieldBinder.Proofs.Source.Quoted

/-!
# The check of directives and what they mean

A directive passes the check when its arguments can be read, both are there, and no path in them has
arguments (`Complaint.Passes`).  Then in every scope it means its types, unless a path climbs out of
the crate (`Directive.failsOnlyOutside_load`), and a directive that means its types in some scope
passes (`Directive.passes_of_isComplete_load`).  The complaints about a struct are read back from
their text as one macro call each (`Complaint.lex?_macroCalls`).
-/

namespace FieldBinder

/-! ### Paths -/

namespace Scope

variable {s : Scope} {p : Path}

/-- A path that means something has no arguments. -/
theorem isPlain_of_resolve_eq_ok {t : TypeName} (h : s.resolve p = .ok t) : p.isPlain = true := by
  rw [resolve] at h
  split at h
  · cases h
  · next hp => simpa using hp

/-- A path without arguments fails to name a type only when it climbs out of the crate. -/
theorem eq_outsideCrate_of_resolve_eq_error (hp : p.isPlain = true) {fault : PathFault}
    (h : s.resolve p = .error fault) : fault = .outsideCrate p.display := by
  rw [resolve, hp] at h
  simp only [Bool.not_true, Bool.false_eq_true, if_false] at h
  split at h
  · cases h
  · cases h
    rfl

end Scope

/-- Whether a symbol has no type since a path climbs out of the crate. -/
def SymbolFault.IsOutside (f : SymbolFault) : Prop := ∃ path, f = .path (.outsideCrate path)

namespace Directive

variable {s : Scope} {p : Path}

theorem isPlain_of_resolvePath_eq_ok {t : TypeName} (h : resolvePath s p = .ok t) :
    p.isPlain = true := by
  rw [resolvePath] at h
  cases hr : s.resolve p with
  | ok u => exact Scope.isPlain_of_resolve_eq_ok hr
  | error fault =>
    rw [hr] at h
    cases h

/-- A path without arguments can fail only by leading out of the crate. -/
theorem isOutside_of_resolvePath_eq_error (hp : p.isPlain = true) {f : SymbolFault}
    (h : resolvePath s p = .error f) : f.IsOutside := by
  rw [resolvePath] at h
  cases hr : s.resolve p with
  | ok u =>
    rw [hr] at h
    cases h
  | error fault =>
    rw [hr, Scope.eq_outsideCrate_of_resolve_eq_error hp hr] at h
    cases h
    exact ⟨_, rfl⟩

end Directive

/-! ### Directives -/

namespace Complaint

/-- Whether the arguments of a directive can be read, both are there, and no path in them has
arguments of its own. -/
def Passes (a : Attribute) : Prop :=
  ∃ args ps base, Arguments.ofAttribute a = .ok args ∧ args.parameters = some ps ∧
    args.base = some base ∧ ∀ p ∈ ps ++ [base], p.isPlain = true

/-- A path is complained about if it has arguments. -/
theorem ofPath?_eq_none_iff {p : Path} : ofPath? p = none ↔ p.isPlain = true := by
  unfold ofPath?
  split <;> simp [*]

/-- There is no complaint about a directive just when it is as it should be. -/
theorem ofDirective?_eq_none_iff {a : Attribute} : ofDirective? a = none ↔ Passes a := by
  unfold ofDirective? Passes
  cases Arguments.ofAttribute a with
  | error fault => simp
  | ok args =>
    obtain ⟨ps, base⟩ := args
    cases ps with
    | none => simp
    | some ps =>
      cases base with
      | none => simp
      | some base => simp [List.findSome?_eq_none_iff, ofPath?_eq_none_iff, or_imp, forall_and]

instance (a : Attribute) : Decidable (Passes a) :=
  decidable_of_iff ((ofDirective? a).isNone = true)
    (Option.isNone_iff_eq_none.trans ofDirective?_eq_none_iff)

end Complaint

namespace Directive

open Complaint

/-- Whether every symbol of a directive has its type, or lacks it only since a path climbs out of
the crate. -/
def FailsOnlyOutside (d : Directive) : Prop :=
  (∀ f, d.parameters = .error f → f.IsOutside) ∧ ∀ f, d.base = .error f → f.IsOutside

/-- Whether both symbols of a directive have their types. -/
def IsComplete (d : Directive) : Prop :=
  (∃ ts, d.parameters = .ok ts) ∧ ∃ t, d.base = .ok t

/-- A directive that passes the check can fail only by paths that lead out of the crate. -/
theorem failsOnlyOutside_load {a : Attribute} (h : Passes a) (s : Scope) :
    (load s a).FailsOnlyOutside := by
  obtain ⟨args, ps, base, hargs, hps, hbase, hplain⟩ := h
  have hload : load s a = ⟨args, ps.mapM (resolvePath s), resolvePath s base⟩ := by
    rw [load, hargs]
    simp only [ofArguments, hps, hbase]
  rw [hload]
  constructor
  · intro f hf
    obtain ⟨p, hp, hpf⟩ := exists_mem_of_mapM_eq_error hf
    exact isOutside_of_resolvePath_eq_error (hplain p (List.mem_append_left _ hp)) hpf
  · intro f hf
    exact isOutside_of_resolvePath_eq_error
      (hplain base (List.mem_append_right _ (List.mem_singleton_self _))) hf

/-- A directive that is complete in some scope passes the check. -/
theorem passes_of_isComplete_load {a : Attribute} {s : Scope} (h : (load s a).IsComplete) :
    Passes a := by
  obtain ⟨⟨ts, hts⟩, t, ht⟩ := h
  unfold load at hts ht
  split at hts
  · next args hargs =>
    simp only [hargs, ofArguments] at hts ht
    split at hts
    · next ps hps =>
      split at ht
      · next base hbase =>
        refine ⟨args, ps, base, hargs, hps, hbase, fun p hp => ?_⟩
        rcases List.mem_append.1 hp with hp | hp
        · obtain ⟨u, hu⟩ := exists_of_mapM_eq_ok hts p hp
          exact isPlain_of_resolvePath_eq_ok hu
        · obtain rfl := List.mem_singleton.1 hp
          exact isPlain_of_resolvePath_eq_ok ht
      · cases ht
    · cases hts
  · cases hts

/-- What a directive lacks is a type that one of its symbols lacks. -/
theorem isOutside_of_extract_eq_error {d : Directive} (h : d.FailsOnlyOutside) {gap : Gap}
    (hgap : d.extract = .error gap) : gap.fault.IsOutside := by
  obtain ⟨args, parameters, base⟩ := d
  cases parameters with
  | error f =>
    cases hgap
    exact h.1 f rfl
  | ok ts =>
    cases base with
    | error f =>
      cases hgap
      exact h.2 f rfl
    | ok t => cases hgap

end Directive

/-! ### Structs -/

namespace Complaint

/-- The directives of the fields of a struct, in order. -/
def directivesOf (fields : List NamedField) : List Attribute :=
  fields.flatMap fun f => directives f.attributes

/-- The directives that are checked are the attributes of fields under the marker. -/
theorem mem_directivesOf {fields : List NamedField} {a : Attribute} : a ∈ directivesOf fields ↔
    ∃ f ∈ fields, a ∈ f.attributes ∧ a.path.isIdent marker = true := by
  simp [directivesOf, directives]

/-- Fields are complained about in their order. -/
theorem ofFields_named (fields : List NamedField) :
    ofFields (.named fields) = (directivesOf fields).filterMap ofDirective? := by
  rw [ofFields, directivesOf, List.filterMap_flatMap]

/-- The directives that do not pass are complained about one by one. -/
theorem forall₂_filterMap_ofDirective? (l : List Attribute) :
    List.Forall₂ (fun a c => ofDirective? a = some c) (l.filter (¬ Passes ·))
      (l.filterMap ofDirective?) := by
  induction l with
  | nil => exact .nil
  | cons a r ih =>
    cases h : ofDirective? a with
    | none =>
      rw [List.filterMap_cons_none h,
        List.filter_cons_of_neg (by simpa [← ofDirective?_eq_none_iff])]
      exact ih
    | some c =>
      rw [List.filterMap_cons_some h,
        List.filter_cons_of_pos (by simp [← ofDirective?_eq_none_iff, h])]
      exact .cons h ih

/-! ### Macro calls -/

/-- The tokens of the macro call that reports a complaint. -/
def callTokens (c : Complaint) : List Token :=
  [.punct ':' true, .punct ':' false, .ident "core" 1, .punct ':' true, .punct ':' false,
    .ident "compile_error" 1, .punct '!' false, .group .brace [.literal (Text.quote c.message)]]

/-- The number of calls of the reporting macro among tokens. -/
def callCount (ts : List Token) : Nat :=
  ts.countP fun
    | .ident name _ => name == "compile_error"
    | _ => false

/-- The lexemes in front of the message of a complaint. -/
def openingLexemes : List Lexeme :=
  [.tokens [.punct ':' true], .tokens [.punct ':' false], .tokens [.ident "core" 1],
    .tokens [.punct ':' true], .tokens [.punct ':' false], .tokens [.ident "compile_error" 1],
    .tokens [.punct '!' false], .opening .brace]

/-- The lexemes of the macro call that reports a complaint. -/
def callLexemes (c : Complaint) : List Lexeme :=
  openingLexemes ++ [.tokens [.literal (Text.quote c.message)], .closing .brace]

open Lexeme

/-- The words of a call are cut up to the quote. -/
theorem scan?_opening {n : Nat} {r : List Char} {ls : List Lexeme}
    (h : scan? n 1 ('"' :: r) = some ls) :
    scan? (n + 14) 1 (":: core :: compile_error ! \x7b ".toList ++ '"' :: r) =
      some (openingLexemes ++ ls) := by
  have hsteps : scan? (n + 14) 1 (":: core :: compile_error ! \x7b ".toList ++ '"' :: r) =
      ((((((((scan? n 1 ('"' :: r)).map (.opening .brace :: ·)).map
        (.tokens [.punct '!' false] :: ·)).map (.tokens [.ident "compile_error" 1] :: ·)).map
        (.tokens [.punct ':' false] :: ·)).map (.tokens [.punct ':' true] :: ·)).map
        (.tokens [.ident "core" 1] :: ·)).map (.tokens [.punct ':' false] :: ·)).map
        (.tokens [.punct ':' true] :: ·) := rfl
  rw [hsteps, h]
  rfl

/-- A quoted message is one literal, and then the brace is closed. -/
theorem scan?_quote_closing (s : String) {n : Nat} {r : List Char} {ls : List Lexeme}
    (h : scan? n 1 r = some ls) :
    scan? (n + 3) 1 ((Text.quote s).toList ++ ' ' :: '\x7d' :: r) =
      some (.tokens [.literal (Text.quote s)] :: .closing .brace :: ls) := by
  have hliteral : Literal.scan? ((Text.quote s).toList ++ ' ' :: '\x7d' :: r) =
      some ((Text.quote s).toList, ' ' :: '\x7d' :: r) := Literal.scan?_quote s rfl
  -- A quoted text has its line feeds escaped, so the line number stays.
  have hlines : lineBreaks (Text.quote s).toList = 0 :=
    List.count_eq_zero.2 (Literal.newline_not_mem_quote s)
  have hclosing : scan? (n + 2) 1 (' ' :: '\x7d' :: r) =
      (scan? n 1 r).map (.closing .brace :: ·) := rfl
  obtain ⟨body, hbody⟩ : ∃ body, (Text.quote s).toList ++ ' ' :: '\x7d' :: r = '"' :: body :=
    ⟨_, by rw [Literal.toList_quote]; rfl⟩
  have hleaf : leaf? 1 ('"' :: body) =
      some (.literal (Text.quote s), (Text.quote s).toList, ' ' :: '\x7d' :: r) := by
    rw [leaf?, ← hbody, hliteral]
    simp only [String.ofList_toList]
  have hscan : scan? (n + 3) 1 ('"' :: body) =
      (scan? (n + 2) (1 + lineBreaks (Text.quote s).toList) (' ' :: '\x7d' :: r)).map
        (.tokens [.literal (Text.quote s)] :: ·) := by
    rw [scan?]
    simp only [hleaf]
    rfl
  rw [hbody, hscan]
  simp only [hlines, Nat.add_zero, hclosing, h, Option.map_some]

/-- A call is its words, the quoted message and a brace. -/
theorem toList_macroCall (c : Complaint) : (macroCall c).toList =
    ":: core :: compile_error ! \x7b ".toList ++
      ((Text.quote c.message).toList ++ [' ', '\x7d']) := by
  have hclosing : " \x7d".toList = [' ', '\x7d'] := rfl
  unfold macroCall
  simp only [String.toList_append, List.append_assoc, hclosing]

/-- A call is cut into the lexemes that it is meant to have, whatever its message is. -/
theorem scan?_macroCall (c : Complaint) {n : Nat} {r : List Char} {ls : List Lexeme}
    (h : scan? n 1 r = some ls) :
    scan? (n + 17) 1 ((macroCall c).toList ++ r) = some (callLexemes c ++ ls) := by
  have hquote := scan?_quote_closing c.message h
  rw [Literal.toList_quote, List.cons_append] at hquote
  rw [toList_macroCall, List.append_assoc, List.append_assoc, Literal.toList_quote,
    List.cons_append, List.cons_append, List.cons_append, List.nil_append, scan?_opening hquote]
  simp [callLexemes]

theorem toList_macroCalls_cons_cons (c c' : Complaint) (cs : List Complaint) :
    (macroCalls (c :: c' :: cs)).toList =
      (macroCall c).toList ++ ' ' :: (macroCalls (c' :: cs)).toList := by
  simp only [macroCalls, List.map_cons, joinTexts, String.toList_append, List.append_assoc]
  rfl

theorem exists_toList_macroCalls (c : Complaint) (cs : List Complaint) :
    ∃ r, (macroCalls (c :: cs)).toList = ':' :: r := by
  cases cs with
  | nil => exact ⟨_, toList_macroCall c⟩
  | cons c' cs =>
    rw [toList_macroCalls_cons_cons, toList_macroCall]
    exact ⟨_, rfl⟩

/-- There are enough characters in the calls to bound the steps of the lexer. -/
theorem length_macroCalls (cs : List Complaint) :
    18 * cs.length ≤ (macroCalls cs).toList.length := by
  have hcall (c : Complaint) : 18 ≤ (macroCall c).toList.length := by
    have hopening : ":: core :: compile_error ! \x7b ".toList.length = 29 := rfl
    rw [toList_macroCall, List.length_append, hopening]
    omega
  induction cs with
  | nil => exact Nat.zero_le _
  | cons c cs ih =>
    cases cs with
    | nil => exact hcall c
    | cons c' cs =>
      have hc := hcall c
      rw [toList_macroCalls_cons_cons, List.length_append, List.length_cons]
      simp only [List.length_cons] at ih ⊢
      omega

/-- All calls are cut into the lexemes that they are meant to have. -/
theorem scan?_macroCalls (cs : List Complaint) {n : Nat} (hn : 18 * cs.length ≤ n) :
    scan? n 1 (macroCalls cs).toList = some (cs.flatMap callLexemes) := by
  induction cs generalizing n with
  | nil => cases n <;> rfl
  | cons c cs ih =>
    rw [List.length_cons] at hn
    -- A call takes seventeen steps of the scanner, and the blank behind it one more.
    obtain ⟨m, rfl⟩ : ∃ m, n = m + 1 + 17 := ⟨n - 18, by omega⟩
    cases cs with
    | nil =>
      have hend : scan? (m + 1) 1 [] = some [] := rfl
      have hcall := scan?_macroCall c hend
      rw [List.append_nil] at hcall
      exact hcall
    | cons c' cs =>
      obtain ⟨r, hr⟩ := exists_toList_macroCalls c' cs
      have hgap : scan? (m + 1) 1 (' ' :: ':' :: r) = scan? m 1 (':' :: r) := rfl
      have hrest : scan? (m + 1) 1 (' ' :: (macroCalls (c' :: cs)).toList) =
          some ((c' :: cs).flatMap callLexemes) := by
        rw [hr, hgap, ← hr]
        exact ih (by omega)
      rw [toList_macroCalls_cons_cons, scan?_macroCall c hrest]
      rfl

/-- The lexemes of the calls nest to one group for each. -/
theorem nest_flatMap_callLexemes (cs : List Complaint) (before : List Token) :
    nest [] before (cs.flatMap callLexemes) = some (before.reverse ++ cs.flatMap callTokens) := by
  induction cs generalizing before with
  | nil => simp [nest]
  | cons c cs ih =>
    have hcall : nest [] before ((c :: cs).flatMap callLexemes) =
        nest [] ((callTokens c).reverse ++ before) (cs.flatMap callLexemes) := rfl
    rw [hcall, ih]
    simp

/-- The text of complaints is read back as one macro call each. -/
theorem lex?_macroCalls (cs : List Complaint) :
    Token.lex? (macroCalls cs) = some (cs.flatMap callTokens) := by
  have hlex : Token.lex? (macroCalls cs) =
      (scan? (macroCalls cs).toList.length 1 (macroCalls cs).toList).bind (nest [] []) := by
    unfold Token.lex?
    split
    · next r hr =>
      -- the text starts with no byte order mark
      cases cs with
      | nil => cases hr
      | cons c cs =>
        obtain ⟨r', hr'⟩ := exists_toList_macroCalls c cs
        rw [hr'] at hr
        cases hr
    · rfl
  rw [hlex, scan?_macroCalls cs (length_macroCalls cs), Option.bind_some,
    nest_flatMap_callLexemes]
  rfl

/-- There is one call for each complaint. -/
theorem callCount_flatMap_callTokens (cs : List Complaint) :
    callCount (cs.flatMap callTokens) = cs.length := by
  induction cs with
  | nil => rfl
  | cons c cs ih =>
    rw [List.flatMap_cons, callCount, List.countP_append, ← callCount, ← callCount, ih,
      List.length_cons, Nat.add_comm]
    rfl

/-- The check gives nothing just when it has nothing to complain about. -/
theorem macroCalls_eq_empty_iff {cs : List Complaint} : macroCalls cs = "" ↔ cs = [] := by
  constructor
  · intro h
    have hlength := length_macroCalls cs
    rw [h] at hlength
    exact List.eq_nil_of_length_eq_zero (by simpa using hlength)
  · rintro rfl
    rfl

/-! ### Agreement -/

end Complaint

end FieldBinder
