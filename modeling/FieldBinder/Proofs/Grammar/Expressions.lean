import FieldBinder.Grammar.Statement
import FieldBinder.Proofs.Grammar.Types

/-!
# What readers of expressions ensure

The readers of patterns, expressions and statements give sound trees, if the readers for the phrases
inside do (`ensures_expr`, `ensures_operand`, `ensures_operators`, `ensures_standing`).
-/

namespace FieldBinder.Grammar

open Token hiding ident lifetime literal punct group word

set_option synthInstance.maxSize 10000

variable {g : Rules} [Rules.Sound g]

/-! ### Patterns -/

instance steady_alternatives : Steady (alternatives g) := by
  unfold alternatives
  infer_instance

instance steady_rangeSign {dots : Bool} : Steady (rangeSign dots) := by
  have hsign : Ensures (advance 3 (Token.operator ['.', '.', '='])) fun _ => True :=
    ensures_advance (lexicalList_operator (by decide))
  unfold rangeSign
  dsimp only
  refine ⟨.after fun _ => .ite (fun _ => .pure trivial) fun _ => .after fun _ =>
    .ite (fun _ => ?_) fun _ => Gives.ensures⟩
  have hdots : Steady (advance 3 (Token.operator ['.', '.', '='])) := ⟨hsign⟩
  exact Gives.ensures

instance steady_rangeBound : Steady (rangeBound g) := by
  unfold rangeBound
  dsimp only
  infer_instance

instance steady_rangeRest : Steady (rangeRest g) := by
  unfold rangeRest
  dsimp only
  infer_instance

instance steady_halfOpenRange : Steady (halfOpenRange g) := by
  unfold halfOpenRange
  dsimp only
  infer_instance

instance steady_fieldNumber {negative : Bool} {text : String} :
    Steady (fieldNumber negative text) := by
  unfold fieldNumber
  dsimp only
  infer_instance

instance steady_member : Steady member := by
  unfold member
  refine ⟨.after fun ts => .ite (fun _ => Gives.ensures) fun _ => ?_⟩
  -- a number of a tuple is noted as it is printed, and not as it is written
  split
  · refine .after fun value => .bind (ensures_advance ?_) fun _ _ => .pure trivial
    exact ⟨isLiteralText_decimal value, trivial⟩
  · exact Gives.ensures
  · exact Gives.ensures

instance steady_fieldPattern : Steady (fieldPattern g) := by
  unfold fieldPattern
  dsimp only
  infer_instance

instance steady_fieldPatterns {n : Nat} : Steady (fieldPatterns g n) := by
  induction n with
  | zero => exact steady_pure _
  | succ n ih =>
    unfold fieldPatterns
    infer_instance

instance steady_pathPattern : Steady (pathPattern g) := by
  unfold pathPattern
  infer_instance

instance steady_slicePart : Steady (slicePart g) := by
  unfold slicePart
  infer_instance

instance steady_namePattern : Steady (namePattern g) := by
  unfold namePattern
  dsimp only
  infer_instance

/-- A reader of patterns notes tokens of texts. -/
theorem ensures_pattern : Ensures (pattern g) fun _ => True := by
  have hpattern : Steady (pattern g) := by
    unfold pattern
    infer_instance
  exact Gives.ensures

/-! ### Operators -/

instance sound_other {form : ExprForm} : Fact (Expr.Sound (.other form)) := ⟨trivial⟩

instance sound_literal {text : String} : Fact (Expr.Sound (.literal text)) := ⟨trivial⟩

instance sound_operation {form : ExprForm} {left : Expr} :
    Fact (Expr.Sound (.operation form left)) := ⟨trivial⟩

instance steady_plainBlock : Steady (plainBlock g) := by
  unfold plainBlock
  infer_instance

instance yields_macroCall : Yields macroCall Expr.Sound := by
  unfold macroCall
  exact ⟨Gives.ensures⟩

instance steady_extendRight {braces : Bool} {p : Precedence} {n : Nat} {e : Expr} :
    Steady (extendRight g braces p n e) := by
  induction n generalizing e with
  | zero => exact steady_pure _
  | succ n ih =>
    unfold extendRight
    dsimp only
    infer_instance

instance steady_rightOperand {braces : Bool} {p : Precedence} :
    Steady (rightOperand g braces p) := by
  unfold rightOperand
  infer_instance

instance gives_rangeFromSign {braces : Bool} : Gives Expr.Sound (rangeFromSign g braces) := by
  unfold rangeFromSign
  dsimp only
  infer_instance

/-- An operator behind an operand gives a sound operation, or nothing if there is none. -/
theorem ensures_operatorStep {braces : Bool} {base : Precedence} {left : Expr} :
    Ensures (operatorStep g braces base left) fun o => ∀ e ∈ o, e.Sound := by
  have hnone : Ensures (pure none : Parser (Option Expr)) fun o => ∀ e ∈ o, e.Sound :=
    .pure (by simp)
  have hsome {form : ExprForm} : Ensures (pure (some (.operation form left)) : Parser (Option Expr))
      fun o => ∀ e ∈ o, e.Sound := .pure (by simp [Expr.Sound])
  refine .after fun ts => .ite (fun _ => hnone) fun _ => ?_
  split
  · next o p _ =>
    refine .ite (fun _ => hnone) fun _ => ?_
    extract_lets operation
    have hoperation (u : Unit) : Ensures (operation u) fun o => ∀ e ∈ o, e.Sound :=
      .after fun _ => .after fun _ => hsome
    exact .ite (fun _ => .refused) fun _ => hoperation ()
  · -- no infix operator: an assignment, a range or a cast, or nothing
    refine .ite (fun _ => .after fun _ => .after fun _ => hsome) fun _ => .ite (fun _ => ?_)
      fun _ => .ite (fun _ => ?_) fun _ => hnone
    · exact Gives.ensures.map (P := Expr.Sound) fun e he => by simpa using he
    · refine .after fun _ => .after fun _ => .after fun us => ?_
      split
      · exact Gives.ensures
      · exact hsome

/-- Reading operators behind a sound operand gives a sound expression, however many there are. -/
theorem ensures_operators {braces : Bool} {base : Precedence} {left : Expr} :
    Ensures (operators g braces base left) fun e => left.Sound → e.Sound := by
  -- the operand so far is the invariant: each step puts one operator behind it
  have htimes (n : Nat) (e : Expr) :
      Ensures (operatorsTimes g braces base n e) fun e' => e.Sound → e'.Sound := by
    induction n generalizing e with
    | zero => exact .pure id
    | succ n ih =>
      refine .bind ensures_operatorStep fun o ho => ?_
      cases o with
      | none => exact .pure id
      | some e' => exact (ih e').mono fun _ h _ => h (ho e' rfl)
  exact .after fun ts => htimes _ left

/-- A reader of expressions gives sound trees. -/
theorem ensures_expr {braces : Bool} : Ensures (expr g braces) Expr.Sound :=
  .from fun _ hleft => Yields.ensures.mono fun _ he => he hleft

/-! ### Behind an atom -/

instance steady_fieldNumbers {negative : Bool} {text : String} :
    Steady (fieldNumbers negative text) := by
  have hnumber (part : List Char) : Steady (match Literal.number? part with
      | some (_, []) => fieldNumber negative (String.ofList part)
      | _ => refuse "cannot parse string into token stream") := by
    split <;> infer_instance
  refine ⟨.after fun numbers => .bind (ensures_advance ?_) fun _ _ => .pure trivial⟩
  -- a number with points in it is taken apart into one number for each field
  refine lexicalList_separate (by decide) _ fun ts hts => ?_
  obtain ⟨value, -, rfl⟩ := List.mem_map.1 hts
  exact ⟨isLiteralText_decimal value, trivial⟩

instance gives_afterPoint : Gives Expr.Sound (afterPoint g) := by
  have hangle : Ensures (printed Args.tokens (angleArgs g true)) (Args.Sound false true) :=
    (ensures_angleArgs rfl).printed fun a ha => ha.lexicalList
  have : Steady (printed Args.tokens (angleArgs g true)) := ⟨hangle.mono fun _ _ => trivial⟩
  unfold afterPoint
  dsimp only
  infer_instance

/-- What stands behind an atom makes a sound expression of it, or nothing if nothing follows. -/
theorem ensures_postfixStep {e : Expr} :
    Ensures (postfixStep g e) fun o => ∀ e' ∈ o, e'.Sound := by
  have hsome {form : ExprForm} : Ensures (pure (some (.other form)) : Parser (Option Expr))
      fun o => ∀ e ∈ o, e.Sound := .pure (by simp [Expr.Sound])
  refine .after fun ts => .ite (fun _ => .after fun _ => hsome) fun _ => .ite (fun _ => ?_) fun _ =>
    .ite (fun _ => .after fun _ => hsome) fun _ => .ite (fun _ => .after fun _ => hsome) fun _ =>
    .pure (by simp)
  -- what is behind a name depends on whether type arguments follow it
  extract_lets behind
  have hbehind (more : Bool) : Ensures (behind more) fun o => ∀ e' ∈ o, e'.Sound :=
    .ite (fun _ => Gives.ensures.map (P := Expr.Sound) fun e he => by simpa using he) fun _ => hsome
  refine .after fun _ => .after fun after => ?_
  split
  · exact .after hbehind
  · exact .after hbehind
  · exact .after hbehind

/-- Calls, fields and indices behind a sound atom give a sound expression. -/
theorem ensures_postfixes {e : Expr} (he : e.Sound) : Ensures (postfixes g e) Expr.Sound := by
  have htimes (n : Nat) {e : Expr} (he : e.Sound) : Ensures (postfixTimes g n e) Expr.Sound := by
    induction n generalizing e with
    | zero => exact .pure he
    | succ n ih =>
      refine .bind ensures_postfixStep fun o ho => ?_
      cases o with
      | none => exact .pure he
      | some e' => exact ih (ho e' rfl)
  exact .after fun ts => htimes _ he

/-! ### Atoms -/

instance steady_structFields {n : Nat} : Steady (structFields g n) := by
  induction n with
  | zero => exact steady_pure _
  | succ n ih =>
    unfold structFields
    dsimp only
    infer_instance

instance gives_pathAtom {braces : Bool} : Gives Expr.Sound (pathAtom g braces) := by
  refine ⟨.from fun o ho => .after fun ts => .ite (fun _ => Gives.ensures) fun _ =>
    .ite (fun _ => Gives.ensures) fun _ => ?_⟩
  cases o with
  | none => exact Gives.ensures
  | some p => exact .pure (ho p rfl)

instance gives_parenAtom : Gives Expr.Sound (parenAtom g) := by
  unfold parenAtom
  infer_instance

instance gives_bracketAtom : Gives Expr.Sound (bracketAtom g) := by
  refine ⟨.inside <| .after fun us => .ite (fun _ => .pure trivial) fun _ =>
    .from fun first hfirst => .after fun ts => .ite (fun _ => .after fun _ => ?_) fun _ =>
      Gives.ensures⟩
  exact .bind Yields.ensures.commas fun x hx => .pure ⟨hfirst, Expr.soundList_iff.2 hx⟩

/-- Attributes in front of tokens are printed with them, or with a group around them. -/
theorem lexicalList_withAttributes {attributes tokens : List Token} {isRange isVerbatim : Bool}
    (hattributes : LexicalList attributes) (htokens : LexicalList tokens) :
    LexicalList (withAttributes attributes isRange isVerbatim tokens) := by
  unfold withAttributes
  split
  · exact htokens
  split
  · rw [lexicalList_append, lexicalList_cons, lexical_group]
    exact ⟨hattributes, htokens, trivial⟩
  · exact lexicalList_append.2 ⟨hattributes, htokens⟩

instance steady_closureParam : Steady (closureParam g) := by
  refine ⟨.from fun x hx => .from fun y hy => .after fun ts => .ite (fun _ => ?_) fun _ => ?_⟩
  · exact .bind (ensures_note (lexicalList_append.2 ⟨hx.2, hy⟩)) fun _ _ => Gives.ensures
  · exact ensures_note (lexicalList_withAttributes hx.2 hy)

instance gives_closure {braces : Bool} : Gives Expr.Sound (closure g braces) := by
  have hexpr : Steady (expr g braces) := ⟨ensures_expr.mono fun _ _ => trivial⟩
  unfold closure
  dsimp only
  infer_instance

instance gives_conditional : Gives Expr.Sound (conditional g) := by
  unfold conditional
  dsimp only
  infer_instance

instance steady_arm : Steady (arm g) := by
  unfold arm
  infer_instance

instance gives_loopOrBlock : Gives Expr.Sound (loopOrBlock g) := by
  unfold loopOrBlock
  infer_instance

instance steady_jumpValue {braces : Bool} : Steady (jumpValue g braces) := by
  unfold jumpValue
  infer_instance

instance steady_breakRest {braces : Bool} : Steady (breakRest g braces) := by
  unfold breakRest
  infer_instance

instance gives_atom {braces : Bool} : Gives Expr.Sound (atom g braces) := by
  refine ⟨.after fun ts => .otherwise <| .otherwise <| .otherwise <| .otherwise <| .otherwise <|
    .otherwise <| .otherwise ?_⟩
  refine .after fun _ => .otherwise <| .after fun _ => .otherwise <| .after fun _ => .otherwise <|
    .after fun _ => .otherwise <| .otherwise ?_
  exact .after fun _ => .otherwise Gives.ensures

/-! ### Operands -/

/-- A reader of operands gives sound trees. -/
theorem ensures_operand {braces : Bool} : Ensures (operand g braces) Expr.Sound := by
  refine .asWrittenIf <| .after fun attributes => .after fun _ => .ite (fun _ => ?_) fun _ => ?_
  · have hother {form : ExprForm} : Ensures (pure (.other form) : Parser Expr) Expr.Sound :=
      .pure trivial
    dsimp only
    exact Gives.ensures
  refine .after fun _ => .otherwise <| .bind Gives.ensures fun e he =>
    .bind (ensures_postfixes he) fun e' he' => ?_
  exact .ite (fun _ => .refused) fun _ => .pure he'

instance yields_standingOperand : Yields (standingOperand g) fun x => x.1.Sound := by
  have hrest {e : Expr} (he : e.Sound) : Ensures (do
      if !e.isBlockLike then return (e, true)
      else if isPostfix (← rest) then return (← postfixes g e, true)
      else return (e, false)) fun x => x.1.Sound := by
    refine .ite (fun _ => .pure he) fun _ => .after fun _ => .ite (fun _ => ?_) fun _ => .pure he
    exact (ensures_postfixes he).bind fun e' he' => .pure he'
  refine ⟨.after fun _ => .ite (fun _ => .bind Gives.ensures fun e he => hrest he) fun _ => ?_⟩
  exact .from fun e he => hrest he

/-- Attributes in front of an expression are printed with it. -/
theorem lexicalList_attributed {e : Expr} {attributes tokens : List Token}
    (hattributes : LexicalList attributes) (htokens : LexicalList tokens) :
    LexicalList (attributed e attributes tokens) :=
  lexicalList_withAttributes hattributes htokens

/-- A reader of an expression that stands as a statement gives sound trees. -/
theorem ensures_standing : Ensures (standing g) Expr.Sound := by
  refine .from fun x hx => .from fun y hy => ?_
  refine .bind (ensures_note (lexicalList_attributed hx.2 hy.2)) fun _ _ => ?_
  exact .ite (fun _ => Yields.ensures.mono fun _ he => he hy.1) fun _ => .pure hy.1

/-! ### Statements -/

instance steady_bangStatement : Steady bangStatement := by
  have hseen (o : Option Path) : Steady (match o with
      | none => return .neither
      | some _ => do
        let ts ← rest
        let second := ts.drop 1
        let third := ts.drop 2
        if !isOp "!" ts then return .neither
        else if isName second || isWord "try" second then return .item
        else if isGroup .brace second &&
            !((isOp "." third && !isOp "." (third.drop 1)) || isOp "?" third) then
          return .call
        else return .neither : Parser BangStatement) := by
    cases o <;> infer_instance
  unfold bangStatement
  infer_instance

instance steady_letStatement : Steady (letStatement g) := by
  unfold letStatement
  dsimp only
  infer_instance

instance steady_statement : Steady (statement g) := by
  unfold statement
  -- where the statement is an item, its tokens are read again from the start
  refine ⟨ensures_get fun start hstart => .from fun x hx => .after fun bang => .after fun ts => ?_⟩
  have hset : Steady (set start : Parser PUnit) := ⟨ensures_set hstart⟩
  have hnote : Steady (note x.2) := ⟨ensures_note hx.2⟩
  refine .ite (fun _ => Gives.ensures) fun _ => .ite (fun _ => Gives.ensures) fun _ =>
    .ite (fun _ => Gives.ensures) fun _ => .from fun y hy => ?_
  exact .bind (ensures_note (lexicalList_attributed hx.2 hy.2)) fun _ _ => Gives.ensures

instance steady_statementsTimes {n : Nat} : Steady (statementsTimes g n) := by
  induction n with
  | zero => exact steady_pure _
  | succ n ih =>
    unfold statementsTimes
    dsimp only
    infer_instance

/-- A reader of statements notes tokens of texts. -/
theorem ensures_statements : Ensures (statements g) fun _ => True :=
  .after fun _ => Gives.ensures

end FieldBinder.Grammar
