import FieldBinder.Grammar.Text
import FieldBinder.Proofs.Source.Lexical
import Mathlib.Logic.Basic

/-!
# What readers ensure

A reader of tokens that can stand in a text leaves such tokens, and notes such tokens as printed.
`Ensures p P` says so of a reader `p`, and that its results have the property `P`.

Most readers are put together from others, and then this is found by resolution of instances:
`Steady p` says it of a reader about whose results nothing is said, `Gives P p` of one whose results
are to have the property `P`, and `Yields p P` tells which property those of `p` have, for the
readers whose results matter to others.
-/

namespace FieldBinder.Grammar

open Token

set_option synthInstance.maxSize 1000

/-- Whether the tokens of a cursor, left or noted, can stand in a text. -/
structure Cursor.Lexical (s : Cursor) : Prop where
  rest : LexicalList s.rest
  written : LexicalList s.written

/-- Whether a reader keeps tokens to those that can stand in a text, and gives results with a
property. -/
def Ensures (p : Parser α) (P : α → Prop) : Prop :=
  ∀ s a s', p s = .ok (a, s') → s.Lexical → s'.Lexical ∧ P a

/-- Whether a reader gives results with a property, which is asked for. -/
class Gives (P : α → Prop) (p : Parser α) : Prop where
  ensures : Ensures p P

/-- Whether a reader keeps tokens to those that can stand in a text. -/
abbrev Steady (p : Parser α) : Prop := Gives (fun _ => True) p

/-- Whether a reader gives results with a property, which is found. -/
class Yields (p : Parser α) (P : outParam (α → Prop)) : Prop where
  ensures : Ensures p P

variable {α β γ : Type} {P P' : α → Prop} {Q : β → Prop} {p q : Parser α} {f : α → Parser β}

/-! ### Sequences -/

/-- Two readers in a row succeed if each of them does on what the one before leaves. -/
theorem bind_eq_ok {s s'' : Cursor} {b : β} :
    (p >>= f) s = .ok (b, s'') ↔ ∃ a s', p s = .ok (a, s') ∧ f a s' = .ok (b, s'') := by
  change (p s).bind (fun x => f x.1 x.2) = .ok (b, s'') ↔ _
  cases p s with
  | error e => simp [Except.bind]
  | ok x =>
    simp only [Except.bind, Except.ok.injEq]
    exact ⟨fun h => ⟨x.1, x.2, rfl, h⟩, by rintro ⟨a, s', rfl, h⟩; exact h⟩

theorem Steady.ensures [Steady p] : Ensures p fun _ => True := Gives.ensures

/-- What is ensured of results can be weakened. -/
theorem Ensures.mono (hp : Ensures p P) (h : ∀ a, P a → P' a) : Ensures p P' :=
  fun s a s' heq hs => (hp s a s' heq hs).imp_right (h a)

/-- A reader that goes on from another needs what the other ensures only. -/
theorem Ensures.bind (hp : Ensures p P) (hf : ∀ a, P a → Ensures (f a) Q) :
    Ensures (p >>= f) Q := by
  intro s b s'' heq hs
  obtain ⟨a, s', hps, hfs⟩ := bind_eq_ok.1 heq
  obtain ⟨hs', ha⟩ := hp s a s' hps hs
  exact hf a ha s' b s'' hfs hs'

/-- Go on from a reader whose results have a known property. -/
theorem Ensures.from [Yields p P] (hf : ∀ a, P a → Ensures (f a) Q) : Ensures (p >>= f) Q :=
  .bind Yields.ensures hf

/-- Go on from a reader about whose results nothing is said. -/
theorem Ensures.after [Steady p] (hf : ∀ a, Ensures (f a) Q) : Ensures (p >>= f) Q :=
  .bind Steady.ensures fun a _ => hf a

theorem Ensures.pure {a : α} (h : P a) : Ensures (Pure.pure a) P := by
  intro s a' s' heq hs
  cases heq
  exact ⟨hs, h⟩

theorem Ensures.map {g : α → β} (hp : Ensures p P) (h : ∀ a, P a → Q (g a)) :
    Ensures (g <$> p) Q := by
  rw [map_eq_pure_bind]
  exact hp.bind fun a ha => .pure (h a ha)

theorem Ensures.discard (hp : Ensures p fun _ => True) : Ensures (discard p) fun _ => True :=
  hp.map fun _ _ => trivial

/-- Each branch may use which one is taken. -/
theorem Ensures.ite {c : Prop} [Decidable c] (hp : c → Ensures p P) (hq : ¬ c → Ensures q P) :
    Ensures (if c then p else q) P := by
  split
  · next h => exact hp h
  · next h => exact hq h

/-- Go on with the other branch. -/
theorem Ensures.otherwise {c : Prop} [Decidable c] [Gives P p] (hq : Ensures q P) :
    Ensures (if c then p else q) P :=
  .ite (fun _ => Gives.ensures) fun _ => hq

instance gives_bind_pair {p : Parser (α × γ)} {f : α × γ → Parser β} [Steady p]
    [∀ a c, Gives Q (f (a, c))] : Gives Q (p >>= f) :=
  ⟨.after fun _ => Gives.ensures⟩

instance (priority := low) gives_bind [Steady p] [∀ a, Gives Q (f a)] : Gives Q (p >>= f) :=
  ⟨.after fun _ => Gives.ensures⟩

instance steady_pure (a : α) : Steady (pure a : Parser α) := ⟨.pure trivial⟩

instance gives_pure {a : α} [h : Fact (P a)] : Gives P (pure a : Parser α) := ⟨.pure h.out⟩

instance gives_ite {c : Prop} [Decidable c] [Gives P p] [Gives P q] :
    Gives P (if c then p else q) :=
  ⟨.ite (fun _ => Gives.ensures) fun _ => Gives.ensures⟩

instance (priority := low) steady_yields [Yields p P] : Steady p :=
  ⟨Yields.ensures.mono fun _ _ => trivial⟩

instance (priority := low) gives_yields [Yields p P] : Gives P p := ⟨Yields.ensures⟩

instance steady_map {g : α → β} [Steady p] : Steady (g <$> p) :=
  ⟨Steady.ensures.map fun _ _ => trivial⟩

instance steady_orM {p q : Parser Bool} [Steady p] [Steady q] : Steady (p <||> q) := by
  refine ⟨.after fun b => ?_⟩
  cases b with
  | true => exact .pure trivial
  | false => exact Gives.ensures

instance steady_discard [Steady p] : Steady (discard p) := steady_map

/-! ### States -/

/-- Go on from the cursor as it is, whose tokens can stand in a text. -/
theorem ensures_get {f : Cursor → Parser β} (hf : ∀ s, s.Lexical → Ensures (f s) Q) :
    Ensures (get >>= f) Q := by
  intro s b s' heq hs
  exact hf s hs s b s' heq hs

theorem ensures_set {s : Cursor} (hs : s.Lexical) : Ensures (set s) fun _ => True := by
  intro s' a s'' heq hs'
  cases heq
  exact ⟨hs, trivial⟩

/-- A change of the cursor has to keep its tokens to those of texts. -/
theorem ensures_modify {g : Cursor → Cursor} (hg : ∀ s, s.Lexical → (g s).Lexical) :
    Ensures (modify g) fun _ => True := by
  intro s a s' heq hs
  cases heq
  exact ⟨hg s hs, trivial⟩

instance steady_get : Steady (get : Parser Cursor) := by
  refine ⟨fun s a s' heq hs => ?_⟩
  cases heq
  exact ⟨hs, trivial⟩

instance yields_rest : Yields rest LexicalList :=
  ⟨ensures_get fun _ hs => .pure hs.rest⟩

/-- What is noted for tokens that are passed over has to be tokens of a text. -/
theorem ensures_advance {n : Nat} {ts : List Token} (h : LexicalList ts) :
    Ensures (advance n ts) fun _ => True :=
  ensures_modify fun s hs => ⟨hs.rest.drop n, by simp [h, hs.written]⟩

/-- Tokens of texts can be noted. -/
theorem ensures_note {ts : List Token} (h : LexicalList ts) : Ensures (note ts) fun _ => True :=
  ensures_modify fun s hs => ⟨hs.rest, by simp [h, hs.written]⟩

/-! ### Looking ahead -/

/-- Whether a reader of the given tokens keeps tokens to those that can stand in a text, and gives
results with a property. -/
def EnsuresAt (ts : List Token) (p : Parser α) (P : α → Prop) : Prop :=
  ∀ s a s', s.rest = ts → p s = .ok (a, s') → s.Lexical → s'.Lexical ∧ P a

/-- What is ensured of any tokens is ensured of certain ones. -/
theorem Ensures.at (hp : Ensures p P) (ts : List Token) : EnsuresAt ts p P :=
  fun s a s' _ => hp s a s'

/-- Look at the tokens, and go on with them. -/
theorem Ensures.look {f : List Token → Parser β}
    (hf : ∀ ts, LexicalList ts → EnsuresAt ts (f ts) Q) : Ensures (rest >>= f) Q :=
  fun s b s' heq hs => hf s.rest hs.rest s b s' rfl heq hs

/-- To look at the tokens leaves them as they are. -/
theorem EnsuresAt.look {ts : List Token} {f : List Token → Parser β} (hf : EnsuresAt ts (f ts) Q) :
    EnsuresAt ts (rest >>= f) Q := by
  rintro s b s' rfl heq hs
  exact hf s b s' rfl heq hs

/-- Only the first of two readers is known to be at certain tokens. -/
theorem EnsuresAt.bind {ts : List Token} (hp : EnsuresAt ts p P)
    (hf : ∀ a, P a → Ensures (f a) Q) : EnsuresAt ts (p >>= f) Q := by
  intro s b s'' hts heq hs
  obtain ⟨a, s', hps, hfs⟩ := bind_eq_ok.1 heq
  obtain ⟨hs', ha⟩ := hp s a s' hts hps hs
  exact hf a ha s' b s'' hfs hs'

theorem EnsuresAt.ite {ts : List Token} {c : Prop} [Decidable c] (hp : c → EnsuresAt ts p P)
    (hq : ¬ c → EnsuresAt ts q P) : EnsuresAt ts (if c then p else q) P := by
  split
  · next h => exact hp h
  · next h => exact hq h

/-! ### Failures -/

instance gives_throw {e : Failure} : Gives P (throw e : Parser α) :=
  ⟨fun _ _ _ heq _ => by cases heq⟩

instance gives_fail {fault : Fault} : Gives P (fail fault : Parser α) := by
  unfold fail
  infer_instance

instance gives_refuse {why : String} : Gives P (refuse why : Parser α) := gives_throw

instance gives_expected {what : String} : Gives P (expected what : Parser α) := gives_fail

instance gives_expectedOneOf {starts : List Start} : Gives P (expectedOneOf starts : Parser α) := by
  unfold expectedOneOf
  infer_instance

/-- Nothing comes after a reader that gives up. -/
theorem Ensures.refused [Gives (fun _ => False) p] : Ensures (p >>= f) Q :=
  .bind (P := fun _ => False) Gives.ensures fun _ h => h.elim

/-! ### Printed forms -/

/-- A reader that notes how its result is printed needs to know that this gives tokens of texts. -/
theorem EnsuresAt.printed {ts : List Token} {print : α → List Token} (hp : EnsuresAt ts p P)
    (h : ∀ a, P a → LexicalList (print a)) : EnsuresAt ts (printed print p) P := by
  intro s b s' hts heq hs
  have hrun : EnsuresAt ts (do
      let a ← p
      modify fun s' => { s' with written := (print a).reverse ++ s.written }
      return a) P :=
    hp.bind fun a ha => .bind
      (ensures_modify fun s' hs' => ⟨hs'.rest, by simp [h a ha, hs.written]⟩) fun _ _ => .pure ha
  exact hrun s b s' hts heq hs

theorem Ensures.printed {print : α → List Token} (hp : Ensures p P)
    (h : ∀ a, P a → LexicalList (print a)) : Ensures (printed print p) P :=
  fun s a s' heq hs => (hp.at s.rest).printed h s a s' rfl heq hs

/-- What a reader has noted is held back, and consists of tokens of texts. -/
theorem EnsuresAt.captured {ts : List Token} (hp : EnsuresAt ts p P) :
    EnsuresAt ts (captured p) fun x => P x.1 ∧ LexicalList x.2 := by
  intro s x s' hts heq hs
  have hrun : Grammar.captured p s = (p { s with written := [] }).bind fun x =>
      .ok ((x.1, x.2.written.reverse), { x.2 with written := s.written }) := rfl
  rw [hrun] at heq
  -- it reads with nothing noted, and what was noted before is put back
  cases hps : p { s with written := [] } with
  | error e =>
    rw [hps] at heq
    cases heq
  | ok y =>
    rw [hps] at heq
    cases heq
    obtain ⟨hs', ha⟩ := hp { s with written := [] } y.1 y.2 hts hps ⟨hs.rest, trivial⟩
    exact ⟨⟨hs'.rest, hs.written⟩, ha, by simpa using hs'.written⟩

theorem Ensures.captured (hp : Ensures p P) :
    Ensures (captured p) fun x => P x.1 ∧ LexicalList x.2 :=
  fun s x s' heq hs => (hp.at s.rest).captured s x s' rfl heq hs

/-- The tokens as they were read, beside a result, are those of texts. -/
theorem Ensures.verbatim (hp : Ensures p P) :
    Ensures (verbatim p) fun x => P x.1 ∧ LexicalList x.2 := by
  unfold Grammar.verbatim
  exact .from fun ts hts => hp.bind fun a ha => .after fun _ => .pure ⟨ha, hts.take _⟩

/-- It does not matter whether a result is noted as it is printed or as it was written. -/
theorem Ensures.asWrittenIf {raw : α → Bool} (hp : Ensures p P) :
    Ensures (asWrittenIf raw p) P := by
  unfold Grammar.asWrittenIf
  refine ensures_get fun s hs => .bind hp.verbatim fun x hx => ?_
  obtain ⟨a, ts⟩ := x
  have hpure : Ensures (Pure.pure a : Parser α) P := .pure hx.1
  dsimp only
  split
  · refine .bind (ensures_modify fun s' hs' => ?_) fun _ _ => hpure
    exact ⟨hs'.rest, by simp [hx.2, hs.written]⟩
  · exact hpure

/-- What stands in front of a result can be noted with it. -/
theorem Ensures.introduced (hp : Ensures p P) : Ensures (introduced p) P := by
  unfold Grammar.introduced
  refine .bind hp.captured fun x hx => ?_
  have hpure : Ensures (Pure.pure x.1 : Parser α) P := .pure hx.1
  dsimp only
  split
  · exact hpure
  · exact .bind (ensures_note hx.2) fun _ _ => hpure

instance yields_captured [Yields p P] : Yields (captured p) fun x => P x.1 ∧ LexicalList x.2 :=
  ⟨Yields.ensures.captured⟩

instance (priority := low) yields_captured_steady [Steady p] :
    Yields (captured p) fun x => LexicalList x.2 :=
  ⟨Steady.ensures.captured.mono fun _ h => h.2⟩

instance gives_asWrittenIf {raw : α → Bool} [Gives P p] : Gives P (asWrittenIf raw p) :=
  ⟨Gives.ensures.asWrittenIf⟩

instance gives_introduced [Gives P p] : Gives P (introduced p) := ⟨Gives.ensures.introduced⟩

/-- An attempt that fails leaves the cursor as it was. -/
theorem Ensures.attempt? (hp : Ensures p P) : Ensures (attempt? p) fun o => ∀ a ∈ o, P a := by
  intro s o s' heq hs
  unfold Grammar.attempt? at heq
  split at heq
  · next a s'' hps =>
    cases heq
    obtain ⟨hs', ha⟩ := hp s a s' hps hs
    exact ⟨hs', by simpa using ha⟩
  · cases heq
    exact ⟨hs, by simp⟩

instance steady_attempt? [Steady p] : Steady (attempt? p) :=
  ⟨Steady.ensures.attempt?.mono fun _ _ => trivial⟩

instance steady_foresee [Steady p] : Steady (foresee p) := by
  refine ⟨fun s a s' heq hs => ?_⟩
  unfold foresee at heq
  split at heq
  · cases heq
    exact ⟨hs, trivial⟩
  · cases heq

/-! ### Single tokens -/

/-- The marks of an operator that is there are marks of texts. -/
theorem isPunct_of_startsWith {cs : List Char} {ts : List Token} (h : startsWith cs ts = true)
    (hts : LexicalList ts) : ∀ c ∈ cs, Lexeme.isPunct c = true := by
  fun_induction startsWith cs ts with
  | case1 => simp
  | case2 c d joint r =>
    obtain rfl : c = d := by simpa using h
    simpa using hts.1
  | case3 c cs d joint r hcs ih =>
    simp only [Bool.and_eq_true, beq_iff_eq] at h
    obtain ⟨⟨rfl, -⟩, h⟩ := h
    intro e he
    rcases List.mem_cons.1 he with rfl | he
    · simpa using hts.1
    · exact ih h hts.2 e he
  | case4 => cases h

instance steady_op? {o : String} : Steady (op? o) := by
  refine ⟨.from fun ts hts => .ite (fun h => ?_) fun _ => .pure trivial⟩
  have hop := lexicalList_operator (List.all_eq_true.2 (isPunct_of_startsWith h hts))
  exact .bind (ensures_advance hop)
    fun _ _ => .pure trivial

instance steady_op {o : String} : Steady (op o) := by
  unfold op
  infer_instance

instance yields_anyWord : Yields anyWord IsNameText := by
  refine ⟨.from fun ts hts => ?_⟩
  split
  · next name line r =>
    -- the word is noted as it stands
    have hname := lexical_ident.1 hts.1
    exact .bind (ensures_advance ⟨lexical_ident.2 hname, trivial⟩) fun _ _ => .pure hname
  · exact Gives.ensures

instance steady_word? {w : String} : Steady (word? w) := by
  unfold word?
  infer_instance

instance steady_word {w : String} : Steady (word w) := by
  unfold word
  infer_instance

theorem rest_bind {g : List Token → Parser β} {s : Cursor} : (rest >>= g) s = g s.rest s := rfl

/-- The word that is read is the one that comes next. -/
theorem ensuresAt_anyWord (ts : List Token) :
    EnsuresAt ts anyWord fun w => IsNameText w ∧ ∃ line r, ts = .ident w line :: r := by
  rintro ⟨us, written, stray⟩ w s' rfl heq hs
  obtain ⟨hs', hw⟩ := Yields.ensures _ _ _ heq hs
  refine ⟨hs', hw, ?_⟩
  match us, heq with
  | [], heq | .lifetime _ :: _, heq | .literal _ :: _, heq | .punct _ _ :: _, heq
  | .group _ _ :: _, heq => cases heq
  | .ident v line :: r, heq =>
    cases heq
    exact ⟨line, r, rfl⟩

/-- What is read as a name is the word that comes next, and no keyword. -/
theorem ensuresAt_name (ts : List Token) : EnsuresAt ts name fun w =>
    (IsNameText w ∧ ∃ line r, ts = .ident w line :: r) ∧ isNameText w = true := by
  refine .look ?_
  split
  · next v line r =>
    refine .ite (fun hv s w s' hts heq hs => ?_) fun _ => Gives.ensures.at _
    obtain ⟨hs', hw, line', r', heq'⟩ := ensuresAt_anyWord _ s w s' hts heq hs
    cases heq'
    exact ⟨hs', ⟨hw, line, r, rfl⟩, hv⟩
  · exact Gives.ensures.at _

/-- A name is a word of a text, and no keyword. -/
theorem ensures_name : Ensures name fun w => IsNameText w ∧ isNameText w = true :=
  fun s w s' heq hs => (ensuresAt_name _ s w s' rfl heq hs).imp_right fun h => ⟨h.1.1, h.2⟩

instance yields_name : Yields name IsNameText := ⟨ensures_name.mono fun _ h => h.1⟩

instance steady_nameOrBlank : Steady nameOrBlank := by
  unfold nameOrBlank
  infer_instance

instance yields_lifetime : Yields lifetime IsLifetimeText := by
  refine ⟨.from fun ts hts => ?_⟩
  split
  · next l r =>
    have hl := lexical_lifetime.1 hts.1
    exact .bind (ensures_advance ⟨lexical_lifetime.2 hl, trivial⟩) fun _ _ => .pure hl
  · exact Gives.ensures

instance yields_lifetime? : Yields lifetime? fun o => ∀ l ∈ o, IsLifetimeText l := by
  refine ⟨.from fun ts _ => .ite (fun _ => ?_) fun _ => .pure (by simp)⟩
  exact Yields.ensures.map fun l hl => by simpa using hl

instance steady_literal : Steady literal := by
  refine ⟨.from fun ts hts => ?_⟩
  split
  · next t r =>
    exact .bind (ensures_advance ⟨hts.1, trivial⟩) fun _ _ => .pure trivial
  · next joint t r =>
    have hminus : (punct '-' false).Lexical := by rw [lexical_punct]; decide
    have hnumber : LexicalList [punct '-' false, Token.literal t] := ⟨hminus, hts.2.1, trivial⟩
    exact .ite (fun _ => .bind (ensures_advance hnumber) fun _ _ => .pure trivial) fun _ =>
      Gives.ensures
  · exact Gives.ensures
  · exact Gives.ensures

instance yields_anyTree : Yields anyTree Token.Lexical := by
  refine ⟨.from fun ts hts => ?_⟩
  split
  · exact .bind (ensures_advance ⟨hts.1, trivial⟩) fun _ _ => .pure hts.1
  · exact Gives.ensures

instance yields_anyGroup : Yields anyGroup fun x => LexicalList x.2 := by
  refine ⟨.from fun ts hts => ?_⟩
  split
  · exact .bind (ensures_advance ⟨hts.1, trivial⟩) fun _ _ => .pure (lexical_group.1 hts.1)
  · exact Gives.ensures

instance steady_builtin : Steady builtin := by
  unfold builtin
  dsimp only
  infer_instance

/-! ### Groups and repetition -/

/-- Inside of delimiters a reader is on its own, with nothing noted; the group is noted behind
it. -/
theorem Ensures.inside {d : Delimiter} (hp : Ensures p P) : Ensures (inside d p) P := by
  unfold Grammar.inside
  refine ensures_get fun s hs => ?_
  obtain ⟨ts, written, stray⟩ := s
  dsimp only
  split
  · next d' body r =>
    obtain ⟨hbody, hr⟩ := lexicalList_cons.1 hs.rest
    refine .ite (fun _ => ?_) fun _ => Gives.ensures
    -- the tokens behind the group wait until it has been read
    refine .bind (ensures_set ⟨lexical_group.1 hbody, trivial⟩) fun _ _ => hp.bind fun a ha =>
      ensures_get fun s' hs' => .bind (ensures_set ⟨hr, ?_⟩) fun _ _ => .pure ha
    rw [lexicalList_cons, lexical_group, lexicalList_reverse]
    exact ⟨hs'.written, hs.written⟩
  · exact Gives.ensures

instance gives_inside {d : Delimiter} [Gives P p] : Gives P (inside d p) := ⟨Gives.ensures.inside⟩

instance steady_mapM {f : α → Parser β} [∀ a, Steady (f a)] {l : List α} : Steady (l.mapM f) := by
  induction l with
  | nil =>
    rw [List.mapM_nil]
    infer_instance
  | cons a l ih =>
    rw [List.mapM_cons]
    infer_instance

instance steady_forIn {f : α → β → Parser (ForInStep β)} [∀ a b, Steady (f a b)] {l : List α}
    {b : β} : Steady (forIn l b f) := by
  induction l generalizing b with
  | nil =>
    rw [List.forIn_nil]
    infer_instance
  | cons a l ih =>
    rw [List.forIn_cons]
    refine ⟨.after fun x => ?_⟩
    cases x with
    | done b' => exact .pure trivial
    | yield b' => exact Gives.ensures

/-- The invariant of a repetition is that what was read so far has the property. -/
theorem Ensures.repeated {p : Parser (Option α)} (hp : Ensures p fun o => ∀ a ∈ o, P a) (n : Nat) :
    Ensures (repeated p n) fun l => ∀ a ∈ l, P a := by
  induction n with
  | zero => exact .pure (by simp)
  | succ n ih =>
    refine .bind hp fun o ho => ?_
    cases o with
    | none => exact .pure (by simp)
    | some a => exact ih.bind fun l hl => .pure (by simpa using ⟨ho a rfl, hl⟩)

theorem Ensures.many {p : Parser (Option α)} (hp : Ensures p fun o => ∀ a ∈ o, P a) :
    Ensures (many p) fun l => ∀ a ∈ l, P a :=
  .after fun _ => hp.repeated _

instance steady_many {p : Parser (Option α)} [Steady p] : Steady (many p) :=
  ⟨(Steady.ensures.mono fun _ _ _ _ => trivial : Ensures p fun o => ∀ a ∈ o, True).many.mono
    fun _ _ => trivial⟩

theorem Ensures.untilEnd (hp : Ensures p P) : Ensures (untilEnd p) fun l => ∀ a ∈ l, P a :=
  .many <| .after fun _ => .ite (fun _ => .pure (by simp)) fun _ =>
    hp.map fun a ha => by simpa using ha

instance steady_untilEnd [Steady p] : Steady (untilEnd p) :=
  ⟨Steady.ensures.untilEnd.mono fun _ _ => trivial⟩

/-- Elements with separators in between all have the property, and the separators are marks. -/
theorem Ensures.separatedTimes (hp : Ensures p P) (sep : String) (stop : List Token → Bool)
    (n : Nat) : Ensures (separatedTimes sep stop p n) fun x => ∀ a ∈ x.1, P a := by
  induction n with
  | zero => exact .pure (by simp)
  | succ n ih =>
    unfold Grammar.separatedTimes
    refine .after fun _ => ?_
    split
    · exact .pure (by simp)
    -- one element, and the rest only behind a separator
    refine hp.bind fun a ha => .after fun _ => ?_
    split
    · exact .pure (by simpa using ha)
    · exact .after fun _ => ih.bind fun x hx => .pure (by simpa using ⟨ha, hx⟩)

theorem Ensures.separated (hp : Ensures p P) (sep : String) (stop : List Token → Bool) :
    Ensures (separated sep stop p) fun x => ∀ a ∈ x.1, P a :=
  .after fun _ => hp.separatedTimes sep stop _

theorem Ensures.commas (hp : Ensures p P) : Ensures (commas p) fun x => ∀ a ∈ x.1, P a :=
  hp.separated _ _

/-- The same for elements that need a separator to go on. -/
theorem Ensures.joinedTimes (hp : Ensures p P) (sep : String) (stop : List Token → Bool)
    (n : Nat) : Ensures (joinedTimes sep stop p n) fun x => ∀ a ∈ x.1, P a := by
  induction n with
  | zero => exact .pure (by simp)
  | succ n ih =>
    unfold Grammar.joinedTimes
    refine .after fun _ => ?_
    split
    · exact .pure (by simp)
    refine hp.bind fun a ha => .after fun more => ?_
    split
    · exact ih.bind fun x hx => .pure (by simpa using ⟨ha, hx⟩)
    · exact .pure (by simpa using ha)

theorem Ensures.joined (hp : Ensures p P) (sep : String) (stop : List Token → Bool) :
    Ensures (joined sep stop p) fun x => ∀ a ∈ x.1, P a :=
  .after fun _ => hp.joinedTimes sep stop _

instance steady_separated {sep : String} {stop : List Token → Bool} [Steady p] :
    Steady (separated sep stop p) :=
  ⟨(Steady.ensures.separated sep stop).mono fun _ _ => trivial⟩

instance steady_commas [Steady p] : Steady (commas p) := steady_separated

instance steady_joined {sep : String} {stop : List Token → Bool} [Steady p] :
    Steady (joined sep stop p) :=
  ⟨(Steady.ensures.joined sep stop).mono fun _ _ => trivial⟩

/-! ### Whole texts -/

/-- All of a text is read if no token is left, at the end or inside a group. -/
theorem finish_eq_ok {ts : List Token} {a : α} :
    finish p ts = .ok a ↔ ∃ written, p ⟨ts, [], none⟩ = .ok (a, ⟨[], written, none⟩) := by
  unfold finish
  change (p ⟨ts, [], none⟩).bind _ = .ok a ↔ _
  cases p ⟨ts, [], none⟩ with
  | error e => simp [Except.bind]
  | ok x =>
    obtain ⟨b, rest, written, stray⟩ := x
    cases stray with
    | some d => simp [Except.bind, throw, throwThe, MonadExceptOf.throw]
    | none =>
      cases rest <;>
        simp [Except.bind, pure, Except.pure, throw, throwThe, MonadExceptOf.throw]

/-- What is read from all of a text has what its reader ensures. -/
theorem Ensures.of_finish {ts : List Token} {a : α} (hp : Ensures p P) (hts : LexicalList ts)
    (h : finish p ts = .ok a) : P a := by
  obtain ⟨written, hrun⟩ := finish_eq_ok.1 h
  exact (hp _ _ _ hrun ⟨hts, trivial⟩).2

end FieldBinder.Grammar
