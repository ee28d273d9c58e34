import FieldBinder.Grammar.Text
import FieldBinder.Proofs.Source.Scanning

/-!
# What readers take

`Takes p ts us P` says of a reader `p` that it succeeds on the tokens `ts`, leaves the tokens `us`,
and gives a result with the property `P`, whatever was noted before.  A reader that is put together
from others takes what these take one after the other; which branch is taken is decided by the
tokens that come next.
-/

namespace FieldBinder.Grammar

/-- Whether a reader takes tokens up to certain others and gives a result with a property. -/
def Takes (p : Parser α) (ts us : List Token) (P : α → Prop) : Prop :=
  ∀ written stray, ∃ a written', p ⟨ts, written, stray⟩ = .ok (a, ⟨us, written', stray⟩) ∧ P a

variable {α β : Type} {p q : Parser α} {f : α → Parser β} {ts us vs : List Token} {P P' : α → Prop}
  {Q : β → Prop}

/-! ### Sequences -/

/-- A reader goes on where the one before it stops. -/
theorem bind_of_eq_ok {s s' : Cursor} {a : α} (h : p s = .ok (a, s')) : (p >>= f) s = f a s' := by
  change (p s).bind (fun x => f x.1 x.2) = _
  rw [h]
  rfl

/-- What is known of a result can be weakened. -/
theorem Takes.mono (hp : Takes p ts us P) (h : ∀ a, P a → P' a) : Takes p ts us P' := by
  intro written stray
  obtain ⟨a, written', heq, ha⟩ := hp written stray
  exact ⟨a, written', heq, h a ha⟩

/-- A reader that gives a result at once takes nothing. -/
theorem Takes.pure {a : α} (h : P a) : Takes (Pure.pure a) ts ts P :=
  fun written _ => ⟨a, written, rfl, h⟩

/-- Two readers in a row take what the one takes, and then what the other takes from the rest. -/
theorem Takes.bind (hp : Takes p ts us P) (hf : ∀ a, P a → Takes (f a) us vs Q) :
    Takes (p >>= f) ts vs Q := by
  intro written stray
  obtain ⟨a, written', heq, ha⟩ := hp written stray
  obtain ⟨b, written'', heq', hb⟩ := hf a ha written' stray
  exact ⟨b, written'', (bind_of_eq_ok heq).trans heq', hb⟩

theorem Takes.map {g : α → β} (hp : Takes p ts us P) (h : ∀ a, P a → Q (g a)) :
    Takes (g <$> p) ts us Q := by
  rw [map_eq_pure_bind]
  exact hp.bind fun a ha => .pure (h a ha)

theorem Takes.discard (hp : Takes p ts us P) : Takes (discard p) ts us fun _ => True :=
  hp.map fun _ _ => trivial

/-- Go on with the tokens that are left. -/
theorem Takes.look {f : List Token → Parser β} (hf : Takes (f ts) ts us Q) :
    Takes (rest >>= f) ts us Q := hf

/-- The branch is decided by a test on the tokens that come next. -/
theorem Takes.ite_pos {b : Bool} (hb : b = true) (hp : Takes p ts us P) :
    Takes (if b = true then p else q) ts us P := by
  rwa [if_pos hb]

theorem Takes.ite_neg {b : Bool} (hb : b = false) (hq : Takes q ts us P) :
    Takes (if b = true then p else q) ts us P := by
  rwa [if_neg (Bool.eq_false_iff.1 hb)]

/-! ### What is noted -/

/-- What a reader notes does not matter for what it takes. -/
theorem Takes.printed {print : α → List Token} (hp : Takes p ts us P) :
    Takes (printed print p) ts us P := by
  intro written stray
  obtain ⟨a, written', heq, ha⟩ := hp written stray
  have hrun : Grammar.printed print p ⟨ts, written, stray⟩ =
      (p ⟨ts, written, stray⟩).bind fun x =>
        .ok (x.1, { x.2 with written := (print x.1).reverse ++ written }) := rfl
  rw [heq] at hrun
  exact ⟨a, _, hrun, ha⟩

/-- What a reader has noted is given with its result. -/
theorem Takes.captured (hp : Takes p ts us P) : Takes (captured p) ts us fun x => P x.1 := by
  intro written stray
  obtain ⟨a, written', heq, ha⟩ := hp [] stray
  have hrun : Grammar.captured p ⟨ts, written, stray⟩ = (p ⟨ts, [], stray⟩).bind fun x =>
      .ok ((x.1, x.2.written.reverse), { x.2 with written := written }) := rfl
  rw [heq] at hrun
  exact ⟨(a, written'.reverse), written, hrun, ha⟩

/-- The tokens that a reader takes are given with its result. -/
theorem Takes.verbatim (hp : Takes p ts us P) : Takes (verbatim p) ts us fun x => P x.1 :=
  .look <| hp.bind fun _ ha => .look <| .pure ha

/-! ### Single tokens -/

/-- An operator that comes next is taken. -/
theorem takes_op?_pos {o : String} (h : isOp o ts = true) :
    Takes (op? o) ts (ts.drop o.length) (· = true) := by
  refine .look <| .ite_pos h ?_
  exact fun written stray => ⟨true, _, rfl, rfl⟩

/-- Where no such operator comes next, nothing is taken. -/
theorem takes_op?_neg {o : String} (h : isOp o ts = false) : Takes (op? o) ts ts (· = false) :=
  .look <| .ite_neg h (.pure rfl)

theorem takes_op {o : String} (h : isOp o ts = true) :
    Takes (op o) ts (ts.drop o.length) fun _ => True := by
  refine (takes_op?_pos h).bind ?_
  rintro _ rfl
  exact .pure trivial

/-- Go on behind an operator that comes next. -/
theorem Takes.op?_pos {o : String} {f : Bool → Parser β} (h : isOp o ts = true)
    (hf : Takes (f true) (ts.drop o.length) us Q) : Takes (op? o >>= f) ts us Q := by
  refine (takes_op?_pos h).bind ?_
  rintro _ rfl
  exact hf

/-- Go on without an operator that does not come next. -/
theorem Takes.op?_neg {o : String} {f : Bool → Parser β} (h : isOp o ts = false)
    (hf : Takes (f false) ts us Q) : Takes (op? o >>= f) ts us Q := by
  refine (takes_op?_neg h).bind ?_
  rintro _ rfl
  exact hf

theorem Takes.op {o : String} {f : Unit → Parser β} (h : isOp o ts = true)
    (hf : Takes (f ()) (ts.drop o.length) us Q) : Takes (op o >>= f) ts us Q :=
  (takes_op h).bind fun _ _ => hf

/-- Any word is taken, keywords too. -/
theorem takes_anyWord {w : String} {line : Nat} {r : List Token} :
    Takes anyWord (.ident w line :: r) r (· = w) :=
  fun _ _ => ⟨w, _, rfl, rfl⟩

/-- A word that is no keyword is taken as a name. -/
theorem takes_name {w : String} {line : Nat} {r : List Token} (h : isNameText w = true) :
    Takes name (.ident w line :: r) r (· = w) :=
  .look <| .ite_pos h takes_anyWord

/-- A lifetime that comes next is taken. -/
theorem takes_lifetime {l : String} {r : List Token} :
    Takes lifetime (.lifetime l :: r) r (· = l) :=
  fun _ _ => ⟨l, _, rfl, rfl⟩

/-- Go on behind a word that comes next. -/
theorem Takes.word?_pos {w : String} {line : Nat} {r : List Token} {f : Bool → Parser β}
    (hf : Takes (f true) r us Q) : Takes (word? w >>= f) (.ident w line :: r) us Q := by
  have hword : Takes (Grammar.word? w) (.ident w line :: r) r (· = true) :=
    .look <| .ite_pos (beq_self_eq_true w) <| takes_anyWord.discard.bind fun _ _ => .pure rfl
  refine hword.bind ?_
  rintro _ rfl
  exact hf

/-- Go on where the word does not come next. -/
theorem Takes.word?_neg {w : String} {f : Bool → Parser β} (h : isWord w ts = false)
    (hf : Takes (f false) ts us Q) : Takes (word? w >>= f) ts us Q := by
  have hword : Takes (Grammar.word? w) ts ts (· = false) := .look <| .ite_neg h (.pure rfl)
  refine hword.bind ?_
  rintro _ rfl
  exact hf

theorem Takes.word {w : String} {line : Nat} {r : List Token} {f : Unit → Parser β}
    (hf : Takes (f ()) r us Q) : Takes (word w >>= f) (.ident w line :: r) us Q := by
  have hword : Takes (Grammar.word w) (.ident w line :: r) r fun _ => True :=
    .word?_pos (.pure trivial)
  exact hword.bind fun _ _ => hf

/-! ### Groups and repetition -/

/-- A group is taken if all that is inside it is. -/
theorem Takes.inside {d : Delimiter} {body r : List Token} (hp : Takes p body [] P) :
    Takes (inside d p) (.group d body :: r) r P := by
  intro written stray
  obtain ⟨a, written', heq, ha⟩ := hp [] stray
  have hbody : (do
      set (Cursor.mk body [] stray)
      let a ← p
      let inner ← get
      set (Cursor.mk r (.group d inner.written.reverse :: written)
        (inner.stray <|> (if inner.rest.isEmpty then none else some d)))
      return a : Parser α) ⟨.group d body :: r, written, stray⟩ =
      .ok (a, ⟨r, .group d written'.reverse :: written, stray⟩) := by
    refine (bind_of_eq_ok rfl).trans <| (bind_of_eq_ok heq).trans ?_
    -- nothing is left in the group, so no bracket is noted as stray that was not before
    cases stray <;> rfl
  refine ⟨a, .group d written'.reverse :: written, ?_, ha⟩
  rw [← hbody, Grammar.inside]
  exact congrFun (if_pos rfl) _

/-- A repetition ends where its reader has nothing to take. -/
theorem Takes.repeated_nil {p : Parser (Option α)} {n : Nat} (hp : Takes p ts ts (· = none)) :
    Takes (repeated p (n + 1)) ts ts (· = []) := by
  refine hp.bind ?_
  rintro _ rfl
  exact .pure rfl

/-- A repetition takes what its reader takes, and then one element less. -/
theorem Takes.repeated_cons {p : Parser (Option α)} {n : Nat} {R : List α → Prop}
    (hp : Takes p ts us fun o => ∃ a, o = some a ∧ P a) (hr : Takes (repeated p n) us vs R) :
    Takes (repeated p (n + 1)) ts vs fun l => ∃ a r, l = a :: r ∧ P a ∧ R r := by
  refine hp.bind ?_
  rintro _ ⟨a, rfl, ha⟩
  exact hr.bind fun r hr => .pure ⟨a, r, rfl, ha, hr⟩

/-! ### Separators -/

section Separators

open Token (marks listed sizeList)

/-- What is read in a list: the tokens of a language, in front of certain others, where the list
does not end. -/
def ReadsItem (p : Parser α) (stop : List Token → Bool) (follows : List Token → Prop) (size : Nat)
    (L : Language Token) (P : α → Prop) : Prop :=
  ∀ ts ∈ L, sizeList ts ≤ size → (∀ us, stop (ts ++ us) = false) ∧
    ∀ us, follows us → Takes p (ts ++ us) us P

variable {c : Char} {sep : String} {stop : List Token → Bool} {follows : List Token → Prop}
  {size : Nat}

/-- Sizes of lists add up. -/
theorem sizeList_append (ts us : List Token) :
    sizeList (ts ++ us) = sizeList ts + sizeList us := by
  induction ts with
  | nil => simp [sizeList]
  | cons t r ih => rw [List.cons_append, sizeList, sizeList, ih, Nat.add_assoc]

/-- Tokens of languages with a mark in between, cut behind the first mark. -/
theorem mem_joined_marks {M M' : Language Token} {Ls : List (Language Token)} :
    ts ∈ Token.joined (marks c) (M :: M' :: Ls) ↔ ∃ us ∈ M, ∃ joint,
      ∃ vs ∈ Token.joined (marks c) (M' :: Ls), ts = us ++ .punct c joint :: vs := by
  rw [Token.joined, Language.mem_mul]
  constructor
  · rintro ⟨_, hmul, vs, hvs, rfl⟩
    obtain ⟨us, hus, _, ⟨joint, rfl⟩, rfl⟩ := Language.mem_mul.1 hmul
    exact ⟨us, hus, joint, vs, hvs, List.append_assoc ..⟩
  · rintro ⟨us, hus, joint, vs, hvs, rfl⟩
    refine ⟨us ++ [.punct c joint], Language.mem_mul.2 ⟨us, hus, _, ⟨joint, rfl⟩, rfl⟩, vs, hvs, ?_⟩
    exact List.append_assoc ..

/-- Tokens in a list: the last item with no mark behind it, or the first one and its mark. -/
theorem mem_listed_cons {M : Language Token} {Ls : List (Language Token)} :
    ts ∈ listed c (M :: Ls) ↔ Ls = [] ∧ ts ∈ M ∨ ∃ us ∈ M, ∃ joint, ∃ vs ∈ listed c Ls,
      ts = us ++ .punct c joint :: vs := by
  cases Ls with
  | nil =>
    have hlisted : listed c [M] = M + M * marks c := by rw [listed, mul_add, mul_one]
    rw [hlisted, Language.mem_add]
    refine or_congr (by simp) ⟨?_, ?_⟩
    · intro h
      obtain ⟨us, hus, _, ⟨joint, rfl⟩, rfl⟩ := Language.mem_mul.1 h
      exact ⟨us, hus, joint, [], rfl, rfl⟩
    · rintro ⟨us, hus, joint, _, rfl, rfl⟩
      exact Language.append_mem_mul hus ⟨joint, rfl⟩
  | cons M' Ls =>
    rw [listed, mul_assoc]
    constructor
    · intro h
      obtain ⟨us, hus, _, hbehind, rfl⟩ := Language.mem_mul.1 h
      obtain ⟨_, ⟨joint, rfl⟩, vs, hvs, rfl⟩ := Language.mem_mul.1 hbehind
      exact .inr ⟨us, hus, joint, vs, hvs, rfl⟩
    · rintro (⟨h, -⟩ | ⟨us, hus, joint, vs, hvs, rfl⟩)
      · cases h
      · have hmark : [.punct c joint] ∈ marks c := ⟨joint, rfl⟩
        exact Language.append_mem_mul hus (Language.append_mem_mul hmark hvs)

/-- An element at the end of a list needs no mark behind it. -/
theorem mem_listed_last {M : Language Token} (h : ts ∈ M) : ts ∈ listed c [M] :=
  mem_listed_cons.2 (.inl ⟨rfl, h⟩)

/-- An element and a mark can stand in front of a list. -/
theorem mem_listed_behind {M : Language Token} {Ls : List (Language Token)} {us vs : List Token}
    (hus : us ∈ M) (joint : Bool) (hvs : vs ∈ listed c Ls) :
    us ++ .punct c joint :: vs ∈ listed c (M :: Ls) :=
  mem_listed_cons.2 (.inr ⟨us, hus, joint, vs, hvs, rfl⟩)

/-- Elements with marks in between are a list without a mark at the end. -/
theorem mem_listed_of_mem_joined {Ls : List (Language Token)}
    (h : ts ∈ Token.joined (marks c) Ls) : ts ∈ listed c Ls := by
  induction Ls generalizing ts with
  | nil => exact h
  | cons M Ls ih =>
    rw [mem_listed_cons]
    cases Ls with
    | nil => exact .inl ⟨rfl, h⟩
    | cons M' Ls =>
      obtain ⟨us, hus, joint, vs, hvs, rfl⟩ := mem_joined_marks.1 h
      exact .inr ⟨us, hus, joint, vs, ih hvs, rfl⟩

/-- The mark of a separator is the operator that is looked for. -/
theorem isOp_mark (hsep : sep.toList = [c]) (joint : Bool) (ts : List Token) :
    isOp sep (.punct c joint :: ts) = true := by
  rw [isOp, hsep]
  simp [startsWith]

/-- A list is read item by item, whether a mark stands behind the last one or not. -/
theorem Takes.listed {γ : Type} {L : γ → Language Token} {R : γ → α → Prop} {as : List γ}
    (hsep : sep.toList = [c])
    (hmark : ∀ joint vs, stop (.punct c joint :: vs) = false ∧ follows (.punct c joint :: vs))
    (hitems : ∀ a ∈ as, ReadsItem p stop follows size (L a) (R a))
    (hts : ts ∈ listed c (as.map L)) (hsize : sizeList ts ≤ size) (hstop : stop us = true)
    (hus : follows us) :
    Takes (separated sep stop p) (ts ++ us) us fun x => List.Forall₂ R as x.1 := by
  have hlength : sep.length = 1 := by rw [← String.length_toList, hsep]; rfl
  refine .look ?_
  have hn : ts.length < (ts ++ us).length + 1 := by
    rw [List.length_append]
    omega
  -- the reader turns once for each token at most; the induction keeps only that this is enough
  generalize (ts ++ us).length + 1 = n at hn
  induction as generalizing ts n with
  | nil =>
    obtain rfl : ts = [] := hts
    obtain ⟨n, rfl⟩ : ∃ m, n = m + 1 := ⟨n - 1, by omega⟩
    exact .look <| .ite_pos hstop <| .pure .nil
  | cons a as ih =>
    obtain ⟨n, rfl⟩ : ∃ m, n = m + 1 := ⟨n - 1, by omega⟩
    obtain ⟨hitem, hitems⟩ := List.forall_mem_cons.1 hitems
    obtain ⟨hlast, hmem⟩ | ⟨vs, hvs, joint, xs, hxs, rfl⟩ := mem_listed_cons.1 hts
    · obtain rfl : as = [] := List.map_eq_nil_iff.1 hlast
      obtain ⟨hstart, htakes⟩ := hitem ts hmem hsize
      refine .look <| .ite_neg (hstart us) <| (htakes us hus).bind fun b hb => ?_
      exact .look <| .ite_pos hstop <| .pure (.cons hb .nil)
    · rw [sizeList_append, sizeList] at hsize
      rw [List.length_append, List.length_cons] at hn
      obtain ⟨hstart, htakes⟩ := hitem vs hvs (by omega)
      obtain ⟨hnext, hfollows⟩ := hmark joint (xs ++ us)
      rw [List.append_assoc]
      refine .look <| .ite_neg (hstart _) <| (htakes _ hfollows).bind fun b hb => ?_
      refine .look <| .ite_neg hnext <| .op (isOp_mark hsep joint _) ?_
      rw [hlength]
      exact (ih hitems hxs (by omega) n (by omega)).bind fun x hx => .pure (.cons hb hx)

variable {L : α → Language Token} {g : α → β} {as : List α}

/-- What is the same of each element is the same of the lists. -/
theorem map_eq_map_of_forall₂ {bs : List α} (h : List.Forall₂ (fun a b => g b = g a) as bs) :
    bs.map g = as.map g := by
  induction h with
  | nil => rfl
  | cons hab _ ih => exact congrArg₂ List.cons hab ih

/-- Elements with marks in between are taken one after the other, up to where the reader has to
stop; each is read as one that is the same in the respect that matters. -/
theorem Takes.separated (hsep : sep.toList = [c])
    (hmark : ∀ joint vs, stop (.punct c joint :: vs) = false ∧ follows (.punct c joint :: vs))
    (hitems : ∀ a ∈ as, ReadsItem p stop follows size (L a) fun b => g b = g a)
    (hts : ts ∈ Token.joined (marks c) (as.map L)) (hsize : sizeList ts ≤ size)
    (hstop : stop us = true) (hus : follows us) :
    Takes (separated sep stop p) (ts ++ us) us fun x => x.1.map g = as.map g := by
  have hlisted := Takes.listed hsep hmark hitems (mem_listed_of_mem_joined hts) hsize hstop hus
  exact hlisted.mono fun _ => map_eq_map_of_forall₂

/-- Elements that a mark has to join are taken as long as the mark follows. -/
theorem Takes.joined (hsep : sep.toList = [c]) (hmark : ∀ joint vs, follows (.punct c joint :: vs))
    (hitems : ∀ a ∈ as, ReadsItem p stop follows size (L a) fun b => g b = g a) (hne : as ≠ [])
    (hts : ts ∈ Token.joined (marks c) (as.map L)) (hsize : sizeList ts ≤ size)
    (hend : isOp sep us = false) (hus : follows us) :
    Takes (joined sep stop p) (ts ++ us) us fun x => x.1.map g = as.map g := by
  have hlength : sep.length = 1 := by rw [← String.length_toList, hsep]; rfl
  refine .look ?_
  have hn : ts.length < (ts ++ us).length + 1 := by
    rw [List.length_append]
    omega
  -- the reader turns once for each token at most; the induction keeps only that this is enough
  generalize (ts ++ us).length + 1 = n at hn
  induction as generalizing ts n with
  | nil => exact absurd rfl hne
  | cons a as ih =>
    obtain ⟨n, rfl⟩ : ∃ m, n = m + 1 := ⟨n - 1, by omega⟩
    obtain ⟨hitem, hitems⟩ := List.forall_mem_cons.1 hitems
    cases as with
    | nil =>
      obtain ⟨hstart, htakes⟩ := hitem ts hts hsize
      refine .look <| .ite_neg (hstart us) <| (htakes us hus).bind fun b hb => ?_
      exact .op?_neg hend <| .pure (congrArg (fun b => [b]) hb)
    | cons a' as =>
      obtain ⟨vs, hvs, joint, xs, hxs, rfl⟩ := mem_joined_marks.1 hts
      rw [sizeList_append, sizeList] at hsize
      rw [List.length_append, List.length_cons] at hn
      obtain ⟨hstart, htakes⟩ := hitem vs hvs (by omega)
      rw [List.append_assoc]
      refine .look <| .ite_neg (hstart _) <| (htakes _ (hmark joint _)).bind fun b hb => ?_
      refine .op?_pos (isOp_mark hsep joint _) ?_
      rw [hlength]
      refine (ih hitems (List.cons_ne_nil _ _) hxs (by omega) n (by omega)).bind
        fun x hx => .pure ?_
      exact congrArg₂ List.cons hb hx

end Separators

end FieldBinder.Grammar
