import Mathlib.Data.List.Forall2

/-!
# Lists of attempts

What is attempted for every member of a list succeeds when each attempt does (`mapM_eq_ok_iff`), and
fails as the first of them does that fails (`mapM_eq_error_iff`).  Where every attempt yields a
list, the results are put one behind another (`gather`).
-/

namespace FieldBinder

variable {α : Type u} {β : Type v} {ε : Type w} {f : α → Except ε β} {l : List α}

/-- All attempts succeed if each does, with results in the same order. -/
theorem mapM_eq_ok_iff {bs : List β} :
    l.mapM f = .ok bs ↔ List.Forall₂ (fun a b => f a = .ok b) l bs := by
  induction l generalizing bs with
  | nil => cases bs <;> simp [pure, Except.pure]
  | cons a r ih =>
    rw [List.mapM_cons, List.forall₂_cons_left_iff]
    cases ha : f a with
    | error e => simp [bind, Except.bind]
    | ok b =>
      cases hr : r.mapM f with
      | error e => simp [bind, Except.bind, ← ih, hr]
      | ok bs' =>
        simp only [bind, Except.bind, pure, Except.pure, Except.ok.injEq, ← ih, hr]
        constructor
        · rintro rfl
          exact ⟨b, bs', rfl, rfl, rfl⟩
        · rintro ⟨_, _, rfl, rfl, rfl⟩
          rfl

/-- Attempts whose results are known succeed with them. -/
theorem mapM_eq_ok_map {g : α → β} (h : ∀ a ∈ l, f a = .ok (g a)) : l.mapM f = .ok (l.map g) :=
  mapM_eq_ok_iff.2 (List.forall₂_map_right_iff.2 (List.forall₂_same.2 h))

/-- If all attempts succeed, each does. -/
theorem exists_of_mapM_eq_ok {bs : List β} (h : l.mapM f = .ok bs) : ∀ a ∈ l, ∃ b, f a = .ok b :=
  ((List.forall₂_and_left l bs).1 ((mapM_eq_ok_iff.1 h).imp fun _ b hb => ⟨⟨b, hb⟩, hb⟩)).1

/-- Attempts fail with the fault of the first member whose attempt fails. -/
theorem mapM_eq_error_iff {e : ε} : l.mapM f = .error e ↔ ∃ before a after,
    l = before ++ a :: after ∧ (∀ b ∈ before, ∃ c, f b = .ok c) ∧ f a = .error e := by
  induction l with
  | nil => simp [pure, Except.pure]
  | cons a r ih =>
    rw [List.mapM_cons]
    cases ha : f a with
    | error e' =>
      -- the first element fails, so nothing stands before the one that fails
      have hfirst : (Except.error e' >>= fun b => do return b :: (← r.mapM f)) = .error e ↔
          e' = e := by simp [bind, Except.bind]
      refine hfirst.trans ⟨?_, ?_⟩
      · rintro rfl
        exact ⟨[], a, r, rfl, by simp, ha⟩
      · rintro ⟨before, b, after, hl, hbefore, hb⟩
        cases before with
        | nil =>
          obtain ⟨rfl, rfl⟩ := List.cons.inj hl
          exact Except.error.inj (ha.symm.trans hb)
        | cons a' before =>
          obtain ⟨rfl, rfl⟩ := List.cons.inj hl
          obtain ⟨c, hc⟩ := hbefore a List.mem_cons_self
          rw [ha] at hc
          cases hc
    | ok b =>
      -- the first element succeeds, so it stands before the one that fails
      have hrest : (Except.ok b >>= fun b => do return b :: (← r.mapM f)) = .error e ↔
          r.mapM f = .error e := by
        cases r.mapM f <;> simp [bind, Except.bind, pure, Except.pure]
      refine (hrest.trans ih).trans ⟨?_, ?_⟩
      · rintro ⟨before, a', after, rfl, hbefore, ha'⟩
        exact ⟨a :: before, a', after, rfl, List.forall_mem_cons.2 ⟨⟨b, ha⟩, hbefore⟩, ha'⟩
      · rintro ⟨before, a', after, hl, hbefore, ha'⟩
        cases before with
        | nil =>
          obtain ⟨rfl, rfl⟩ := List.cons.inj hl
          rw [ha] at ha'
          cases ha'
        | cons a'' before =>
          obtain ⟨rfl, rfl⟩ := List.cons.inj hl
          exact ⟨before, a', after, rfl, (List.forall_mem_cons.1 hbefore).2, ha'⟩

/-- If not all attempts succeed, one fails in the same way. -/
theorem exists_mem_of_mapM_eq_error {e : ε} (h : l.mapM f = .error e) :
    ∃ a ∈ l, f a = .error e := by
  obtain ⟨before, a, after, rfl, -, ha⟩ := mapM_eq_error_iff.1 h
  exact ⟨a, by simp, ha⟩

/-! ### Attempts that yield lists -/

/-- What the attempts for the members of a list yield, one behind another. -/
def gather {β : Type v} (f : α → Except ε (List β)) (l : List α) : Except ε (List β) := do
  return (← l.mapM f).flatten

section gather

variable {β : Type v} {f g : α → Except ε (List β)}

/-- The results of the first element come first. -/
theorem gather_cons (a : α) (l : List α) : gather f (a :: l) = do
    let first ← f a
    let rest ← gather f l
    return first ++ rest := by
  rw [gather, gather, List.mapM_cons]
  cases f a with
  | error e => rfl
  | ok b => cases l.mapM f <;> rfl

/-- Only the attempts on the elements matter. -/
theorem gather_congr (h : ∀ a ∈ l, f a = g a) : gather f l = gather g l := by
  induction l with
  | nil => rfl
  | cons a r ih =>
    rw [List.forall_mem_cons] at h
    rw [gather_cons, gather_cons, h.1, ih h.2]

/-- Members that yield nothing can be left out. -/
theorem gather_filter (keep : α → Bool) (h : ∀ a ∈ l, keep a = false → f a = .ok []) :
    gather f (l.filter keep) = gather f l := by
  induction l with
  | nil => rfl
  | cons a r ih =>
    rw [List.forall_mem_cons] at h
    cases hkeep : keep a with
    | true => rw [List.filter_cons_of_pos hkeep, gather_cons, gather_cons, ih h.2]
    | false =>
      rw [List.filter_cons_of_neg (by simp [hkeep]), ih h.2, gather_cons, h.1 hkeep]
      cases gather f r <;> rfl

/-- Nothing is gathered where each element gives nothing. -/
theorem gather_eq_nil (h : ∀ a ∈ l, f a = .ok []) : gather f l = .ok [] := by
  rw [← gather_filter (fun _ => false) fun a ha _ => h a ha, List.filter_false]
  rfl

/-- What is gathered comes from one of the elements. -/
theorem exists_of_mem_gather {bs : List β} (h : gather f l = .ok bs) {b : β} (hb : b ∈ bs) :
    ∃ a ∈ l, ∃ bs', f a = .ok bs' ∧ b ∈ bs' := by
  induction l generalizing bs with
  | nil =>
    cases h
    cases hb
  | cons a r ih =>
    rw [gather_cons] at h
    cases ha : f a with
    | error e =>
      rw [ha] at h
      cases h
    | ok first =>
      cases hr : gather f r with
      | error e =>
        rw [ha, hr] at h
        cases h
      | ok rest =>
        rw [ha, hr] at h
        cases h
        rcases List.mem_append.1 hb with hb | hb
        · exact ⟨a, List.mem_cons_self, first, ha, hb⟩
        · obtain ⟨a', ha', h⟩ := ih hr hb
          exact ⟨a', List.mem_cons_of_mem a ha', h⟩

end gather

end FieldBinder
