import FieldBinder.Proofs.Round.Collision
import FieldBinder.Sink.Memory

/-!
# Units in memory

After a commit every place has the text of the last unit for it, and the places of no unit have what
they had (`textAt_foldl_add`).  The file at a path is what stands at the place of its components.
-/

namespace FieldBinder.MemorySink

/-- The text at a place. -/
def textAt (s : MemorySink) (place : List Component) : Option String :=
  (s.files.get? place).map (·.2)

/-- A unit replaces the text at its place, and leaves the other places alone. -/
theorem textAt_add (s : MemorySink) (u : BinderUnit) (place : List Component) :
    (s.add u).textAt place =
      if u.path.components = place then some u.contents else s.textAt place := by
  rw [textAt, add, SortedMap.get?_insert]
  by_cases hplace : place = u.path.components
  · simp [hplace]
  · rw [if_neg hplace, if_neg (Ne.symm hplace), textAt]

/-- Of several units for one place the last one counts. -/
theorem textAt_foldl_add (units : List BinderUnit) (s : MemorySink) (place : List Component) :
    (units.foldl add s).textAt place =
      ((units.reverse.find? fun u => u.path.components = place).map BinderUnit.contents).or
        (s.textAt place) := by
  induction units generalizing s with
  | nil => simp
  | cons u rest ih =>
    rw [List.foldl_cons, ih, textAt_add, List.reverse_cons, List.find?_append]
    cases rest.reverse.find? fun u => u.path.components = place with
    | some v => simp
    | none => by_cases hu : u.path.components = place <;> simp [hu]

/-- Where units are for different places, each is what its place has in the end. -/
theorem textAt_foldl_add_of_mem {units : List BinderUnit} (h : units.Pairwise BinderUnit.Apart)
    {u : BinderUnit} (hu : u ∈ units) (s : MemorySink) :
    (units.foldl add s).textAt u.path.components = some u.contents := by
  have hfind : units.reverse.find? (fun v => v.path.components = u.path.components) = some u := by
    -- no unit behind it is for the same place
    obtain ⟨before, after, rfl⟩ := List.append_of_mem hu
    obtain ⟨-, hafter, -⟩ := List.pairwise_append.1 h
    rw [List.find?_eq_some_iff_append]
    refine ⟨by simp, after.reverse, before.reverse, by simp, fun v hv => ?_⟩
    have := (List.pairwise_cons.1 hafter).1 v (List.mem_reverse.1 hv)
    rw [BinderUnit.apart_iff] at this
    simpa using Ne.symm this
  rw [textAt_foldl_add, hfind]
  rfl

/-- A place of no unit has what it had. -/
theorem textAt_foldl_add_of_forall_ne {units : List BinderUnit} {place : List Component}
    (h : ∀ u ∈ units, u.path.components ≠ place) (s : MemorySink) :
    (units.foldl add s).textAt place = s.textAt place := by
  have hfind : units.reverse.find? (fun u => u.path.components = place) = none := by
    rw [List.find?_eq_none]
    intro u hu
    simpa using h u (List.mem_reverse.1 hu)
  rw [textAt_foldl_add, hfind]
  rfl

/-! ### Paths -/

/-- The file at the path of a unit is the unit. -/
theorem file?_foldl_add_of_mem {units : List BinderUnit} (h : units.Pairwise BinderUnit.Apart)
    {u : BinderUnit} (hu : u ∈ units) (s : MemorySink) :
    (units.foldl add s).file? u.path = some u.contents :=
  textAt_foldl_add_of_mem h hu s

/-- The file at a path that is not that of a unit, however it is spelled, is what it was. -/
theorem file?_foldl_add_of_forall_not_same {units : List BinderUnit} {p : FilePath}
    (h : ∀ u ∈ units, u.path.same p = false) (s : MemorySink) :
    (units.foldl add s).file? p = s.file? p :=
  textAt_foldl_add_of_forall_ne (fun u hu => by simpa [FilePath.same] using h u hu) s

end FieldBinder.MemorySink
