import FieldBinder.Proofs.FileTree.FilePath
import FieldBinder.Proofs.FileTree.Locations

/-!
# Operations on file trees

* Making directories adds directories on the way of a path, and nothing else (`Extends`,
  `extends_makeDirectories`).
* Reading a file, listing a directory, and writing, removing and moving a file succeed exactly when
  the path leads to what they need (`read_eq_ok_iff`, `readText_eq_ok_iff`, `list_eq_ok_iff`,
  `write_eq_ok_iff`, `removeFile_eq_ok_iff`, `rename_eq_ok`); the last three change what the
  location holds.
-/

namespace FieldBinder.FileTree

variable {t t' t'' : FileTree} {loc : List String} {p : FilePath}

/-! ### Trees that have more -/

/-- Whether a tree has what another one has, and beyond this only entries of a certain kind. -/
structure Extends (new : List String → Entry → Prop) (t t' : FileTree) : Prop where
  isTree : t'.IsTree
  kept : ∀ loc e, t.get? loc = some e → t'.get? loc = some e
  added : ∀ loc e, t'.get? loc = some e → t.get? loc = none → new loc e

namespace Extends

variable {new new' : List String → Entry → Prop}

theorem refl (ht : t.IsTree) : Extends new t t where
  isTree := ht
  kept _ _ h := h
  added _ _ h hnone := by
    rw [hnone] at h
    cases h

/-- What is new in two turns is new. -/
theorem trans (h : Extends new t t') (h' : Extends new t' t'') : Extends new t t'' where
  isTree := h'.isTree
  kept loc e he := h'.kept loc e (h.kept loc e he)
  added loc e he hnone := by
    cases he' : t'.get? loc with
    | none => exact h'.added loc e he he'
    | some e' =>
      have := h'.kept loc e' he'
      rw [he, Option.some.injEq] at this
      subst this
      exact h.added loc e he' hnone

/-- What is new can be told more loosely. -/
theorem mono (h : Extends new t t')
    (hnew : ∀ loc e, t.get? loc = none → new loc e → new' loc e) : Extends new' t t' where
  isTree := h.isTree
  kept := h.kept
  added loc e he hnone := hnew loc e hnone (h.added loc e he hnone)

/-- One more entry at a place that held nothing. -/
theorem put (ht : t.IsTree) (hplace : t.IsPlace loc) (hnone : t.get? loc = none) {e : Entry}
    (hnew : new loc e) : Extends new t (t.put loc e) where
  isTree := ht.put hplace e
  kept l e' he := by
    rw [get?_put hplace.ne_nil, if_neg]
    · exact he
    · rintro rfl
      rw [hnone] at he
      cases he
  added l e' he hl := by
    rw [get?_put hplace.ne_nil] at he
    split at he
    · -- The place was free, so what is new in the tree is what was put there.
      next heq =>
      cases he
      exact heq ▸ hnew
    · rw [hl] at he
      cases he

/-- Paths lead to what they led to. -/
theorem locate (h : Extends new t t') (hloc : t.locate p = .ok loc) : t'.locate p = .ok loc :=
  locate_mono (fun l => h.kept l .directory) hloc

end Extends

/-! ### Making directories -/

/-- A directory among others. -/
def DirectoryAt (locs : List String → Prop) (loc : List String) (e : Entry) : Prop :=
  e = .directory ∧ locs loc

/-- To make a directory adds this one at most. -/
theorem extends_makeDirectory (ht : t.IsTree) {cs : List Component}
    (h : t.makeDirectory cs = .ok t') : Extends (DirectoryAt (· = locationOf cs)) t t' := by
  unfold makeDirectory at h
  cases hfollow : t.follow cs with
  | error fault =>
    rw [hfollow] at h
    cases h
  | ok loc =>
    rw [hfollow] at h
    simp only [bind, Except.bind] at h
    split at h
    · cases h
      exact .refl ht
    · cases h
    · next hnone =>
      cases h
      have hplace : t.IsPlace loc := ht.isPlace_of_follow hfollow (by rw [hnone]; simp)
      exact .put ht hplace hnone ⟨rfl, eq_of_follow hfollow⟩

/-- To make directories adds those that were asked for at most, also if one fails. -/
theorem extends_makeFirst (ht : t.IsTree) (css : List (List Component)) :
    Extends (DirectoryAt fun loc => ∃ cs ∈ css, loc = locationOf cs) t (t.makeFirst css).1 := by
  induction css with
  | nil => exact .refl ht
  | cons cs above ih =>
    have hfirst {t t' : FileTree} (ht : t.IsTree) (h : t.makeDirectory cs = .ok t') :
        Extends (DirectoryAt fun loc => ∃ cs' ∈ cs :: above, loc = locationOf cs') t t' :=
      (extends_makeDirectory ht h).mono fun loc e _ he =>
        ⟨he.1, cs, List.mem_cons_self, he.2⟩
    -- The directories above are made on the way, and each of them is in the list as well.
    have habove : Extends (DirectoryAt fun loc => ∃ cs' ∈ cs :: above, loc = locationOf cs') t
        (t.makeFirst above).1 :=
      ih.mono fun loc e _ ⟨he, cs', hcs', hloc⟩ => ⟨he, cs', List.mem_cons_of_mem _ hcs', hloc⟩
    unfold makeFirst
    split
    · next t' h => exact hfirst ht h
    · split
      · next t' hmade =>
        rw [hmade] at habove
        split
        · next t'' h => exact habove.trans (hfirst habove.isTree h)
        · exact habove
      · exact habove
    · exact .refl ht

/-- Making directories adds directories on the way of a path, and nothing else. -/
theorem extends_makeDirectories (ht : t.IsTree) (p : FilePath) :
    Extends (DirectoryAt fun loc => ∃ k ≤ p.components.length,
      loc = locationOf (p.components.take k)) t (t.makeDirectories p).1 := by
  unfold makeDirectories
  split
  · refine (extends_makeFirst ht _).mono ?_
    rintro loc e - ⟨he, cs, hcs, rfl⟩
    refine ⟨he, ?_⟩
    rcases List.mem_cons.1 hcs with rfl | hcs
    · exact ⟨p.components.length, le_refl _, by rw [List.take_length, locationOf_steps]⟩
    · obtain ⟨k, hk, rfl⟩ := List.mem_map.1 hcs
      rw [List.mem_reverse, List.mem_range] at hk
      exact ⟨k, Nat.le_of_lt hk, rfl⟩
  · exact .refl ht

/-! ### Files -/

theorem entry_eq_ok_iff {e : Entry} : t.entry loc = .ok e ↔ t.get? loc = some e := by
  unfold entry
  cases t.get? loc <;> simp

/-- A path reads as the bytes of the file that it leads to. -/
theorem read_eq_ok_iff {bytes : ByteArray} : t.read p = .ok bytes ↔
    ∃ loc, t.locate p = .ok loc ∧ t.get? loc = some (.file bytes) := by
  rw [read, bind_eq_ok_iff]
  refine exists_congr fun loc => and_congr_right fun _ => ?_
  rw [bind_eq_ok_iff]
  simp only [entry_eq_ok_iff]
  constructor
  · rintro ⟨e, he, h⟩
    cases e with
    | directory => cases h
    | file found =>
      cases h
      exact he
  · intro he
    exact ⟨_, he, rfl⟩

/-- Files read as they did. -/
theorem Extends.read {new : List String → Entry → Prop} (h : Extends new t t')
    {bytes : ByteArray} (hread : t.read p = .ok bytes) : t'.read p = .ok bytes := by
  obtain ⟨loc, hloc, hfile⟩ := read_eq_ok_iff.1 hread
  exact read_eq_ok_iff.2 ⟨loc, h.locate hloc, h.kept _ _ hfile⟩

/-- What is read below a directory is not the directory itself. -/
theorem components_ne_nil_of_read {out : FilePath} {bytes : ByteArray}
    (h : t.read (out.join p) = .ok bytes) : p.components ≠ [] := by
  intro hnil
  obtain ⟨loc, hloc, hfile⟩ := read_eq_ok_iff.1 h
  have hdir : t.get? loc = some .directory := by
    rcases FilePath.join_of_components_eq_nil out hnil with hjoin | hslash
    · rw [eq_of_locate hloc, hjoin, hnil]
      rfl
    · exact get?_of_endsInSlash hslash hloc
  rw [hdir] at hfile
  cases hfile

/-- Bytes are a text if they are its encoding. -/
theorem fromUTF8?_eq_some_iff {bytes : ByteArray} {text : String} :
    String.fromUTF8? bytes = some text ↔ bytes = text.toUTF8 := by
  rw [String.fromUTF8?]
  constructor
  · intro h
    split at h
    · cases h
      rfl
    · cases h
  · rintro rfl
    rw [String.toUTF8_eq_toByteArray, dif_pos text.isValidUTF8]
    rfl

/-- A path reads as a text if it reads as the bytes of the text. -/
theorem readText_eq_ok_iff {text : String} :
    t.readText p = .ok text ↔ t.read p = .ok text.toUTF8 := by
  rw [readText, bind_eq_ok_iff]
  constructor
  · rintro ⟨bytes, hread, h⟩
    split at h
    · next found hfound =>
      cases h
      rw [hread, fromUTF8?_eq_some_iff.1 hfound]
    · cases h
  · intro h
    refine ⟨_, h, ?_⟩
    rw [fromUTF8?_eq_some_iff.2 rfl]
    rfl

/-- A path leads to a directory. -/
theorem isDirectory_iff :
    t.isDirectory p = true ↔ ∃ loc, t.locate p = .ok loc ∧ t.get? loc = some .directory := by
  rw [isDirectory]
  cases t.locate p with
  | error fault => simp
  | ok loc =>
    simp only [Except.ok.injEq, exists_eq_left']
    rcases t.get? loc with _ | _ | bytes <;> simp [Entry.isDirectory]

/-- What a path leads to depends on where it leads and what is there. -/
theorem isDirectory_congr (hlocate : t'.locate p = t.locate p)
    (hget : ∀ loc, t.locate p = .ok loc → t'.get? loc = t.get? loc) :
    t'.isDirectory p = t.isDirectory p := by
  rw [isDirectory, isDirectory, hlocate]
  cases h : t.locate p with
  | error fault => rfl
  | ok loc => simp only [hget loc h]

/-- What a path reads as depends on where it leads and what is there. -/
theorem readText_congr (hlocate : t'.locate p = t.locate p)
    (hget : ∀ loc, t.locate p = .ok loc → t'.get? loc = t.get? loc) :
    t'.readText p = t.readText p := by
  rw [readText, readText, read, read, hlocate]
  cases h : t.locate p with
  | error fault => rfl
  | ok loc => simp only [bind, Except.bind, entry, hget loc h]

/-- A path lists the names in the directory that it leads to. -/
theorem list_eq_ok_iff {names : List String} : t.list p = .ok names ↔
    ∃ loc, t.locate p = .ok loc ∧ t.get? loc = some .directory ∧ names = t.names loc := by
  rw [list, bind_eq_ok_iff]
  refine exists_congr fun loc => and_congr_right fun _ => ?_
  rw [bind_eq_ok_iff]
  simp only [entry_eq_ok_iff]
  constructor
  · rintro ⟨e, he, h⟩
    cases e with
    | directory =>
      cases h
      exact ⟨he, rfl⟩
    | file bytes => cases h
  · rintro ⟨he, rfl⟩
    exact ⟨_, he, rfl⟩

/-- To write a file puts it where its path leads, if no directory is there. -/
theorem write_eq_ok_iff {bytes : ByteArray} : t.write p bytes = .ok t' ↔
    ∃ loc, t.locate p = .ok loc ∧ t.get? loc ≠ some .directory ∧
      t' = t.put loc (.file bytes) := by
  rw [write, bind_eq_ok_iff]
  refine exists_congr fun loc => and_congr_right fun _ => ?_
  constructor
  · intro h
    split at h
    · cases h
    · next hne =>
      cases h
      exact ⟨hne, rfl⟩
  · rintro ⟨hne, rfl⟩
    split
    · next hdir => exact absurd hdir hne
    · rfl

/-- To remove a file erases it where its path leads. -/
theorem removeFile_eq_ok_iff : t.removeFile p = .ok t' ↔
    ∃ loc bytes, t.locate p = .ok loc ∧ t.get? loc = some (.file bytes) ∧ t' = t.erase loc := by
  rw [removeFile, bind_eq_ok_iff]
  refine exists_congr fun loc => ?_
  simp only [bind_eq_ok_iff, entry_eq_ok_iff]
  constructor
  · rintro ⟨hloc, e, he, h⟩
    cases e with
    | directory => cases h
    | file bytes =>
      cases h
      exact ⟨bytes, hloc, he, rfl⟩
  · rintro ⟨bytes, hloc, he, rfl⟩
    exact ⟨hloc, _, he, rfl⟩

/-- A place for a rename is a location. -/
theorem locate_of_place (h : t.place p = .ok loc) : t.locate p = .ok loc := by
  rw [place] at h
  split at h
  · cases h
  obtain ⟨⟨⟩, haccept, h⟩ := bind_eq_ok_iff.1 h
  obtain ⟨loc', hfollow, h⟩ := bind_eq_ok_iff.1 h
  split at h
  · split at h
    · cases h
    · next hslash =>
      cases h
      exact locate_eq_ok_iff.2 ⟨haccept, by rw [if_neg hslash]; exact hfollow⟩
  · cases h

/-- Moving a file puts it at the place that the target leads to and takes it from where it was. -/
theorem rename_eq_ok {source : FilePath} (h : t.rename source p = .ok t') :
    ∃ start loc bytes, t.locate source = .ok start ∧ t.get? start = some (.file bytes) ∧
      t.locate p = .ok loc ∧ t.get? loc ≠ some .directory ∧
      t' = (t.put loc (.file bytes)).erase start := by
  rw [rename, bind_eq_ok_iff] at h
  obtain ⟨bytes, hread, h⟩ := h
  obtain ⟨start, hstart, hfile⟩ := read_eq_ok_iff.1 hread
  obtain ⟨loc, hplace, h⟩ := bind_eq_ok_iff.1 h
  split at h
  · cases h
  · next hne =>
    obtain ⟨start', _, hstart', -, rfl⟩ := removeFile_eq_ok_iff.1 h
    -- The file put at the target leaves the directories as they were, so the source is found again.
    have hdirs (l : List String) (hl : t.get? l = some .directory) :
        (t.put loc (.file bytes)).get? l = some .directory := by
      rw [get?_put (ne_nil_of_get?_ne hne), if_neg]
      · exact hl
      · rintro rfl
        exact hne hl
    rw [locate_mono hdirs hstart, Except.ok.injEq] at hstart'
    subst hstart'
    exact ⟨start, loc, bytes, hstart, hfile, locate_of_place hplace, hne, rfl⟩

/-! ### Trees with the same directories -/

/-- Whether a tree has the directories that another one has, and no others. -/
structure Alike (t t' : FileTree) : Prop where
  isTree : t'.IsTree
  directory_iff : ∀ loc, t'.get? loc = some .directory ↔ t.get? loc = some .directory

namespace Alike

theorem refl (ht : t.IsTree) : Alike t t := ⟨ht, fun _ => Iff.rfl⟩

/-- Paths lead to the same locations. -/
theorem locate_iff (h : Alike t t') : t'.locate p = .ok loc ↔ t.locate p = .ok loc :=
  ⟨locate_mono fun l => (h.directory_iff l).1, locate_mono fun l => (h.directory_iff l).2⟩

/-- Anything but a directory can be put where there is none. -/
theorem of_get? (h : Alike t t') (hloc : t'.locate p = .ok loc)
    (hdir : t'.get? loc ≠ some .directory) {o : Option Entry} (ho : o ≠ some .directory)
    (ht'' : ∀ l, t''.get? l = if l = loc then o else t'.get? l) : Alike t t'' where
  isTree := h.isTree.of_get? (h.isTree.isPlace_of_locate hloc hdir) ht''
  directory_iff l := by
    rw [ht'', ← h.directory_iff]
    split
    · next heq =>
      rw [heq]
      exact iff_of_false ho hdir
    · exact Iff.rfl

/-- Writing a file changes what its location holds. -/
theorem write (h : Alike t t') (hloc : t.locate p = .ok loc) (hdir : t.get? loc ≠ some .directory)
    (bytes : ByteArray) : ∃ t'', t'.write p bytes = .ok t'' ∧ Alike t t'' ∧
      ∀ l, t''.get? l = if l = loc then some (.file bytes) else t'.get? l := by
  have hloc' := h.locate_iff.2 hloc
  have hdir' : t'.get? loc ≠ some .directory := fun hd => hdir ((h.directory_iff loc).1 hd)
  have hput := get?_put (ne_nil_of_get?_ne hdir) t' (.file bytes)
  exact ⟨_, write_eq_ok_iff.2 ⟨loc, hloc', hdir', rfl⟩, h.of_get? hloc' hdir' (by simp) hput, hput⟩

/-- After an attempt to remove a file its location holds nothing. -/
theorem removeFile (h : Alike t t') (hloc : t.locate p = .ok loc)
    (hdir : t.get? loc ≠ some .directory) :
    Alike t ((t'.removeFile p).toOption.getD t') ∧
      ∀ l, ((t'.removeFile p).toOption.getD t').get? l = if l = loc then none else t'.get? l := by
  have hloc' := h.locate_iff.2 hloc
  have hdir' : t'.get? loc ≠ some .directory := fun hd => hdir ((h.directory_iff loc).1 hd)
  cases hremove : t'.removeFile p with
  | ok t'' =>
    obtain ⟨loc', _, hloc'', -, rfl⟩ := removeFile_eq_ok_iff.1 hremove
    obtain rfl := Except.ok.inj (hloc'.symm.trans hloc'')
    have herase := h.isTree.get?_erase hdir'
    exact ⟨h.of_get? hloc' hdir' (by simp) herase, herase⟩
  | error fault =>
    refine ⟨h, fun l => ?_⟩
    -- Where the removal fails there was nothing: a directory is ruled out, a file would be gone.
    have hnone : t'.get? loc = none := by
      rcases hget : t'.get? loc with _ | _ | bytes
      · rfl
      · exact absurd hget hdir'
      · rw [removeFile_eq_ok_iff.2 ⟨loc, bytes, hloc', hget, rfl⟩] at hremove
        cases hremove
    split
    · next heq =>
      rw [heq]
      exact hnone
    · rfl

/-- Moving a file changes what its place and its former location hold. -/
theorem rename (h : Alike t t') {source : FilePath} (hrename : t'.rename source p = .ok t'') :
    ∃ start loc bytes, t.locate source = .ok start ∧ t'.get? start = some (.file bytes) ∧
      t.locate p = .ok loc ∧ t.get? loc ≠ some .directory ∧ Alike t t'' ∧
      ∀ l, t''.get? l =
        if l = start then none else if l = loc then some (.file bytes) else t'.get? l := by
  obtain ⟨start, loc, bytes, hstart, hfile, hloc, hdir, rfl⟩ := rename_eq_ok hrename
  have hput := get?_put (ne_nil_of_get?_ne hdir) t' (.file bytes)
  have halike : Alike t (t'.put loc (.file bytes)) := h.of_get? hloc hdir (by simp) hput
  have hstart' : (t'.put loc (.file bytes)).locate source = .ok start :=
    halike.locate_iff.2 (h.locate_iff.1 hstart)
  have hdir' : (t'.put loc (.file bytes)).get? start ≠ some .directory := by
    rw [hput]
    split
    · simp
    · simp [hfile]
  have herase := halike.isTree.get?_erase hdir'
  refine ⟨start, loc, bytes, h.locate_iff.1 hstart, hfile, h.locate_iff.1 hloc, ?_,
    halike.of_get? hstart' hdir' (by simp) herase, fun l => ?_⟩
  · exact fun hd => hdir ((h.directory_iff loc).2 hd)
  · rw [herase, hput]

end Alike

/-- Where no directory is, reading yields what is there. -/
theorem get?_eq_map_read (hloc : t.locate p = .ok loc) (hdir : t.get? loc ≠ some .directory) :
    t.get? loc = (t.read p).toOption.map .file := by
  cases hread : t.read p with
  | ok bytes =>
    obtain ⟨loc', hloc', hfile⟩ := read_eq_ok_iff.1 hread
    obtain rfl := Except.ok.inj (hloc.symm.trans hloc')
    exact hfile
  | error fault =>
    rcases hget : t.get? loc with _ | _ | bytes
    · rfl
    · exact absurd hget hdir
    · rw [read_eq_ok_iff.2 ⟨loc, hloc, hget⟩] at hread
      cases hread

end FieldBinder.FileTree
