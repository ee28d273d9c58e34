import FieldBinder.Crate.Layout
import FieldBinder.Proofs.SortedMap

/-!
# Files elsewhere

The path of a file in messages is carried along and never looked at.  So files at other paths make
the same crate, with the same modules but for their paths, or fail for the same files
(`ofFiles_relocate`).
-/

namespace FieldBinder

namespace SortedMap

variable {κ : Type u} {α : Type v} {β : Type w} [Ord κ] [Std.TransOrd κ] [Std.LawfulEqOrd κ]
  [DecidableEq κ]

/-- To change all values, one of them new, is to change the new one on its own. -/
theorem mapValues_insert (f : κ → α → β) (m : SortedMap κ α) (k : κ) (v : α) :
    (m.insert k v).mapValues f = (m.mapValues f).insert k (f k v) := by
  refine ext_get? fun k' => ?_
  rw [get?_mapValues, get?_insert, get?_insert, get?_mapValues]
  split
  · next heq => rw [heq, Option.map_some]
  · rfl

end SortedMap

/-! ### Files elsewhere -/

variable (g : FilePath → FilePath)

/-- A module whose file is elsewhere. -/
def Module.relocate (m : Module) : Module := { m with file := g m.file }

/-- A fault about files that are elsewhere. -/
def SourceFault.relocate : SourceFault → SourceFault
  | .duplicateModule home first second => .duplicateModule home (g first) (g second)
  | .unreadable path fault => .unreadable (g path) fault
  | .unparsable path => .unparsable (g path)

namespace Crate

/-- A source file that is elsewhere. -/
def SourceFile.relocate (f : SourceFile) : SourceFile := { f with path := g f.path }

/-- A crate whose files are elsewhere. -/
def relocate (c : Crate) : Crate :=
  { c with modules := c.modules.mapValues fun _ => Module.relocate g }

/-- The crate of files that are elsewhere, or the fault about them. -/
def relocateOutcome : Except SourceFault Crate → Except SourceFault Crate
  | .ok c => .ok (c.relocate g)
  | .error fault => .error (fault.relocate g)

variable {g}

/-- A relocated crate has the same modules, with other files. -/
theorem module?_relocate (c : Crate) (home : Namespace) :
    (c.relocate g).module? home = (c.module? home).map (Module.relocate g) :=
  SortedMap.get?_mapValues _ c.modules home

/-- The order of modules does not depend on their files. -/
theorem moduleList_relocate (c : Crate) :
    (c.relocate g).moduleList = c.moduleList.map (Module.relocate g) := by
  simp [moduleList, relocate, SortedMap.values, SortedMap.mapValues, Function.comp_def]

/-! ### Registering modules -/

/-- A module that is stored keeps its file's new name. -/
theorem relocate_put (c : Crate) (file : FilePath) (home : Namespace) (items : List Item) :
    (c.put file home items).relocate g = (c.relocate g).put (g file) home items := by
  rw [put, relocate, SortedMap.mapValues_insert]
  rfl

/-- A fault names the relocated files. -/
theorem putAll_relocate (c : Crate) (file : FilePath) (modules : List (Namespace × List Item)) :
    (c.relocate g).putAll (g file) modules =
      ((c.putAll file modules).1.relocate g,
        (c.putAll file modules).2.map (SourceFault.relocate g)) := by
  induction modules generalizing c with
  | nil => rfl
  | cons m r ih =>
    rw [putAll, putAll, module?_relocate]
    cases hm : c.module? m.1 with
    | some taken => rfl
    | none =>
      rw [Option.map_none, ← relocate_put]
      exact ih _

/-- Registering items does not depend on what their file is called. -/
theorem insert_relocate (c : Crate) (home : Namespace) (file : FilePath) (items : List Item) :
    (c.relocate g).insert home (g file) items =
      ((c.insert home file items).1.relocate g,
        (c.insert home file items).2.map (SourceFault.relocate g)) :=
  putAll_relocate c file _

/-- To insert a relocated file is to insert the file and relocate what comes of it. -/
theorem insertFile_relocate (c : Crate) (f : SourceFile) :
    (c.relocate g).insertFile (f.relocate g) = relocateOutcome g (c.insertFile f) := by
  rw [insertFile, insertFile]
  have htext : (f.relocate g).text = f.text := rfl
  rw [htext]
  cases f.text with
  | error fault => rfl
  | ok text =>
    cases hitems : Item.parseFile? text with
    | none =>
      simp only [hitems]
      rfl
    | some items =>
      -- The text and the relative path are the same, so the same modules are put, under other
      -- files.
      have hinsert := insert_relocate (g := g) c ⟨c.root.segments ++ moduleSegments f.relative⟩
        f.path items
      have hroot : (c.relocate g).root = c.root := rfl
      have hrelative : (f.relocate g).relative = f.relative := rfl
      have hpath : (f.relocate g).path = g f.path := rfl
      simp only [hitems, hroot, hrelative, hpath, hinsert]
      rcases c.insert ⟨c.root.segments ++ moduleSegments f.relative⟩ f.path items with
        ⟨c', _ | fault⟩ <;> rfl

/-- So it is for any number of files. -/
theorem foldlM_insertFile_relocate (c : Crate) (files : List SourceFile) :
    (files.map (SourceFile.relocate g)).foldlM insertFile (c.relocate g) =
      relocateOutcome g (files.foldlM insertFile c) := by
  induction files generalizing c with
  | nil => rfl
  | cons f r ih =>
    rw [List.map_cons, List.foldlM_cons, List.foldlM_cons, insertFile_relocate]
    cases c.insertFile f with
    | error fault => rfl
    | ok c' => exact ih c'

/-! ### Globs -/

/-- What a glob offers does not depend on files. -/
theorem globOffers_relocate (c : Crate) (s : Scope) :
    (c.relocate g).globOffers s = c.globOffers s := by
  unfold globOffers
  refine congrArg (fun offers => s.globs.flatMap offers) (funext fun l => ?_)
  rw [module?_relocate]
  cases c.module? ⟨l⟩ <;> rfl

/-- Whether globs have something left to add does not depend on files. -/
theorem isLinked_relocate (c : Crate) : (c.relocate g).isLinked = c.isLinked := by
  rw [isLinked, isLinked, moduleList_relocate, List.all_map]
  refine List.all_congr rfl fun m => ?_
  rw [Function.comp_apply, globOffers_relocate]
  rfl

/-- A round of linking and relocating can change places. -/
theorem linkOnce_relocate (c : Crate) : (c.relocate g).linkOnce = c.linkOnce.relocate g := by
  have hmodules : (c.relocate g).linkOnce.modules = (c.linkOnce.relocate g).modules := by
    refine SortedMap.ext_get? fun home => ?_
    simp only [linkOnce, relocate, SortedMap.get?_mapValues, Option.map_map]
    refine congrArg (fun link => (c.modules.get? home).map link) (funext fun m => ?_)
    have hoffers := globOffers_relocate (g := g) c m.scope
    simp only [relocate] at hoffers
    simp only [Function.comp_apply, Module.relocate, hoffers]
  exact congrArg (Crate.mk c.root) hmodules

/-- So can any number of rounds. -/
theorem linkTimes_relocate (n : Nat) (c : Crate) :
    linkTimes n (c.relocate g) = (linkTimes n c).relocate g := by
  induction n generalizing c with
  | zero => rfl
  | succ n ih =>
    rw [linkTimes, linkTimes, isLinked_relocate, linkOnce_relocate, ih]
    split <;> rfl

/-! ### Crates of files -/

/-- Files that are elsewhere make the same crate, or fail for the same files. -/
theorem ofFiles_relocate (root : Namespace) (files : List SourceFile) :
    ofFiles root (files.map (SourceFile.relocate g)) = relocateOutcome g (ofFiles root files) := by
  have hany : (files.map (SourceFile.relocate g)).any (fun f => isLibraryRoot f.relative) =
      files.any fun f => isLibraryRoot f.relative := by
    rw [List.any_map]
    rfl
  -- What belongs to the crate is decided by the relative path, which stays.
  have hfilter (b : Bool) : (files.map (SourceFile.relocate g)).filter
      (fun f => belongs b f.relative) =
      (files.filter fun f => belongs b f.relative).map (SourceFile.relocate g) := by
    rw [List.filter_map]
    rfl
  have hempty : empty root = (empty root).relocate g := rfl
  rw [ofFiles, ofFiles, hany, hfilter, hempty, foldlM_insertFile_relocate, ← hempty]
  cases (files.filter _).foldlM insertFile (empty root) with
  | error fault => rfl
  | ok c => exact congrArg Except.ok (linkTimes_relocate hopLimit c)

end Crate

end FieldBinder
