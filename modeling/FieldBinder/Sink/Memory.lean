import FieldBinder.Round

/-
  Units kept in memory, by the components of their paths.
-/
namespace FieldBinder

/-- Files in memory: by place, the path as it was first written, and the text. -/
structure MemorySink where
  files : SortedMap (List Component) (FilePath × String)
deriving Inhabited

namespace MemorySink

/-- The sink without files. -/
def empty : MemorySink := ⟨.empty⟩

/-- The text at a path. -/
def file? (s : MemorySink) (p : FilePath) : Option String :=
  (s.files.get? p.components).map (·.2)

/-- The sink with one more unit, which replaces what stood at its path. -/
def add (s : MemorySink) (u : BinderUnit) : MemorySink :=
  let written := match s.files.get? u.path.components with
    | some old => old.1
    | none => u.path
  ⟨s.files.insert u.path.components (written, u.contents)⟩

/-- Commit units, which never fails. -/
def commit (units : List BinderUnit) (s : MemorySink) :
    Except EmissionFault Unit × MemorySink :=
  (.ok (), units.foldl add s)

end MemorySink

end FieldBinder
