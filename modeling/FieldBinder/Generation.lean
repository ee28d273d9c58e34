import FieldBinder.Config.Settings
import FieldBinder.Crate.Load
import FieldBinder.Sink.Disk

/-
  Generation for a crate on disk: from its manifest directory to its output
  directory, with the lines that are printed for the build on the way.
-/
namespace FieldBinder

namespace Settings

/-- Why a file gives no settings. -/
inductive FileFault
  | unreadable (path : FilePath) (fault : FileTree.Fault)
  | text (path : FilePath) (fault : TextFault)
deriving DecidableEq, Repr

/-- The name of the file of settings in a manifest directory. -/
def fileName : FilePath := ⟨"country-binder.toml"⟩

/-- The settings in a file. -/
def load (t : FileTree) (path : FilePath) : Except FileFault Settings :=
  match t.readText path with
  | .error fault => .error (.unreadable path fault)
  | .ok text => (ofToml text).mapError (.text path)

/-- The settings in a file, or the ones that hold when nothing is said if there is none. -/
def loadOrDefault (t : FileTree) (path : FilePath) : Except FileFault Settings :=
  if t.contains path then load t path else .ok {}

/-- The round that settings ask for. -/
def round (s : Settings) : Round := ⟨s.root, s.marker, s.unitSuffix, s.includeNested⟩

end Settings

/-- Why nothing was generated. -/
inductive GenerationFault
  | invalid (fault : Settings.Fault)
  | settings (fault : Settings.FileFault)
  | source (fault : SourceFault)
  | round (fault : RoundFault)

/-- What a generation does: the lines it prints, the tree it leaves, and its outcome. -/
structure Generation where
  printed : List String
  tree : FileTree
  outcome : Except GenerationFault Report

namespace Generation

/-- Ask the build to run again when a path changes. -/
def watchLine (p : FilePath) : String := "cargo:rerun-if-changed=" ++ p.text

/-- Warn of what a diagnostic says. -/
def warningLine (d : Diagnostic) : String := "cargo:warning=" ++ d.display

/-- The directory of units. -/
def outputDirectory (s : Settings) (out : FilePath) : FilePath :=
  match s.outSubdir with
  | some dir => out.join dir
  | none => out

/-- Generate the units of a crate with the given settings. -/
def ofSettings (s : Settings) (manifest out : FilePath) (t : FileTree) : Generation :=
  match s.fault? with
  | some fault => ⟨[], t, .error (.invalid fault)⟩
  | none =>
    let source := manifest.join s.sourceRoot
    match Crate.load t source s.root with
    | .error fault => ⟨[watchLine source], t, .error (.source fault)⟩
    | .ok c =>
      let sink : DiskSink := { out := outputDirectory s out }
      let (ds, outcome, _, t') := s.round.run c DiskSink.commit (sink, t)
      ⟨watchLine source :: ds.map warningLine, t', outcome.mapError .round⟩

/-- Generate the units of a crate with the settings in its manifest directory. -/
def ofManifest (manifest out : FilePath) (t : FileTree) : Generation :=
  let path := manifest.join Settings.fileName
  match Settings.loadOrDefault t path with
  | .error fault => ⟨[watchLine path], t, .error (.settings fault)⟩
  | .ok s =>
    let g := ofSettings s manifest out t
    { g with printed := watchLine path :: g.printed }

/-- Generate as a build script does. -/
def ofBuild (manifest out : FilePath) (t : FileTree) : Generation :=
  let g := ofManifest manifest out t
  { g with printed := watchLine ⟨"build.rs"⟩ :: g.printed }

end Generation

end FieldBinder
