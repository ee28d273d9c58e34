import FieldBinder.Config.Toml
import FieldBinder.FileTree.FilePath
import FieldBinder.Name.Namespace
import FieldBinder.Text.Identifier

/-
  The settings of a generation run.

  Settings are read from a TOML document, in which every key is optional and no
  other key may stand, and then validated: the marker is an identifier, the
  crate namespace a path of identifiers, and the suffix extends a type name.
-/
namespace FieldBinder

/-- The settings of a run, with the values that hold when nothing else is said. -/
structure Settings where
  /-- The directory of the sources, seen from the manifest. -/
  sourceRoot : FilePath := ⟨"src"⟩
  /-- The path that `crate` means in generated names. -/
  crateNamespace : String := "crate"
  /-- The attribute that marks a field. -/
  marker : String := "country_field_binder"
  /-- The end of the name of every unit. -/
  unitSuffix : String := "Binder"
  /-- Whether implementors below the module of the base trait count. -/
  includeNested : Bool := true
  /-- The directory for units, seen from the output directory. -/
  outSubdir : Option FilePath := none
deriving DecidableEq, Repr, Inhabited

namespace Settings

/-! ### Validation -/

/-- What is wrong with settings. -/
inductive Fault
  | marker (text : String)
  | crateNamespace (text : String)
  | unitSuffix (text : String)
deriving DecidableEq, Repr

/-- The text that reports a fault. -/
def Fault.message : Fault → String
  | marker text => s!"invalid config: attribute '{text}' is not an identifier"
  | crateNamespace text => s!"invalid config: crate_namespace '{text}' is not a module path"
  | unitSuffix text => s!"invalid config: unit_suffix '{text}' cannot extend a type name"

/-- The pieces of the crate namespace between `::`. -/
def crateSegments (s : Settings) : List String :=
  (Namespace.cutAtColons s.crateNamespace.toList).map String.ofList

/-- The namespace of the crate root. -/
def root (s : Settings) : Namespace := ⟨s.crateSegments⟩

/-- Whether a text can follow the name of a type. -/
def isSuffix (text : String) : Bool :=
  text != "" && text.toList.all fun c => c.isAlphanum || c == '_'

/-- The first fault of the settings, in the order marker, crate namespace, suffix. -/
def fault? (s : Settings) : Option Fault :=
  if !Text.isAsciiIdent s.marker then some (.marker s.marker)
  else if !s.crateSegments.all Text.isAsciiIdent then some (.crateNamespace s.crateNamespace)
  else if !isSuffix s.unitSuffix then some (.unitSuffix s.unitSuffix)
  else none

/-! ### Reading -/

/-- The settings with one assignment applied, if the key exists and takes such a value. -/
def assign? (s : Settings) : String → Toml.Value → Option Settings
  | "source_root", .text t => some { s with sourceRoot := ⟨t⟩ }
  | "crate_namespace", .text t => some { s with crateNamespace := t }
  | "attribute", .text t => some { s with marker := t }
  | "unit_suffix", .text t => some { s with unitSuffix := t }
  | "include_nested_namespaces", .flag b => some { s with includeNested := b }
  | "out_subdir", .text t => some { s with outSubdir := some ⟨t⟩ }
  | _, _ => none

/-- The settings that a list of assignments makes; no key may be assigned twice. -/
def ofAssignments? (assignments : List (String × Toml.Value)) : Option Settings :=
  if (assignments.map (·.1)).Nodup then
    assignments.foldlM (fun s a => s.assign? a.1 a.2) {}
  else none

/-- Why a document gives no settings. -/
inductive TextFault
  /-- The document is not made of assignments to the settings. -/
  | unreadable
  | invalid (fault : Fault)
deriving DecidableEq, Repr

/-- The valid settings that a document gives. -/
def ofToml (text : String) : Except TextFault Settings :=
  match (Toml.parse? text).bind ofAssignments? with
  | none => .error .unreadable
  | some s =>
    match s.fault? with
    | some fault => .error (.invalid fault)
    | none => .ok s

theorem fault?_of_ofToml {text : String} {s : Settings} (h : ofToml text = .ok s) :
    s.fault? = none := by
  unfold ofToml at h
  split at h
  · contradiction
  · split at h
    · contradiction
    next hs => cases h; exact hs

end Settings

end FieldBinder
