import FieldBinder.BinderUnit
import FieldBinder.Crate.Implementors
import FieldBinder.Diagnostic

/-
  Generation rounds.

  A round goes through the marked fields of a crate, type by type and field by
  field (`bindGroup`, `bindField`), makes a unit for every struct that has some,
  and commits all units at once.  A field whose directive is incomplete is
  reported and left out; a base that is no trait of the crate, two units for one
  file, and a failed commit end the round (`RoundFault`).  Nothing is committed
  before all of that has been looked at.
-/
namespace FieldBinder

/-- The phases of a round. -/
inductive Phase
  | scan
  | group
  | extract
  | validate
  | resolve
  | emit
  | commit
deriving DecidableEq, Repr

namespace Phase

/-- The name of a phase in messages. -/
def label : Phase → String
  | scan => "scan"
  | group => "group"
  | extract => "extract"
  | validate => "validate"
  | resolve => "resolve"
  | emit => "emit"
  | commit => "commit"

/-- The phases in their order. -/
def all : List Phase := [scan, group, extract, validate, resolve, emit, commit]

end Phase

/-- Why units cannot be written. -/
inductive EmissionFault
  | unwritable (path : FilePath) (fault : FileTree.Fault)
  | collision (path : FilePath) (first second : TypeName)
deriving DecidableEq, Repr

/-- The words for units that cannot be written. -/
def EmissionFault.message : EmissionFault → String
  | unwritable path fault => "failed to write " ++ path.text ++ ": " ++ fault.message
  | collision path first second =>
    first.display ++ " and " ++ second.display ++ " would both be written to " ++ path.text

/-- What ends a round. -/
inductive RoundFault
  | resolution (enclosing : TypeName) (fault : Implementors.BaseFault)
  | emission (phase : Phase) (fault : EmissionFault)
deriving DecidableEq, Repr

namespace RoundFault

/-- The phase that a round ended in. -/
def phase : RoundFault → Phase
  | resolution _ _ => .resolve
  | emission phase _ => phase

/-- The words for the end of a round. -/
def message : RoundFault → String
  | resolution enclosing fault =>
    "resolve failed for " ++ enclosing.display ++ ": " ++ fault.message
  | emission phase fault => phase.label ++ " failed: " ++ fault.message

end RoundFault

/-- What a round has done. -/
structure Report where
  units : List BinderUnit := []
  /-- The number of stub lines in all units. -/
  emitted : Nat := 0
  /-- The number of fields that were left out. -/
  skipped : Nat := 0
  /-- The number of implementors of every base that a stub line names. -/
  implementors : SortedMap TypeName Nat := .empty
deriving Inhabited

/-- The settings of a round. -/
structure Round where
  root : Namespace
  marker : String := "country_field_binder"
  unitSuffix : String := "Binder"
  includeNested : Bool := true
deriving Inhabited

namespace Round

/-! ### One field -/

/-- What becomes of a marked field. -/
inductive Verdict
  | bound (meaning : Directive.Meaning) (implementors : TypeSet)
  | skipped (gap : Directive.Gap)
  | fatal (fault : Implementors.BaseFault)

/-- Judge a marked field. -/
def judge (c : Crate) (registry : Implementors) (f : MarkedField) : Verdict :=
  match f.directive.extract with
  | .error gap => .skipped gap
  | .ok meaning =>
    match registry.resolve c meaning.base with
    | .error fault => .fatal fault
    | .ok set => .bound meaning set

/-- How far a round has come: what was reported to the diagnostics, what the round has
done, and the stub lines of the type at hand. -/
structure Progress where
  log : List Diagnostic
  report : Report := {}
  stubs : List String := []

/-- The diagnostics and the reason of a round that ends early. -/
abbrev Ended := List Diagnostic × RoundFault

/-- Go on with one more field of the type at hand: write its stub line, or report it and
leave it out, or end the round. -/
def bindField (r : Round) (c : Crate) (registry : Implementors) (p : Progress)
    (f : MarkedField) : Except Ended Progress :=
  match judge c registry f with
  | .bound meaning set =>
    .ok { p with
      report.implementors := p.report.implementors.insert meaning.base set.size
      stubs := p.stubs ++ [BinderUnit.stubLine f meaning] }
  | .skipped gap =>
    .ok { p with
      log := p.log ++ [.onField f (r.marker ++ ": " ++ gap.message)]
      report.skipped := p.report.skipped + 1 }
  | .fatal base =>
    let fault := RoundFault.resolution f.enclosing base
    .error (p.log ++ [.onField f fault.message], fault)

/-! ### All fields -/

/-- Go on with the fields of one more type, and write its unit. -/
def bindGroup (r : Round) (c : Crate) (registry : Implementors) (p : Progress)
    (g : TypeName × List MarkedField) : Except Ended Progress := do
  let p ← g.2.foldlM (r.bindField c registry) p
  let units := p.report.units ++ [.ofStubs r.root r.unitSuffix g.1 p.stubs]
  let emitted := p.report.emitted + p.stubs.length
  return { log := p.log, report := { p.report with units, emitted } }

/-- Go through the marked fields of a crate, type by type. -/
def bindAll (r : Round) (c : Crate) (log : List Diagnostic) : Except Ended Progress :=
  let groups := FieldGroups.ofFields (MarkedField.scan r.marker c)
  groups.toList.foldlM (r.bindGroup c (.ofCrate c r.includeNested)) { log }

/-! ### The end of a round -/

/-- The first unit for a file that a unit in front of it has claimed; `claimed` says which
type has claimed a place. -/
def collision? (claimed : SortedMap (List Component) TypeName) :
    List BinderUnit → Option EmissionFault
  | [] => none
  | u :: r =>
    match claimed.get? u.path.components with
    | some first => some (.collision u.path first u.enclosing)
    | none => collision? (claimed.insert u.path.components u.enclosing) r

/-- The end of a round whose units cannot be written. -/
def abort (log : List Diagnostic) (phase : Phase) (fault : EmissionFault) : Ended :=
  let fault := RoundFault.emission phase fault
  (log ++ [⟨fault.message, none, none⟩], fault)

/-- Run a round; `commit` writes all units to where they belong, and `log` is what was
reported to the diagnostics before. -/
def run (r : Round) (c : Crate)
    (commit : List BinderUnit → σ → Except EmissionFault Unit × σ) (s : σ)
    (log : List Diagnostic := []) : List Diagnostic × Except RoundFault Report × σ :=
  match r.bindAll c log with
  | .error (log, fault) => (log, .error fault, s)
  | .ok p =>
    match collision? .empty p.report.units with
    | some fault =>
      let (log, fault) := abort p.log .emit fault
      (log, .error fault, s)
    | none =>
      match commit p.report.units s with
      | (.ok (), s) => (p.log, .ok p.report, s)
      | (.error fault, s) =>
        let (log, fault) := abort p.log .commit fault
        (log, .error fault, s)

end Round

end FieldBinder
