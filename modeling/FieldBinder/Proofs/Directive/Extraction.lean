import FieldBinder.Proofs.Directive.Names

/-!
# What directives mean, and what they lack

Each symbol of a directive has its types when the arguments can be read, it is written, and every
path that is written for it means a type; else it has one fault, that of the first step that fails
(`Directive.Lacks`).  The two symbols have nothing to do with each other but for arguments that
cannot be read, which both lack.  Extraction gives the types of both symbols, or the fault of the
first one that has none (`Directive.extract_load`).
-/

namespace FieldBinder.Directive

/-- Why a symbol of a directive has no types; `paths?` says which paths are written for it. -/
inductive Lacks (s : Scope) (a : Attribute) (paths? : Arguments → Option (List Path)) :
    SymbolFault → Prop
  | malformed {fault : ArgumentFault} (h : Arguments.ofAttribute a = .error fault) :
    Lacks s a paths? (.malformed fault)
  | missing {args : Arguments} (h : Arguments.ofAttribute a = .ok args)
    (hpaths : paths? args = none) : Lacks s a paths? .missing
  /-- The first path that means no type. -/
  | path {args : Arguments} {before after : List Path} {p : Path} {fault : Scope.PathFault}
    (h : Arguments.ofAttribute a = .ok args) (hpaths : paths? args = some (before ++ p :: after))
    (hbefore : ∀ q ∈ before, ∃ t, s.resolve q = .ok t) (hp : s.resolve p = .error fault) :
    Lacks s a paths? (.path fault)

variable {s : Scope} {a : Attribute} {args : Arguments}

/-! ### Symbols -/

/-- A path of a directive means what it means in the scope. -/
theorem resolvePath_eq_ok_iff {p : Path} {t : TypeName} :
    resolvePath s p = .ok t ↔ s.resolve p = .ok t := by
  rw [resolvePath]
  cases s.resolve p <;> simp [Except.mapError]

/-- It fails as it does in the scope. -/
theorem resolvePath_eq_error_iff {p : Path} {fault : SymbolFault} :
    resolvePath s p = .error fault ↔ ∃ f, s.resolve p = .error f ∧ fault = .path f := by
  rw [resolvePath]
  cases s.resolve p <;> simp [Except.mapError, eq_comm]

/-- A directive whose arguments are understood is loaded from them. -/
theorem load_of_eq_ok (h : Arguments.ofAttribute a = .ok args) :
    load s a = ofArguments s args := by
  rw [load, h]

/-- A malformed directive has a fault for each symbol. -/
theorem load_of_eq_error {fault : ArgumentFault} (h : Arguments.ofAttribute a = .error fault) :
    load s a = ⟨{}, .error (.malformed fault), .error (.malformed fault)⟩ := by
  rw [load, h]

section

variable {paths? : Arguments → Option (List Path)} {fault : SymbolFault}

/-- Of a malformed directive nothing else is lacking. -/
theorem lacks_iff_of_eq_error {f : ArgumentFault} (h : Arguments.ofAttribute a = .error f) :
    Lacks s a paths? fault ↔ fault = .malformed f := by
  constructor
  · rintro (h' | ⟨h', -⟩ | ⟨h', -, -, -⟩)
    · rw [Except.error.inj (h.symm.trans h')]
    · cases h.symm.trans h'
    · cases h.symm.trans h'
  · rintro rfl
    exact .malformed h

/-- A symbol that is not given is missing. -/
theorem lacks_iff_of_eq_none (h : Arguments.ofAttribute a = .ok args)
    (hpaths : paths? args = none) : Lacks s a paths? fault ↔ fault = .missing := by
  constructor
  · rintro (h' | ⟨h', -⟩ | ⟨h', hpaths', -, -⟩)
    · cases h.symm.trans h'
    · rfl
    · obtain rfl := Except.ok.inj (h.symm.trans h')
      cases hpaths.symm.trans hpaths'
  · rintro rfl
    exact .missing h hpaths

/-- A symbol that is given fails by the first of its paths that does. -/
theorem lacks_iff_of_eq_some (h : Arguments.ofAttribute a = .ok args) {ps : List Path}
    (hpaths : paths? args = some ps) :
    Lacks s a paths? fault ↔ ps.mapM (resolvePath s) = .error fault := by
  have hpasses (q : Path) : (∃ t, resolvePath s q = .ok t) ↔ ∃ t, s.resolve q = .ok t :=
    exists_congr fun _ => resolvePath_eq_ok_iff
  simp only [mapM_eq_error_iff, hpasses, resolvePath_eq_error_iff]
  constructor
  · rintro (h' | ⟨h', hpaths'⟩ | ⟨h', hpaths', hbefore, hp⟩)
    · cases h.symm.trans h'
    · obtain rfl := Except.ok.inj (h.symm.trans h')
      cases hpaths.symm.trans hpaths'
    · obtain rfl := Except.ok.inj (h.symm.trans h')
      exact ⟨_, _, _, Option.some.inj (hpaths.symm.trans hpaths'), hbefore, _, hp, rfl⟩
  · rintro ⟨before, p, after, rfl, hbefore, f, hp, rfl⟩
    exact .path h hpaths hbefore hp

end

/-- The parameters lack their types for the reasons for which a symbol does. -/
theorem parameters_load_eq_error_iff {fault : SymbolFault} :
    (load s a).parameters = .error fault ↔ Lacks s a Arguments.parameters fault := by
  cases h : Arguments.ofAttribute a with
  | error f =>
    rw [load_of_eq_error h, lacks_iff_of_eq_error h, Except.error.injEq, eq_comm]
  | ok args =>
    rw [load_of_eq_ok h]
    cases hps : args.parameters with
    | none => rw [lacks_iff_of_eq_none h hps, ofArguments, hps, Except.error.injEq, eq_comm]
    | some ps => rw [lacks_iff_of_eq_some h hps, ofArguments, hps]

/-- The base lacks its type for the reasons for which a symbol does. -/
theorem base_load_eq_error_iff {fault : SymbolFault} :
    (load s a).base = .error fault ↔ Lacks s a (·.base.map ([·])) fault := by
  cases h : Arguments.ofAttribute a with
  | error f =>
    rw [load_of_eq_error h, lacks_iff_of_eq_error h, Except.error.injEq, eq_comm]
  | ok args =>
    rw [load_of_eq_ok h]
    cases hbase : args.base with
    | none =>
      rw [lacks_iff_of_eq_none h (by rw [hbase]; rfl), ofArguments, hbase, Except.error.injEq,
        eq_comm]
    | some p =>
      have hone : [p].mapM (resolvePath s) = (resolvePath s p).map ([·]) := by
        cases hp : resolvePath s p <;>
          simp [hp, bind, Except.bind, pure, Except.pure, Except.map]
      rw [lacks_iff_of_eq_some h (by rw [hbase]; rfl), ofArguments, hbase, hone]
      cases hp : resolvePath s p <;> simp [hp, Except.map]

/-- The parameters are there if each path means something. -/
theorem parameters_load_eq_ok_iff {ts : List TypeName} :
    (load s a).parameters = .ok ts ↔ ∃ args ps, Arguments.ofAttribute a = .ok args ∧
      args.parameters = some ps ∧ List.Forall₂ (fun p t => s.resolve p = .ok t) ps ts := by
  cases h : Arguments.ofAttribute a with
  | error f => simp [load_of_eq_error h]
  | ok args =>
    rw [load_of_eq_ok h]
    cases hps : args.parameters with
    | none => simp [ofArguments, hps]
    | some ps => simp [ofArguments, hps, mapM_eq_ok_iff, resolvePath_eq_ok_iff]

/-- The base is there if its path means something. -/
theorem base_load_eq_ok_iff {t : TypeName} :
    (load s a).base = .ok t ↔ ∃ args p, Arguments.ofAttribute a = .ok args ∧
      args.base = some p ∧ s.resolve p = .ok t := by
  cases h : Arguments.ofAttribute a with
  | error f => simp [load_of_eq_error h]
  | ok args =>
    rw [load_of_eq_ok h]
    cases hbase : args.base with
    | none => simp [ofArguments, hbase]
    | some p => simp [ofArguments, hbase, resolvePath_eq_ok_iff]

/-! ### Extraction -/

/-- A directive is complete if both symbols are there. -/
theorem extract_eq_ok_iff {d : Directive} {m : Meaning} :
    d.extract = .ok m ↔ d.parameters = .ok m.parameters ∧ d.base = .ok m.base := by
  refine ⟨extract_eq_ok, fun ⟨hparameters, hbase⟩ => ?_⟩
  rw [extract, hparameters, hbase]
  rfl

/-- Extraction fails for the first symbol that lacks its types. -/
theorem extract_eq_error_iff {d : Directive} {gap : Gap} : d.extract = .error gap ↔
    (gap.key = "constructor_parameters" ∧ d.parameters = .error gap.fault) ∨
    (gap.key = "country_parameterized_class" ∧ (∃ ts, d.parameters = .ok ts) ∧
      d.base = .error gap.fault) := by
  obtain ⟨key, fault⟩ := gap
  rw [extract]
  cases hparameters : d.parameters with
  | error f =>
    simp [Except.mapError, bind, Except.bind, eq_comm]
  | ok ts =>
    cases hbase : d.base with
    | error f => simp [Except.mapError, bind, Except.bind, eq_comm]
    | ok t => simp [Except.mapError, bind, Except.bind, pure, Except.pure]

/-- Extraction gives the types of a directive exactly when its arguments can be read, both keys are
written and all paths mean types, and then these types in the order of the paths.  Else it names the
first symbol that lacks its types, with the reason: arguments that cannot be read, which both
symbols lack for the same fault, a key that is not written, or the first path that means no type.
Apart from such arguments a symbol depends on the paths of its own key only. -/
theorem extract_load (s : Scope) (a : Attribute) :
    let d := load s a
    (∀ m, d.extract = .ok m ↔
      ∃ ps base, Arguments.ofAttribute a = .ok ⟨some ps, some base⟩ ∧
        List.Forall₂ (fun p t => s.resolve p = .ok t) ps m.parameters ∧
        s.resolve base = .ok m.base) ∧
    (∀ gap, d.extract = .error gap ↔
      (gap.key = "constructor_parameters" ∧ d.parameters = .error gap.fault) ∨
      (gap.key = "country_parameterized_class" ∧ (∃ ts, d.parameters = .ok ts) ∧
        d.base = .error gap.fault)) ∧
    (∀ fault, (d.parameters = .error fault ↔ Lacks s a Arguments.parameters fault) ∧
      (d.base = .error fault ↔ Lacks s a (·.base.map ([·])) fault)) ∧
    (∀ fault, Arguments.ofAttribute a = .error fault →
      d.parameters = .error (.malformed fault) ∧ d.base = .error (.malformed fault)) ∧
    (∀ a' args args', Arguments.ofAttribute a = .ok args → Arguments.ofAttribute a' = .ok args' →
      (args.parameters = args'.parameters → d.parameters = (load s a').parameters) ∧
      (args.base = args'.base → d.base = (load s a').base)) ∧
    (∀ ts, d.parameters? = some ts ↔ d.parameters = .ok ts) ∧
    ∀ t, d.base? = some t ↔ d.base = .ok t := by
  intro d
  refine ⟨fun m => ?_, fun gap => extract_eq_error_iff,
    fun fault => ⟨parameters_load_eq_error_iff, base_load_eq_error_iff⟩, fun fault h => ?_,
    fun a' args args' h h' => ⟨fun heq => ?_, fun heq => ?_⟩, fun ts => ?_, fun t => ?_⟩
  · rw [extract_eq_ok_iff, parameters_load_eq_ok_iff, base_load_eq_ok_iff]
    constructor
    · rintro ⟨⟨args, ps, hargs, hps, hts⟩, args', p, hargs', hp, ht⟩
      -- Both halves come from one reading of the attribute, so their arguments are the same.
      obtain rfl := Except.ok.inj (hargs.symm.trans hargs')
      obtain ⟨parameters, base⟩ := args
      obtain rfl : parameters = some ps := hps
      obtain rfl : base = some p := hp
      exact ⟨ps, p, hargs, hts, ht⟩
    · rintro ⟨ps, p, hargs, hts, ht⟩
      exact ⟨⟨_, ps, hargs, rfl, hts⟩, _, p, hargs, rfl, ht⟩
  · rw [show d = _ from load_of_eq_error h]
    exact ⟨rfl, rfl⟩
  · rw [show d = _ from load_of_eq_ok h, load_of_eq_ok h', ofArguments, ofArguments, heq]
  · rw [show d = _ from load_of_eq_ok h, load_of_eq_ok h', ofArguments, ofArguments, heq]
  · rw [parameters?]
    cases d.parameters <;> simp [Except.toOption]
  · rw [base?]
    cases d.base <;> simp [Except.toOption]

end FieldBinder.Directive
