import FieldBinder.Proofs.Field.TypeText

/-!
# What the written form of a type leaves out

Of a bound only the path is written, not the `for` binder, the `?` or the parentheses, and of a type
for a name only the name and the type, not the arguments of the name.  So a type is written as its
bare form is, which has none of these parts (`Ty.render_bare`).  For a type whose bare form is
structural the loss ends there: what is read from its written form is its bare form, which is the
type itself just when it has none of these parts (`Ty.IsRead.render_bare_faithful`).
-/

namespace FieldBinder

open Grammar (namesTrait)

/-! ### Bare forms -/

mutual

/-- A type without the parts of bounds and bindings that are not written. -/
def Ty.bare : Ty → Ty
  | .path p => .path p.bare
  | .reference lifetime isMut elem => .reference lifetime isMut elem.bare
  | .pointer isMut elem => .pointer isMut elem.bare
  | .slice elem => .slice elem.bare
  | .array elem len => .array elem.bare len
  | .tuple elems trailing => .tuple (Ty.bareList elems) trailing
  | .traitObject isDyn bounds trailing => .traitObject isDyn (Bound.bareList bounds) trailing
  | .implTrait bounds trailing => .implTrait (Bound.bareList bounds) trailing
  | .group elem => .group elem.bare
  | .paren elem => .paren elem.bare
  | .never => .never
  | .infer => .infer
  | .other tokens => .other tokens

/-- The bare forms of types. -/
def Ty.bareList : List Ty → List Ty
  | [] => []
  | t :: r => t.bare :: Ty.bareList r

/-- A bound without parentheses, `?` and binder. -/
def Bound.bare : Bound → Bound
  | .trait _ _ _ path => .trait false false none path.bare
  | .lifetime name => .lifetime name
  | .other tokens => .other tokens

/-- The bare forms of bounds. -/
def Bound.bareList : List Bound → List Bound
  | [] => []
  | b :: r => b.bare :: Bound.bareList r

/-- A path with bare arguments. -/
def Path.bare : Path → Path
  | .mk leading segments => .mk leading (Segment.bareList segments)

/-- The bare forms of segments. -/
def Segment.bareList : List Segment → List Segment
  | [] => []
  | s :: r => s.bare :: Segment.bareList r

/-- A segment with bare arguments. -/
def Segment.bare : Segment → Segment
  | .mk ident args => .mk ident args.bare

/-- Arguments with bare types. -/
def Args.bare : Args → Args
  | .none => .none
  | .angle turbofish args trailing => .angle turbofish (GenericArg.bareList args) trailing
  | .paren inputs trailing output =>
    .paren (Ty.bareList inputs) trailing
      (match output with
        | .none => .none
        | .some t => .some t.bare)

/-- The bare forms of generic arguments. -/
def GenericArg.bareList : List GenericArg → List GenericArg
  | [] => []
  | a :: r => a.bare :: GenericArg.bareList r

/-- A generic argument in which a name that a type is given for has no arguments. -/
def GenericArg.bare : GenericArg → GenericArg
  | .lifetime name => .lifetime name
  | .type t => .type t.bare
  | .assocType name _ t => .assocType name .none t.bare
  | .other tokens => .other tokens

end

theorem Ty.length_bareList (ts : List Ty) : (Ty.bareList ts).length = ts.length := by
  induction ts with
  | nil => rw [Ty.bareList]
  | cons t r ih => rw [Ty.bareList, List.length_cons, ih, List.length_cons]

/-- The bare forms of bounds are those of each. -/
theorem Bound.bareList_eq_map (bs : List Bound) : Bound.bareList bs = bs.map Bound.bare := by
  induction bs with
  | nil => rw [Bound.bareList, List.map_nil]
  | cons b r ih => rw [Bound.bareList, List.map_cons, ih]

/-- No bound is left out. -/
theorem Bound.length_bareList (bs : List Bound) : (Bound.bareList bs).length = bs.length := by
  rw [Bound.bareList_eq_map, List.length_map]

/-! ### Bare forms are written in the same way -/

mutual

/-- A type and its bare form are written in the same way: what the bare form lacks is in no branch
of the writer. -/
theorem Ty.render_bare : ∀ t : Ty, t.bare.render = t.render
  | .path p => by rw [Ty.bare, Ty.render, Ty.render, Path.render_bare p]
  | .reference _ _ elem => by simp only [Ty.bare, Ty.render, Ty.render_bare elem]
  | .pointer _ elem => by rw [Ty.bare, Ty.render, Ty.render, Ty.render_bare elem]
  | .slice elem => by rw [Ty.bare, Ty.render, Ty.render, Ty.render_bare elem]
  | .array elem _ => by rw [Ty.bare, Ty.render, Ty.render, Ty.render_bare elem]
  | .tuple elems _ => by
    rw [Ty.bare, Ty.render, Ty.render, Ty.renderList_bareList elems, Ty.length_bareList]
  | .traitObject _ bounds _ => by
    rw [Ty.bare, Ty.render, Ty.render, Bound.renderList_bareList bounds]
  | .implTrait bounds _ => by
    rw [Ty.bare, Ty.render, Ty.render, Bound.renderList_bareList bounds]
  | .group elem => by rw [Ty.bare, Ty.render, Ty.render, Ty.render_bare elem]
  | .paren elem => by rw [Ty.bare, Ty.render, Ty.render, Ty.render_bare elem]
  | .never => by rw [Ty.bare]
  | .infer => by rw [Ty.bare]
  | .other _ => by rw [Ty.bare]

theorem Ty.renderList_bareList : ∀ ts : List Ty,
    Ty.renderList (Ty.bareList ts) = Ty.renderList ts
  | [] => by rw [Ty.bareList]
  | t :: r => by
    rw [Ty.bareList, Ty.renderList, Ty.renderList, Ty.render_bare t, Ty.renderList_bareList r]

/-- Of a bound only the path is written. -/
theorem Bound.render_bare : ∀ b : Bound, b.bare.render = b.render
  | .trait _ _ _ path => by rw [Bound.bare, Bound.render, Bound.render, Path.render_bare path]
  | .lifetime _ => by rw [Bound.bare]
  | .other _ => by rw [Bound.bare]

theorem Bound.renderList_bareList : ∀ bs : List Bound,
    Bound.renderList (Bound.bareList bs) = Bound.renderList bs
  | [] => by rw [Bound.bareList]
  | b :: r => by
    rw [Bound.bareList, Bound.renderList, Bound.renderList, Bound.render_bare b,
      Bound.renderList_bareList r]

theorem Path.render_bare : ∀ p : Path, p.bare.render = p.render
  | .mk _ segments => by
    rw [Path.bare, Path.render, Path.render, Segment.renderList_bareList segments]

theorem Segment.renderList_bareList : ∀ ss : List Segment,
    Segment.renderList (Segment.bareList ss) = Segment.renderList ss
  | [] => by rw [Segment.bareList]
  | s :: r => by
    rw [Segment.bareList, Segment.renderList, Segment.renderList, Segment.render_bare s,
      Segment.renderList_bareList r]

theorem Segment.render_bare : ∀ s : Segment, s.bare.render = s.render
  | .mk _ args => by rw [Segment.bare, Segment.render, Segment.render, Args.render_bare args]

theorem Args.render_bare : ∀ a : Args, a.bare.render = a.render
  | .none => by rw [Args.bare]
  | .angle _ args _ => by
    rw [Args.bare, Args.render, Args.render, GenericArg.renderList_bareList args]
  | .paren inputs _ .none => by
    rw [Args.bare, Args.render, Args.render, Ty.renderList_bareList inputs]
  | .paren inputs _ (.some t) => by
    rw [Args.bare, Args.render, Args.render, Ty.renderList_bareList inputs, Ty.render_bare t]

theorem GenericArg.renderList_bareList : ∀ as : List GenericArg,
    GenericArg.renderList (GenericArg.bareList as) = GenericArg.renderList as
  | [] => by rw [GenericArg.bareList]
  | a :: r => by
    rw [GenericArg.bareList, GenericArg.renderList, GenericArg.renderList,
      GenericArg.render_bare a, GenericArg.renderList_bareList r]

/-- The arguments of a name that a type is given for are not written. -/
theorem GenericArg.render_bare : ∀ a : GenericArg, a.bare.render = a.render
  | .lifetime _ => by rw [GenericArg.bare]
  | .type t => by rw [GenericArg.bare, GenericArg.render, GenericArg.render, Ty.render_bare t]
  | .assocType _ _ t => by
    rw [GenericArg.bare, GenericArg.render, GenericArg.render, Ty.render_bare t]
  | .other _ => by rw [GenericArg.bare]

end

/-! ### Bare forms can be read -/

/-- A bound is a trait with or without its binder and its `?`. -/
theorem Bound.namesTrait_bare (b : Bound) : namesTrait b.bare = namesTrait b := by
  cases b with
  | trait parens isMaybe binder path => rw [Bound.bare, namesTrait, namesTrait]
  | lifetime name => rw [Bound.bare]
  | other tokens => rw [Bound.bare]

/-- So there is a trait among bounds just when there is one among their bare forms. -/
theorem Bound.namesTraits_bareList (bs : List Bound) :
    namesTraits (Bound.bareList bs) = namesTraits bs := by
  rw [Bound.bareList_eq_map, namesTraits, List.any_map, namesTraits]
  exact congrArg (bs.any ·) (funext Bound.namesTrait_bare)

/-- The colons in front of a path stay. -/
theorem Path.isLeading_bare (p : Path) : p.bare.isLeading = p.isLeading := by
  obtain ⟨leading, segments⟩ := p
  rw [Path.bare, Path.isLeading, Path.isLeading]

/-- The words of a path stay. -/
theorem Path.idents_bare (p : Path) : p.bare.idents = p.idents := by
  obtain ⟨leading, segments⟩ := p
  rw [Path.bare, Path.idents, Path.idents, Path.segments, Path.segments]
  induction segments with
  | nil => rw [Segment.bareList]
  | cons s r ih =>
    obtain ⟨ident, args⟩ := s
    rw [Segment.bareList, List.map_cons, ih, Segment.bare, List.map_cons, Segment.ident,
      Segment.ident]

mutual

/-- The bare form of a type that is read could have been read too: it has the forms of the type, and
no new ones. -/
theorem Ty.Sound.bare : ∀ {plus : Bool} {t : Ty}, t.Sound plus → t.bare.Sound plus
  | _, .path p, h => by
    rw [Ty.Sound] at h
    rw [Ty.bare, Ty.Sound, Path.isLeading_bare, Path.idents_bare]
    exact ⟨h.1.bare, h.2⟩
  | _, .reference _ _ elem, h => by
    rw [Ty.Sound] at h
    rw [Ty.bare, Ty.Sound]
    exact ⟨h.1, h.2.bare⟩
  | _, .pointer _ elem, h | _, .slice elem, h | _, .paren elem, h | _, .group elem, h => by
    rw [Ty.Sound] at h
    rw [Ty.bare, Ty.Sound]
    exact h.bare
  | _, .array elem _, h => by
    rw [Ty.Sound] at h
    rw [Ty.bare, Ty.Sound]
    exact ⟨h.1.bare, h.2⟩
  | _, .tuple elems _, h => by
    rw [Ty.Sound] at h
    rw [Ty.bare, Ty.Sound]
    exact Ty.soundList_bareList h
  | _, .traitObject _ bounds _, h => by
    rw [Ty.Sound] at h
    rw [Ty.bare, Ty.Sound, Bound.namesTraits_bareList, Bound.length_bareList]
    -- there are as many bounds as before, and as many traits among them
    exact ⟨Bound.soundList_bareList h.1, h.2⟩
  | _, .implTrait bounds _, h => by
    rw [Ty.Sound] at h
    rw [Ty.bare, Ty.Sound, Bound.namesTraits_bareList, Bound.length_bareList]
    exact ⟨Bound.soundList_bareList h.1, h.2⟩
  | _, .never, h | _, .infer, h | _, .other _, h => by
    rw [Ty.bare]
    exact h

theorem Ty.soundList_bareList : ∀ {ts : List Ty}, Ty.SoundList ts → Ty.SoundList (Ty.bareList ts)
  | [], h => by
    rw [Ty.bareList]
    exact h
  | t :: r, h => by
    rw [Ty.SoundList] at h
    rw [Ty.bareList, Ty.SoundList]
    exact ⟨h.1.bare, Ty.soundList_bareList h.2⟩

/-- The bare form of a bound could have been read. -/
theorem Bound.Sound.bare : ∀ {b : Bound}, b.Sound → b.bare.Sound
  | .trait _ _ _ path, h => by
    rw [Bound.Sound] at h
    rw [Bound.bare, Bound.Sound]
    exact ⟨by simp, h.2.bare⟩
  | .lifetime _, h | .other _, h => by
    rw [Bound.bare]
    exact h

theorem Bound.soundList_bareList : ∀ {bs : List Bound}, Bound.SoundList bs →
    Bound.SoundList (Bound.bareList bs)
  | [], h => by
    rw [Bound.bareList]
    exact h
  | b :: r, h => by
    rw [Bound.SoundList] at h
    rw [Bound.bareList, Bound.SoundList]
    exact ⟨h.1.bare, Bound.soundList_bareList h.2⟩

/-- The bare form of a path could have been read. -/
theorem Path.Sound.bare : ∀ {inBound : Bool} {p : Path}, p.Sound inBound → p.bare.Sound inBound
  | _, .mk _ [], h => by
    rw [Path.Sound] at h
    exact absurd rfl h.1
  | _, .mk _ (s :: r), h => by
    rw [Path.Sound] at h
    rw [Path.bare, Path.Sound]
    refine ⟨?_, Segment.soundList_bareList h.2⟩
    rw [Segment.bareList]
    exact List.cons_ne_nil _ _

/-- The last segment stays the last one, and may have parentheses where it could before. -/
theorem Segment.soundList_bareList : ∀ {inBound : Bool} {ss : List Segment},
    Segment.SoundList inBound ss → Segment.SoundList inBound (Segment.bareList ss)
  | _, [], h => by
    rw [Segment.bareList]
    exact h
  | _, [s], h => by
    rw [Segment.SoundList] at h
    rw [Segment.bareList, Segment.bareList, Segment.SoundList]
    exact ⟨h.1.bare, h.2⟩
  | _, s :: s' :: r, h => by
    rw [Segment.SoundList] at h
    have hr := Segment.soundList_bareList h.2
    rw [Segment.bareList, Segment.SoundList]
    refine ⟨?_, hr⟩
    rw [Segment.bareList]
    exact h.1.bare

theorem Segment.Sound.bare : ∀ {parens : Bool} {s : Segment}, s.Sound parens →
    s.bare.Sound parens
  | _, .mk ident args, h => by
    rw [Segment.Sound] at h
    rw [Segment.bare, Segment.Sound]
    exact ⟨h.1, h.2.1, h.2.2.bare⟩

/-- The bare form of arguments has the brackets or parentheses that they have. -/
theorem Args.Sound.bare : ∀ {parens brackets : Bool} {a : Args}, a.Sound parens brackets →
    a.bare.Sound parens brackets
  | _, _, .none, h => by
    rw [Args.bare]
    exact h
  | _, _, .angle _ args _, h => by
    rw [Args.Sound] at h
    rw [Args.bare, Args.Sound]
    exact ⟨h.1, GenericArg.soundList_bareList h.2⟩
  | _, _, .paren inputs _ .none, h => by
    rw [Args.Sound] at h
    rw [Args.bare, Args.Sound]
    exact ⟨h.1, Ty.soundList_bareList h.2.1, trivial⟩
  | _, _, .paren inputs _ (.some t), h => by
    rw [Args.Sound] at h
    rw [Args.bare, Args.Sound]
    exact ⟨h.1, Ty.soundList_bareList h.2.1, Ty.Sound.bare h.2.2⟩

theorem GenericArg.soundList_bareList : ∀ {as : List GenericArg}, GenericArg.SoundList as →
    GenericArg.SoundList (GenericArg.bareList as)
  | [], h => by
    rw [GenericArg.bareList]
    exact h
  | a :: r, h => by
    rw [GenericArg.SoundList] at h
    rw [GenericArg.bareList, GenericArg.SoundList]
    exact ⟨h.1.bare, GenericArg.soundList_bareList h.2⟩

/-- A name that a type is given for may stand without arguments. -/
theorem GenericArg.Sound.bare : ∀ {a : GenericArg}, a.Sound → a.bare.Sound
  | .type t, h => by
    rw [GenericArg.Sound] at h
    rw [GenericArg.bare, GenericArg.Sound]
    exact h.bare
  | .assocType _ _ t, h => by
    rw [GenericArg.Sound] at h
    rw [GenericArg.bare, GenericArg.Sound, Args.Sound]
    exact ⟨h.1, h.2.1, trivial, h.2.2.2.bare⟩
  | .lifetime _, h | .other _, h => by
    rw [GenericArg.bare]
    exact h

end

/-! ### Types that are their own bare forms -/

/-- No arguments look like none. -/
theorem Args.eq_none_of_plain_eq {a : Args} (h : Args.none.plain = a.plain) : a = .none := by
  rw [Args.plain] at h
  cases a with
  | none => rfl
  | angle turbofish args trailing =>
    rw [Args.plain] at h
    cases h
  | paren inputs trailing output =>
    rw [Args.plain.eq_def] at h
    cases h

mutual

/-- A type that agrees with its bare form, but for what stands behind last parts, is its bare
form. -/
theorem Ty.bare_eq_of_plain_eq : ∀ {t : Ty}, t.bare.plain = t.plain → t.bare = t
  | .path p, h => by
    rw [Ty.bare, Ty.plain, Ty.plain, Ty.path.injEq] at h
    rw [Ty.bare, Path.bare_eq_of_plain_eq h]
  | .reference _ _ elem, h => by
    rw [Ty.bare, Ty.plain, Ty.plain, Ty.reference.injEq] at h
    rw [Ty.bare, Ty.bare_eq_of_plain_eq h.2.2]
  | .pointer _ elem, h => by
    rw [Ty.bare, Ty.plain, Ty.plain, Ty.pointer.injEq] at h
    rw [Ty.bare, Ty.bare_eq_of_plain_eq h.2]
  | .slice elem, h => by
    rw [Ty.bare, Ty.plain, Ty.plain, Ty.slice.injEq] at h
    rw [Ty.bare, Ty.bare_eq_of_plain_eq h]
  | .array elem _, h => by
    rw [Ty.bare, Ty.plain, Ty.plain, Ty.array.injEq] at h
    rw [Ty.bare, Ty.bare_eq_of_plain_eq h.1]
  | .tuple elems _, h => by
    rw [Ty.bare, Ty.plain, Ty.plain, Ty.tuple.injEq] at h
    rw [Ty.bare, Ty.bareList_eq_of_plainList_eq h.1]
  | .traitObject _ bounds _, h => by
    rw [Ty.bare, Ty.plain, Ty.plain, Ty.traitObject.injEq] at h
    rw [Ty.bare, Bound.bareList_eq_of_plainList_eq h.2.1]
  | .implTrait bounds _, h => by
    rw [Ty.bare, Ty.plain, Ty.plain, Ty.implTrait.injEq] at h
    rw [Ty.bare, Bound.bareList_eq_of_plainList_eq h.1]
  | .group elem, h => by
    rw [Ty.bare, Ty.plain, Ty.plain, Ty.group.injEq] at h
    rw [Ty.bare, Ty.bare_eq_of_plain_eq h]
  | .paren elem, h => by
    rw [Ty.bare, Ty.plain, Ty.plain, Ty.paren.injEq] at h
    rw [Ty.bare, Ty.bare_eq_of_plain_eq h]
  | .never, _ | .infer, _ | .other _, _ => by rw [Ty.bare]

theorem Ty.bareList_eq_of_plainList_eq : ∀ {ts : List Ty},
    Ty.plainList (Ty.bareList ts) = Ty.plainList ts → Ty.bareList ts = ts
  | [], _ => by rw [Ty.bareList]
  | t :: r, h => by
    rw [Ty.bareList, Ty.plainList, Ty.plainList, List.cons.injEq] at h
    rw [Ty.bareList, Ty.bare_eq_of_plain_eq h.1, Ty.bareList_eq_of_plainList_eq h.2]

/-- A bound that agrees with its bare form has no parentheses, no `?` and no binder. -/
theorem Bound.bare_eq_of_plain_eq : ∀ {b : Bound}, b.bare.plain = b.plain → b.bare = b
  | .trait _ _ _ path, h => by
    rw [Bound.bare, Bound.plain, Bound.plain, Bound.trait.injEq] at h
    -- the bare form has none of the three, so the bound has none
    obtain ⟨rfl, rfl, rfl, hpath⟩ := h
    rw [Bound.bare, Path.bare_eq_of_plain_eq hpath]
  | .lifetime _, _ | .other _, _ => by rw [Bound.bare]

theorem Bound.bareList_eq_of_plainList_eq : ∀ {bs : List Bound},
    Bound.plainList (Bound.bareList bs) = Bound.plainList bs → Bound.bareList bs = bs
  | [], _ => by rw [Bound.bareList]
  | b :: r, h => by
    rw [Bound.bareList, Bound.plainList, Bound.plainList, List.cons.injEq] at h
    rw [Bound.bareList, Bound.bare_eq_of_plain_eq h.1, Bound.bareList_eq_of_plainList_eq h.2]

/-- A path that agrees with its bare form has bare arguments. -/
theorem Path.bare_eq_of_plain_eq : ∀ {p : Path}, p.bare.plain = p.plain → p.bare = p
  | .mk _ segments, h => by
    rw [Path.bare, Path.plain, Path.plain, Path.mk.injEq] at h
    rw [Path.bare, Segment.bareList_eq_of_plainList_eq h.2]

theorem Segment.bareList_eq_of_plainList_eq : ∀ {ss : List Segment},
    Segment.plainList (Segment.bareList ss) = Segment.plainList ss → Segment.bareList ss = ss
  | [], _ => by rw [Segment.bareList]
  | s :: r, h => by
    rw [Segment.bareList, Segment.plainList, Segment.plainList, List.cons.injEq] at h
    rw [Segment.bareList, Segment.bare_eq_of_plain_eq h.1,
      Segment.bareList_eq_of_plainList_eq h.2]

theorem Segment.bare_eq_of_plain_eq : ∀ {s : Segment}, s.bare.plain = s.plain → s.bare = s
  | .mk _ args, h => by
    rw [Segment.bare, Segment.plain, Segment.plain, Segment.mk.injEq] at h
    rw [Segment.bare, Args.bare_eq_of_plain_eq h.2]

/-- Arguments that agree with their bare form have bare types. -/
theorem Args.bare_eq_of_plain_eq : ∀ {a : Args}, a.bare.plain = a.plain → a.bare = a
  | .none, _ => by rw [Args.bare]
  | .angle _ args _, h => by
    rw [Args.bare, Args.plain, Args.plain, Args.angle.injEq] at h
    rw [Args.bare, GenericArg.bareList_eq_of_plainList_eq h.2.1]
  | .paren inputs _ .none, h => by
    rw [Args.bare, Args.plain, Args.plain, Args.paren.injEq] at h
    rw [Args.bare, Ty.bareList_eq_of_plainList_eq h.1]
  | .paren inputs _ (.some t), h => by
    rw [Args.bare, Args.plain, Args.plain, Args.paren.injEq] at h
    rw [Args.bare, Ty.bareList_eq_of_plainList_eq h.1,
      Ty.bare_eq_of_plain_eq (Option.some.inj h.2.2)]

theorem GenericArg.bareList_eq_of_plainList_eq : ∀ {as : List GenericArg},
    GenericArg.plainList (GenericArg.bareList as) = GenericArg.plainList as →
      GenericArg.bareList as = as
  | [], _ => by rw [GenericArg.bareList]
  | a :: r, h => by
    rw [GenericArg.bareList, GenericArg.plainList, GenericArg.plainList, List.cons.injEq] at h
    rw [GenericArg.bareList, GenericArg.bare_eq_of_plain_eq h.1,
      GenericArg.bareList_eq_of_plainList_eq h.2]

/-- A name that a type is given for has no arguments if it agrees with its bare form. -/
theorem GenericArg.bare_eq_of_plain_eq : ∀ {a : GenericArg}, a.bare.plain = a.plain → a.bare = a
  | .type t, h => by
    rw [GenericArg.bare, GenericArg.plain, GenericArg.plain, GenericArg.type.injEq] at h
    rw [GenericArg.bare, Ty.bare_eq_of_plain_eq h]
  | .assocType _ args t, h => by
    rw [GenericArg.bare, GenericArg.plain, GenericArg.plain, GenericArg.assocType.injEq] at h
    rw [GenericArg.bare, Args.eq_none_of_plain_eq h.2.1, Ty.bare_eq_of_plain_eq h.2.2]
  | .lifetime _, _ | .other _, _ => by rw [GenericArg.bare]

end

/-! ### What is lost -/

/-- Types that differ only in binders, `?` and parentheses of bounds and in arguments of names that
types are given for are written in the same way.  Where these are the only parts that are not
structural, nothing else is lost: the bare form of the type is read from its written form, which is
the type itself just when it has no such parts, and types with other bare forms are written in other
ways. -/
theorem Ty.IsRead.render_bare_faithful {t : Ty} (h : t.IsRead) :
    (∀ u : Ty, u.bare = t.bare → u.render = t.render) ∧
    (t.bare.Structural →
      (∃ t', Ty.parse? t.render = some t' ∧ t'.plain = t.bare.plain ∧
        (t'.plain = t.plain ↔ t.bare = t)) ∧
      ∀ u : Ty, u.IsRead → u.bare.Structural → u.bare.plain ≠ t.bare.plain →
        u.render ≠ t.render) := by
  constructor
  · intro u hu
    rw [← Ty.render_bare u, hu, Ty.render_bare]
  intro hs
  constructor
  · -- the bare form is structural, so it is read back from its written form
    obtain ⟨t', ht', hplain⟩ := Ty.exists_parse?_render h.sound.bare hs
    rw [Ty.render_bare] at ht'
    refine ⟨t', ht', hplain, ?_⟩
    rw [hplain]
    constructor
    · exact Ty.bare_eq_of_plain_eq
    · exact congrArg Ty.plain
  · intro u hu hus hne heq
    -- both are written as their bare forms, which are told apart by how they are written
    rw [← Ty.render_bare u, ← Ty.render_bare t] at heq
    exact hne (Ty.plain_eq_of_render_eq hu.sound.bare hus h.sound.bare hs heq)

/-- A type with a binder, a `?` and the arguments of a name that a type is given for. -/
def lendingText : String := "(impl Lend<Item<'a> = u8> + ?Sized, Box<dyn for<'a> Fn(&'a str)>)"

/-- A pair of types in which each part occurs that is not written. -/
theorem Ty.IsRead.render_bare_faithful_lending :
    ∃ t, Ty.parse? lendingText = some t ∧ t.IsRead ∧ t.bare.Structural ∧
      t.render = "(impl Lend<Item = u8> + Sized, Box<dyn Fn(&'a str)>)" ∧
      (∀ u : Ty, u.bare = t.bare → u.render = t.render) ∧
      ∃ t', Ty.parse? t.render = some t' ∧ t'.plain = t.bare.plain ∧
        (t'.plain = t.plain ↔ t.bare = t) := by
  have hread : (Ty.parse? lendingText).any (fun t => decide (t.bare.Structural ∧
      t.render = "(impl Lend<Item = u8> + Sized, Box<dyn Fn(&'a str)>)")) = true := by
    decide +kernel
  obtain ⟨t, ht, hbare⟩ := (Option.any_eq_true _ _).1 hread
  obtain ⟨hs, hrender⟩ := of_decide_eq_true hbare
  obtain ⟨hsame, hlost⟩ := Ty.IsRead.render_bare_faithful (.text ht)
  exact ⟨t, ht, .text ht, hs, hrender, hsame, (hlost hs).1⟩

/-- Whether a text is read as a type whose written form is another text, which is read as another
type. -/
def IsLossy (text written : String) : Prop :=
  ∃ t t' : Ty, Ty.parse? text = some t ∧ t.render = written ∧
    Ty.parse? written = some t' ∧ t'.render = written ∧ t'.plain ≠ t.plain

/-- The types can be told apart by their tokens. -/
theorem IsLossy.of_any {text written : String}
    (h : ((Ty.parse? text).any fun t => (Ty.parse? written).any fun t' =>
      decide (t.render = written ∧ t'.render = written ∧
        Token.textList t'.plain.tokens ≠ Token.textList t.plain.tokens)) = true) :
    IsLossy text written := by
  obtain ⟨t, ht, hpair⟩ := (Option.any_eq_true _ _).1 h
  obtain ⟨t', ht', hpair⟩ := (Option.any_eq_true _ _).1 hpair
  obtain ⟨hrender, hrender', htokens⟩ := of_decide_eq_true hpair
  exact ⟨t, t', ht, hrender, ht', hrender', fun heq => htokens (by rw [heq])⟩

/-- A binder, a `?` and the arguments of a name are lost. -/
theorem not_render_keeps_bounds :
    IsLossy "Box<dyn for<'a> Fn(&'a str)>" "Box<dyn Fn(&'a str)>" ∧
    IsLossy "impl Lend + ?Sized" "impl Lend + Sized" ∧
    IsLossy "Box<dyn Lend<Item<'a> = u8>>" "Box<dyn Lend<Item = u8>>" :=
  ⟨.of_any (by decide +kernel), .of_any (by decide +kernel), .of_any (by decide +kernel)⟩

end FieldBinder
