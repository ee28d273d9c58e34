import FieldBinder.Proofs.Grammar.Reading

/-!
# Reading bounds, arguments and paths

The parts of a type that hold types: bounds, sums of them, lists of types, and the arguments of a
path.  Each is read back if the types in it are.  Only a path in a bound can end with arguments in
parentheses; they are read behind the path in front of them (`takes_boundPath`).  A generic argument
that starts with a name is read as a type first, and the name is taken out of that type if `=`
follows (`GenericArg.reads_assocType`).
-/

namespace FieldBinder

open Grammar
open Token (sizeList marks operators groups words single)

/-! ### Bounds -/

/-- A path in a bound, cut in front of the parentheses at its end. -/
theorem Path.spelling_append (leading : Bool) (ss : List Segment) (w : String) (args : Args) :
    (Path.mk leading (ss ++ [.mk w args])).spelling =
      (Path.mk leading (ss ++ [.mk w .none])).spelling * args.spelling := by
  have hlast (args : Args) : (Segment.mk w args).spelling = words w * args.spelling := by
    rw [Segment.spelling]
  rw [Path.spelling, Path.spelling, mul_assoc]
  congr 1
  cases ss with
  | nil =>
    rw [List.nil_append, List.nil_append, Segment.joined_spellingList, Segment.joined_spellingList,
      hlast, hlast, Args.spelling, Segment.spellingBehind, List.map_nil, List.prod_nil]
    simp only [mul_one]
  | cons s ss =>
    rw [List.cons_append, List.cons_append, Segment.joined_spellingList,
      Segment.joined_spellingList, Segment.spellingBehind, Segment.spellingBehind]
    simp only [List.map_append, List.prod_append, List.map_cons, List.map_nil, List.prod_singleton,
      hlast, Args.spelling, mul_one, mul_assoc]

theorem Args.plain_eq_none {args : Args} (h : args.plain = .none) : args = .none := by
  cases args with
  | none => rfl
  | angle turbofish args trailing =>
    rw [Args.plain] at h
    cases h
  | paren inputs trailing output =>
    cases output <;>
    · rw [Args.plain] at h
      cases h

theorem Segment.plain_eq_name {s : Segment} {w : String} (h : s.plain = .mk w .none) :
    s = .mk w .none := by
  obtain ⟨w', args⟩ := s
  rw [Segment.plain, Segment.mk.injEq] at h
  rw [h.1, Args.plain_eq_none h.2]

/-- A path in a bound without parentheses. -/
theorem takes_boundPath_plain {p : Path} (h : p.Sound false) (hs : p.Structural)
    (hargs : ∀ s ∈ p.segments, s.args.Reads) {ts : List Token} (hts : ts ∈ p.spelling) {n : Nat}
    (hn : 2 * sizeList ts + 2 ≤ n) {us : List Token} (hus : EndsType false us) :
    Takes (boundPath (rules n)) (ts ++ us) us fun p' => p'.plain = p.plain := by
  refine .printed <| (takes_path h hs hargs hts hn hus.endsPath).bind ?_
  rintro ⟨leading, segments⟩ hplain
  refine .look ?_
  generalize segments.getLast? = last
  obtain _ | ⟨w, args⟩ := last
  · exact .pure hplain
  · refine .ite_neg ?_ <| .pure hplain
    rw [hus.isGroup, hus.endsPath.2, Bool.false_and, Bool.or_false, Bool.and_false]

/-- A path whose last segment has no arguments is one without what stands behind last parts. -/
theorem Path.plain_eq_append {p : Path} {leading : Bool} {ss : List Segment} {w : String}
    (h : p.plain = (Path.mk leading (ss ++ [.mk w .none])).plain) :
    ∃ ss', p = .mk leading (ss' ++ [.mk w .none]) ∧
      ss'.map Segment.plain = ss.map Segment.plain := by
  obtain ⟨leading', segments⟩ := p
  rw [Path.plain, Path.plain, Path.mk.injEq, Segment.plainList_eq_map, Segment.plainList_eq_map,
    List.map_append, List.map_eq_append_iff] at h
  obtain ⟨rfl, ss', last, rfl, hss', hlast⟩ := h
  rw [List.map_singleton, Segment.plain] at hlast
  obtain ⟨s, rfl, hs⟩ := List.map_eq_singleton_iff.1 hlast
  exact ⟨ss', by rw [Segment.plain_eq_name hs], hss'⟩

/-- A path in a bound with parentheses at its end. -/
theorem takes_boundPath_paren {leading trailing : Bool} {ss : List Segment} {w : String}
    {inputs : List Ty} {output : Option Ty}
    (h : (Path.mk leading (ss ++ [.mk w .none])).Sound false)
    (hs : (Path.mk leading (ss ++ [.mk w .none])).Structural) (hargs : ∀ s ∈ ss, s.args.Reads)
    (hparen : (Args.paren inputs trailing output).Reads) {ts : List Token}
    (hts : ts ∈ (Path.mk leading (ss ++ [.mk w (.paren inputs trailing output)])).spelling)
    {n : Nat} (hn : 2 * sizeList ts + 2 ≤ n) {us : List Token} (hus : EndsType false us) :
    Takes (boundPath (rules n)) (ts ++ us) us fun p' =>
      p'.plain = (Path.mk leading (ss ++ [.mk w (.paren inputs trailing output)])).plain := by
  -- the path in front is read first; it ends where the parentheses open
  rw [Path.spelling_append] at hts
  obtain ⟨vs, hvs, xs, hxs, rfl⟩ := Language.mem_mul.1 hts
  rw [sizeList_append] at hn
  have hreads : ∀ s ∈ ss ++ [.mk w .none], s.args.Reads :=
    List.forall_mem_append.2 ⟨hargs, List.forall_mem_singleton.2 trivial⟩
  have hbehind := hparen _ hxs n (by omega) us hus
  obtain ⟨body, r, rfl⟩ : ∃ body r, xs = .group .paren body :: r := by
    cases output <;>
    · rw [Args.spelling] at hxs
      obtain ⟨_, ⟨body, -, rfl⟩, r, -, rfl⟩ := Language.mem_mul.1 hxs
      exact ⟨body, r, rfl⟩
  have hends : EndsPath (.group .paren body :: r ++ us) := ⟨rfl, rfl⟩
  have hpath := takes_path h hs hreads hvs (n := n) (by omega) hends
  rw [List.append_assoc]
  refine .printed <| hpath.bind fun p' hp' => ?_
  obtain ⟨ss', rfl, hss'⟩ := Path.plain_eq_append hp'
  refine .look ?_
  rw [List.getLast?_append, List.dropLast_concat]
  refine .ite_pos rfl <| (takes_op?_neg rfl).discard.bind fun _ _ => hbehind.bind fun a ha => ?_
  refine .pure ?_
  rw [Path.plain, Path.plain, Segment.plainList_eq_map, Segment.plainList_eq_map,
    List.map_append, List.map_append, hss', List.map_singleton, List.map_singleton,
    Segment.plain, Segment.plain, ha]

/-- The path of a bound is read back, parentheses at its end included. -/
theorem takes_boundPath {p : Path} (h : p.Sound true) (hs : p.Structural)
    (hargs : ∀ s ∈ p.segments, s.args.Reads) {ts : List Token} (hts : ts ∈ p.spelling) {n : Nat}
    (hn : 2 * sizeList ts + 2 ≤ n) {us : List Token} (hus : EndsType false us) :
    Takes (boundPath (rules n)) (ts ++ us) us fun p' => p'.plain = p.plain := by
  obtain ⟨leading, segments⟩ := p
  have hsound := h
  rw [Path.Sound] at hsound
  obtain ⟨ss, ⟨w, args⟩, rfl⟩ := (List.eq_nil_or_concat' segments).resolve_left hsound.1
  obtain ⟨hfirst, hlast⟩ := Segment.soundList_append.1 hsound.2
  rw [Segment.Sound] at hlast
  -- Only the last segment of a bound may have parentheses: without them the path is like any other.
  have hwith (args' : Args) (h : args'.Sound false (isGenericWord w)) :
      (Path.mk leading (ss ++ [.mk w args'])).Sound false := by
    rw [Path.Sound, Segment.soundList_append, Segment.Sound]
    exact ⟨by simp, hfirst, hlast.1, hlast.2.1, h⟩
  cases args with
  | none => exact takes_boundPath_plain (hwith .none trivial) hs hargs hts hn hus
  | angle turbofish args trailing =>
    have hangle : (Args.angle turbofish args trailing).Sound false (isGenericWord w) := by
      have hargs' := hlast.2.2
      rwa [Args.Sound] at hargs' ⊢
    exact takes_boundPath_plain (hwith _ hangle) hs hargs hts hn hus
  | paren inputs trailing output =>
    obtain ⟨hargs, hparen⟩ := List.forall_mem_append.1 hargs
    -- The path is read up to the word first, and the parentheses behind it after that.
    have hstructural : (Path.mk leading (ss ++ [.mk w .none])).Structural := by
      rw [Path.Structural, Segment.structuralList_iff, List.forall_mem_append] at hs ⊢
      refine ⟨hs.1, List.forall_mem_singleton.2 ?_⟩
      rw [Segment.Structural]
      trivial
    exact takes_boundPath_paren (hwith .none trivial) hstructural hargs
      (hparen _ (List.mem_singleton_self _)) hts hn hus

theorem Bound.reads_lifetime (name : String) : (Bound.lifetime name).Reads := by
  intro ts hts n hn us hus captures constant
  rw [Bound.spelling] at hts
  obtain rfl : ts = [.lifetime name] := hts
  obtain ⟨n, rfl⟩ : ∃ m, n = m + 1 := ⟨n - 1, by omega⟩
  refine .printed <| .look <| .ite_pos rfl <| takes_lifetime.bind ?_
  rintro _ rfl
  exact .pure rfl

theorem Bound.reads_trait {p : Path} (h : p.Sound true) (hs : p.Structural)
    (hargs : ∀ s ∈ p.segments, s.args.Reads) : (Bound.trait false false none p).Reads := by
  intro ts hts n hn us hus captures constant
  rw [Bound.spelling] at hts
  obtain ⟨n, rfl⟩ : ∃ m, n = m + 1 := ⟨n - 1, by omega⟩
  have hpath := takes_boundPath h hs hargs hts (n := n) (by omega) hus
  have hword {v : String} (hv : isSegmentWord v = false) : isWord v (ts ++ us) = false := by
    obtain ⟨joint, r, rfl⟩ | ⟨w, line, r, hw, rfl⟩ := Path.starts_word h hts
    · rfl
    · exact beq_eq_false_of_word hw hv
  -- a path starts with a name or with colons, so none of what may stand in front of it is read
  have hnot : isLifetime (ts ++ us) = false ∧ isOp "?" (ts ++ us) = false ∧
      ∀ d, isGroup d (ts ++ us) = false := by
    obtain ⟨joint, r, rfl⟩ | ⟨w, line, r, hw, rfl⟩ := Path.starts_word h hts <;>
      exact ⟨rfl, rfl, fun _ => rfl⟩
  have hconst : Takes (constMark constant) (ts ++ us) (ts ++ us) (· = false) :=
    .look <| .ite_neg (hnot.2.2 _) <| .word?_neg (hword (by decide)) <| .ite_neg rfl <| .pure rfl
  have htrait : Takes (traitBound (rules n) constant false) (ts ++ us) us fun b =>
      ∃ p', b = some (.trait false false none p') ∧ p'.plain = p.plain := by
    refine .noBinder (hword (by decide)) <| hconst.bind ?_
    rintro _ rfl
    refine .op?_neg hnot.2.1 <| (Takes.pure (P := (· = none)) rfl).bind ?_
    rintro _ rfl
    refine hpath.bind fun p' hp' => .pure ⟨p', rfl, hp'⟩
  refine .printed <| .look <| .ite_neg hnot.1 <| .ite_neg (hword (by decide)) ?_
  refine (Takes.ite_neg (hnot.2.2 _) htrait).verbatim.bind ?_
  rintro ⟨_, tokens⟩ ⟨p', rfl, hp'⟩
  refine .pure ?_
  change (Bound.trait false false none p').plain = (Bound.trait false false none p).plain
  rw [Bound.plain, Bound.plain, hp']

/-! ### Sums of bounds -/

/-- What a bound is written as begins with a token by which a bound is recognised. -/
theorem Bound.isBoundStart {b : Bound} (h : b.Sound) (hs : b.Structural) {ts : List Token}
    (hts : ts ∈ b.spelling) (constant : Bool) (us : List Token) :
    isBoundStart constant (ts ++ us) = true := by
  cases b with
  | trait parens isMaybe binder path =>
    rw [Bound.Sound] at h
    rw [Bound.spelling] at hts
    obtain ⟨joint, r, rfl⟩ | ⟨w, line, r, -, rfl⟩ := Path.starts_word h.2 hts
    · simp [Grammar.isBoundStart, isOp, startsWith]
    · simp [Grammar.isBoundStart, isAnyWord]
  | lifetime name =>
    rw [Bound.spelling] at hts
    obtain rfl : ts = [.lifetime name] := hts
    simp [Grammar.isBoundStart, isLifetime]
  | other tokens =>
    rw [Bound.Structural] at hs
    exact hs.elim

/-- Bounds in a sum. -/
theorem readsItem_bounds {bs : List Bound} (h : ∀ b ∈ bs, b.Sound) (hs : ∀ b ∈ bs, b.Structural)
    (hreads : ∀ b ∈ bs, b.Reads) {n size : Nat} (hn : 2 * size + 3 ≤ n) (captures constant : Bool) :
    ∀ b ∈ bs, ReadsItem (rules n (.bound captures constant)) (fun ts => !isBoundStart constant ts)
      (EndsType false) size b.spelling fun b' : Bound => b'.plain = b.plain := by
  intro b hb ts hts hsize
  constructor
  · intro us
    exact congrArg not (Bound.isBoundStart (h b hb) (hs b hb) hts constant us)
  · intro us hus
    exact hreads b hb ts hts n (by omega) us hus captures constant

/-- Bounds with plus signs between them are read back. -/
theorem takes_bounds {bs : List Bound} (h : Bound.SoundList bs) (hs : Bound.StructuralList bs)
    (hreads : ∀ b ∈ bs, b.Reads) (hne : bs ≠ []) {plus : Bool}
    (hplus : plus = false → bs.length = 1) {ts : List Token}
    (hts : ts ∈ Token.joined (marks '+') (Bound.spellingList bs)) {n : Nat}
    (hn : 2 * sizeList ts + 3 ≤ n) {us : List Token} (hus : EndsType plus us)
    (captures constant : Bool) :
    Takes (bounds (rules n) plus captures constant) (ts ++ us) us
      fun x => x.1.map Bound.plain = bs.map Bound.plain := by
  rw [Bound.spellingList_eq_map] at hts
  rw [Bound.soundList_iff] at h
  rw [Bound.structuralList_iff] at hs
  obtain ⟨b, bs, rfl⟩ := List.exists_cons_of_ne_nil hne
  obtain ⟨hfirst, hmore⟩ := List.forall_mem_cons.1 hreads
  -- the first bound is read on its own; a sum goes on behind `+`
  cases bs with
  | nil =>
    refine (hfirst ts hts n hn us hus.sum captures constant).bind fun b' hb' => ?_
    cases plus with
    | false => exact .ite_pos rfl <| .pure (congrArg (fun b => [b]) hb')
    | true =>
      have hend : isOp "+" us = false := hus.isOp (o := "+") rfl (by decide)
      exact .ite_neg rfl <| .op?_neg hend <| .pure (congrArg (fun b => [b]) hb')
  | cons b' bs =>
    obtain rfl : plus = true := by
      cases plus with
      | false => simp at hplus
      | true => rfl
    obtain ⟨vs, hvs, joint, xs, hxs, rfl⟩ := mem_joined_marks.1 hts
    rw [sizeList_append, sizeList] at hn
    have hitems := readsItem_bounds (List.forall_mem_cons.1 h).2 (List.forall_mem_cons.1 hs).2 hmore
      (n := n) (show 2 * sizeList xs + 3 ≤ n by omega) captures constant
    have hend : isOp "+" us = false := hus.isOp (o := "+") rfl (by decide)
    have hpunct (joint : Bool) (vs : List Token) : EndsType false (.punct '+' joint :: vs) :=
      endsType_punct (by decide) joint vs
    have hjoined := Takes.joined (c := '+') rfl hpunct hitems (List.cons_ne_nil b' bs) hxs le_rfl
      hend hus.sum
    have hplus := hpunct joint (xs ++ us)
    rw [List.append_assoc]
    refine (hfirst vs hvs n (by omega) _ hplus captures constant).bind fun a ha => ?_
    refine .ite_neg rfl <| .op?_pos rfl <| hjoined.bind fun x hx => ?_
    exact .pure (congrArg₂ List.cons ha hx)

theorem namesTrait_plain (b : Bound) : namesTrait b.plain = namesTrait b := by
  cases b with
  | trait parens isMaybe binder path => rw [Bound.plain, namesTrait, namesTrait]
  | lifetime name => rw [Bound.plain]
  | other tokens => rw [Bound.plain]

/-- Whether one of the bounds is a trait is seen without what stands behind them. -/
theorem namesTraits_of_map_plain_eq {bs bs' : List Bound}
    (h : bs'.map Bound.plain = bs.map Bound.plain) : namesTraits bs' = namesTraits bs := by
  have hmap (bs : List Bound) : namesTraits (bs.map Bound.plain) = namesTraits bs := by
    rw [namesTraits, List.any_map, namesTraits]
    exact congrArg (bs.any ·) (funext namesTrait_plain)
  rw [← hmap bs', h, hmap]

/-! ### Lists of types -/

/-- Types in a list with commas. -/
theorem readsItem_types {elems : List Ty} (h : Ty.SoundList elems) (hs : Ty.StructuralList elems)
    (hreads : ∀ t ∈ elems, t.Reads true) {n size : Nat} (hn : 2 * size + 4 ≤ n) :
    ∀ t ∈ elems, ReadsItem (rules n (.type true)) List.isEmpty (EndsType true) size t.spelling
      fun u : Ty => u.plain = t.plain := by
  intro t ht ts hts hsize
  constructor
  · intro us
    have hsound := Ty.soundList_iff.1 h t ht
    obtain ⟨t', r, rfl, -⟩ := Ty.starts hsound (Ty.structuralList_iff.1 hs t ht) hts
    rfl
  · intro us hus
    exact hreads t ht ts hts n (by omega) us hus

/-- Types with commas between them are read back. -/
theorem takes_types {elems : List Ty} (h : Ty.SoundList elems) (hs : Ty.StructuralList elems)
    (hreads : ∀ t ∈ elems, t.Reads true) {ts : List Token}
    (hts : ts ∈ Token.joined (marks ',') (Ty.spellingList elems)) {n : Nat}
    (hn : 2 * sizeList ts + 4 ≤ n) :
    Takes (commas (rules n (.type true))) ts [] fun x => x.1.map Ty.plain = elems.map Ty.plain := by
  rw [Ty.spellingList_eq_map] at hts
  have hitems := readsItem_types h hs hreads hn
  have hcommas : Takes (commas (rules n (.type true))) (ts ++ []) []
      fun x => x.1.map Ty.plain = elems.map Ty.plain := by
    refine Takes.separated rfl ?_ hitems hts le_rfl rfl endsType_nil
    intro joint vs
    exact ⟨rfl, endsType_punct (by decide) joint vs⟩
  rwa [List.append_nil] at hcommas

/-! ### Arguments of segments -/

/-- The brackets around arguments, behind `::` or directly behind the name. -/
theorem takes_angleArgs {g : Rules} {turbofish : Bool} {joint joint' : Bool} {vs ts us : List Token}
    {P : Args → Prop} (hvs : vs ∈ (if turbofish then operators ':' ':' else 1 : Language Token))
    (hargs : Takes (separated "," (isOp ">") (genericArg g)) (ts ++ .punct '>' joint' :: us)
      (.punct '>' joint' :: us) fun x => P (.angle turbofish x.1 x.2)) :
    Takes (angleArgs g turbofish) (vs ++ .punct '<' joint :: (ts ++ .punct '>' joint' :: us)) us
      P := by
  rw [angleArgs]
  cases turbofish with
  | true =>
    obtain ⟨joint'', rfl⟩ := hvs
    refine .ite_pos rfl <| .op rfl <| .op rfl <| hargs.bind ?_
    rintro ⟨args, trailing⟩ h
    exact .op rfl <| .pure h
  | false =>
    obtain rfl : vs = [] := hvs
    refine .ite_neg rfl <| .op rfl <| hargs.bind ?_
    rintro ⟨args, trailing⟩ h
    exact .op rfl <| .pure h

/-- Arguments in angle brackets are read back. -/
theorem Args.reads_angle {turbofish trailing : Bool} {args : List GenericArg}
    (h : GenericArg.SoundList args) (hs : GenericArg.StructuralList args)
    (hreads : ∀ a ∈ args, a.Reads) : (Args.angle turbofish args trailing).Reads := by
  intro ts hts n hn us
  obtain ⟨vs, hvs, joint, xs, hxs, joint', rfl⟩ := mem_spelling_angle.1 hts
  simp only [sizeList_append, sizeList, Token.size] at hn
  rw [GenericArg.spellingList_eq_map] at hxs
  -- no argument begins as the closing bracket does
  have hitems : ∀ a ∈ args, ReadsItem (genericArg (rules n)) (isOp ">")
      (fun us => EndsType true us ∧ isOp "=" us = false) (sizeList xs) a.spelling
      fun a' : GenericArg => a'.plain = a.plain := by
    intro a ha ts hts hsize
    constructor
    · intro us
      obtain ⟨t, r, rfl, ⟨l, rfl⟩ | ht⟩ := GenericArg.starts (GenericArg.soundList_iff.1 h a ha)
        (GenericArg.structuralList_iff.1 hs a ha) hts
      · rfl
      · exact ht.isOp (o := ">") rfl (by decide) _
    · rintro us ⟨hus, hequals⟩
      exact hreads a ha ts hts n (by omega) us hus hequals
  have hargs : Takes (separated "," (isOp ">") (genericArg (rules n)))
      (xs ++ .punct '>' joint' :: us) (.punct '>' joint' :: us)
      fun x => x.1.map GenericArg.plain = args.map GenericArg.plain := by
    refine Takes.separated rfl ?_ hitems hxs le_rfl rfl ⟨endsType_punct (by decide) _ _, rfl⟩
    intro joint vs
    exact ⟨rfl, endsType_punct (by decide) joint vs, rfl⟩
  have hshape : vs ++ .punct '<' joint :: (xs ++ [.punct '>' joint']) ++ us =
      vs ++ .punct '<' joint :: (xs ++ .punct '>' joint' :: us) := by
    simp
  rw [hshape]
  refine takes_angleArgs hvs <| hargs.mono fun x hx => ?_
  rw [Args.plain, Args.plain, GenericArg.plainList_eq_map, GenericArg.plainList_eq_map, hx]

/-- Arguments in parentheses without the type of a result, and with one. -/
theorem Args.plain_paren (inputs : List Ty) (trailing : Bool) (output : Option Ty) :
    (Args.paren inputs trailing output).plain =
      .paren (inputs.map Ty.plain) false (output.map Ty.plain) := by
  cases output <;> rw [Args.plain, Ty.plainList_eq_map] <;> rfl

/-- Arguments in parentheses are read back with their result type. -/
theorem Args.reads_paren {inputs : List Ty} {trailing : Bool} {output : Option Ty}
    (h : Ty.SoundList inputs) (hs : Ty.StructuralList inputs)
    (hinputs : ∀ t ∈ inputs, t.Reads true) (houtput : ∀ t ∈ output, t.Reads false) :
    (Args.paren inputs trailing output).Reads := by
  intro ts hts n hn us hus
  -- What is behind the parentheses is read back first: the result type, or its absence.
  have hreturn : ∃ body ∈ Token.joined (marks ',') (Ty.spellingList inputs), ∃ r,
      ts = .group .paren body :: r ∧ Takes (returnType (rules n) false) (r ++ us) us
        fun o => o.map Ty.plain = output.map Ty.plain := by
    cases output with
    | none =>
      rw [Args.spelling, mul_one] at hts
      obtain ⟨body, hbody, rfl⟩ := hts
      exact ⟨body, hbody, [], rfl, .op?_neg (hus.isOp (o := "->") rfl (by decide)) <| .pure rfl⟩
    | some t =>
      rw [Args.spelling] at hts
      obtain ⟨_, ⟨body, hbody, rfl⟩, _, hresult, rfl⟩ := Language.mem_mul.1 hts
      obtain ⟨_, ⟨joint, rfl⟩, xs, hxs, rfl⟩ := Language.mem_mul.1 hresult
      simp only [sizeList_append, sizeList, Token.size] at hn
      refine ⟨body, hbody, _, rfl, .op?_pos rfl <| .ite_pos rfl ?_⟩
      exact (houtput t rfl xs hxs n (by omega) us hus).map fun u hu => congrArg some hu
  obtain ⟨body, hbody, r, rfl, houtput⟩ := hreturn
  rw [sizeList, Token.size] at hn
  have htypes := takes_types h hs hinputs hbody (n := n) (by omega)
  refine htypes.inside.bind ?_
  rintro ⟨inputs', trailing'⟩ hinputs'
  refine houtput.bind fun output' houtput' => .pure ?_
  rw [Args.plain_paren, Args.plain_paren, hinputs', houtput']

/-! ### Generic arguments -/

theorem GenericArg.reads_lifetime (name : String) : (GenericArg.lifetime name).Reads := by
  intro ts hts n hn us hus hequals
  rw [GenericArg.spelling] at hts
  obtain rfl : ts = [.lifetime name] := hts
  have hplus : (isLifetime (.lifetime name :: us) && !isOp "+" us) = true := by
    rw [hus.isOp (o := "+") rfl (by decide)]
    rfl
  refine .printed <| .look <| .ite_pos hplus <| takes_lifetime.bind ?_
  rintro _ rfl
  exact .pure rfl

/-- A name alone is read as an argument with nothing behind it. -/
theorem takes_namedArgument {w : String} {args : Args} {n : Nat} {us : List Token}
    (hus : EndsType true us) (hequals : isOp "=" us = false) :
    Takes (namedArgument (rules n) w args) us us
      (· = .type (.path (.mk false [.mk w args]))) := by
  refine .op?_neg hequals <| .op?_neg ?_ <| .pure rfl
  exact hus.isOp (o := ":") rfl (by decide)

theorem GenericArg.reads_type {t : Ty} (h : t.Sound true) (hs : t.Structural)
    (hreads : t.Reads true) : (GenericArg.type t).Reads := by
  intro ts hts n hn us hus hequals
  rw [GenericArg.spelling] at hts
  have htakes := hreads ts hts n hn us hus
  obtain ⟨t', r, rfl, ht'⟩ := Ty.starts h hs hts
  have hlifetime : (isLifetime (t' :: r ++ us) && !isOp "+" ((t' :: r ++ us).drop 1)) = false := by
    rw [List.cons_append, ht'.isLifetime, Bool.false_and]
  refine .printed <| .look <| .ite_neg hlifetime <| .ite_neg (ht'.isConstStart _) <|
    htakes.bind fun u hu => ?_
  have htype (u : Ty) (hu : u.plain = t.plain) :
      (GenericArg.type u).plain = (GenericArg.type t).plain := by
    rw [GenericArg.plain, GenericArg.plain, hu]
  -- a type that is one name could be the name of an associated type, but no `=` follows
  split
  · refine (takes_namedArgument hus hequals).mono ?_
    rintro _ rfl
    exact htype _ hu
  · exact .pure (htype u hu)

/-! ### Types that are paths -/

/-- Behind the first name of a path comes no `#`, which would make a call of it. -/
theorem Path.isOp_hash {p : Path} (h : p.Sound false) {w : String} {line : Nat} {r : List Token}
    (hr : .ident w line :: r ∈ p.spelling) {plus : Bool} {us : List Token}
    (hus : EndsType plus us) : isOp "#" (r ++ us) = false := by
  obtain ⟨leading, segments⟩ := p
  rw [Path.Sound] at h
  obtain ⟨⟨w', args⟩, ss, rfl⟩ := List.exists_cons_of_ne_nil h.1
  rw [Segment.SoundList, Segment.Sound] at h
  rw [Path.spelling, Segment.joined_spellingList, Segment.spelling] at hr
  obtain ⟨vs, hvs, _, hsegments, heq⟩ := Language.mem_mul.1 hr
  obtain ⟨_, hfirst, ys, hys, rfl⟩ := Language.mem_mul.1 hsegments
  obtain ⟨_, ⟨line', rfl⟩, xs, hxs, rfl⟩ := Language.mem_mul.1 hfirst
  cases leading with
  | true =>
    obtain ⟨joint, rfl⟩ := hvs
    cases heq
  | false =>
    obtain rfl : vs = [] := hvs
    obtain ⟨-, rfl⟩ := List.cons.inj heq
    -- Behind the first segment stands `::` or what ends the type, and neither is a `#`.
    have hbehind : isOp "#" (ys ++ us) = false := by
      cases ss with
      | nil =>
        obtain rfl : ys = [] := hys
        exact hus.isOp (o := "#") rfl (by cases plus <;> decide)
      | cons s ss =>
        obtain ⟨joint, _, -, _, -, rfl⟩ := Segment.mem_spellingBehind_cons.1 hys
        rfl
    change isOp "#" (xs ++ ys ++ us) = false
    rw [List.append_assoc]
    cases args with
    | none =>
      rw [Args.spelling, Language.mem_one] at hxs
      subst hxs
      exact hbehind
    | angle turbofish args trailing =>
      obtain ⟨zs, hzs, joint, _, -, _, rfl⟩ := mem_spelling_angle.1 hxs
      cases turbofish with
      | true =>
        obtain ⟨joint', rfl⟩ := hzs
        rfl
      | false =>
        obtain rfl : zs = [] := hzs
        rfl
    | paren inputs trailing output => cases (Args.sound_paren.1 h.2.1.2.2).1

/-- A type that is a path is read back as one: no bound and no macro follows it. -/
theorem takes_pathType {p : Path} (h : p.Sound false) (hs : p.Structural)
    (hargs : ∀ s ∈ p.segments, s.args.Reads) {ts : List Token} (hts : ts ∈ p.spelling) {n : Nat}
    (hn : 2 * sizeList ts + 2 ≤ n) {plus : Bool} {us : List Token} (hus : EndsType plus us) :
    Takes (pathType (rules n) plus none) (ts ++ us) us
      fun t : Ty => t.plain = (Ty.path p).plain := by
  have hpath := takes_path h hs hargs hts hn hus.endsPath
  have hany : Takes (anyPath (rules n) false) (ts ++ us) us
      fun o => ∃ p', o = some p' ∧ p'.plain = p.plain := by
    refine .look <| .ite_neg ?_ <| hpath.map fun p' hp' => ⟨p', rfl, hp'⟩
    obtain ⟨joint, r, rfl⟩ | ⟨w, line, r, -, rfl⟩ := Path.starts_word h hts <;> rfl
  have hcall (p' : Path) : (isOp "!" us && !isOp "!=" us && p'.isPlain) = false := by
    rw [hus.isOp (o := "!") rfl (by cases plus <;> decide), Bool.false_and, Bool.false_and]
  have hplus : (plus && isOp "+" us) = false := by
    cases plus with
    | false => rfl
    | true => exact hus.isOp (o := "+") rfl (by decide)
  refine hany.captured.bind ?_
  rintro ⟨_, tokens⟩ ⟨p', rfl, hp'⟩
  refine .look <| .ite_neg (hcall p') <| .ite_neg hplus <| .ite_neg rfl <| .pure ?_
  rw [Ty.plain, Ty.plain, hp']

theorem Ty.reads_path {p : Path} {plus : Bool} (h : (Ty.path p).Sound plus) (hs : p.Structural)
    (hargs : ∀ s ∈ p.segments, s.args.Reads) : (Ty.path p).Reads plus := by
  intro ts hts n hn us hus
  rw [Ty.Sound] at h
  rw [Ty.spelling] at hts
  obtain ⟨n, rfl⟩ : ∃ m, n = m + 1 := ⟨n - 1, by omega⟩
  have htype := takes_pathType h.1 hs hargs hts (n := n) (by omega) hus
  obtain ⟨joint, r, rfl⟩ | ⟨hleading, w, line, r, hw, rfl⟩ := Path.starts h.1 hts
  · exact takes_type_colons htype
  · exact takes_type_word (h.2 hleading w hw) (Path.isOp_hash h.1 hts hus) htype

/-! ### Types for names -/

theorem isSegmentWord_of_isTypeWord {w : String} (h : isTypeWord w = true) :
    isSegmentWord w = true := by
  rw [isTypeWord] at h
  rw [isSegmentWord]
  simp only [List.contains_cons, List.contains_nil, Bool.or_eq_true] at h ⊢
  tauto

theorem Ty.reads_name {w : String} (h : IsNameText w) (hw : isTypeWord w = true) {plus : Bool} :
    (Ty.path (.ofIdent w)).Reads plus := by
  refine Ty.reads_path ?_ ?_ ?_
  · have hsegment : (Segment.mk w .none).Sound false := by
      rw [Segment.Sound]
      exact ⟨h, isSegmentWord_of_isTypeWord hw, trivial⟩
    rw [Ty.Sound, Path.ofIdent, Path.Sound, Segment.soundList_iff, List.forall_mem_singleton]
    refine ⟨⟨List.cons_ne_nil _ _, hsegment⟩, ?_⟩
    rintro - _ ⟨⟩
    exact hw
  · rw [Path.ofIdent, Path.Structural, Segment.structuralList_iff, List.forall_mem_singleton,
      Segment.Structural]
    trivial
  · rw [Path.ofIdent, Path.segments, List.forall_mem_singleton]
    trivial

theorem Ty.spelling_name (w : String) : (Ty.path (.ofIdent w)).spelling = words w := by
  rw [Ty.spelling, Path.ofIdent, Path.spelling, Segment.joined_spellingList, Segment.spelling,
    Args.spelling, Segment.spellingBehind]
  simp

theorem Ty.plain_name (w : String) : (Ty.path (.ofIdent w)).plain = .path (.ofIdent w) := by
  rw [Ty.plain, Path.ofIdent, Path.plain, Segment.plainList_eq_map, List.map_singleton,
    Segment.plain, Args.plain]

theorem Ty.plain_eq_name {t : Ty} {w : String} (h : t.plain = .path (.ofIdent w)) :
    t = .path (.ofIdent w) := by
  cases t with
  | path p =>
    obtain ⟨leading, segments⟩ := p
    rw [Ty.plain, Path.plain, Segment.plainList_eq_map, Path.ofIdent, Ty.path.injEq,
      Path.mk.injEq] at h
    obtain ⟨s, rfl, hs⟩ := List.map_eq_singleton_iff.1 h.2
    rw [h.1, Segment.plain_eq_name hs, Path.ofIdent]
  | _ =>
    rw [Ty.plain] at h
    cases h

theorem GenericArg.reads_assocType {w : String} {t : Ty}
    (h : (GenericArg.assocType w .none t).Sound) (hs : t.Structural) (hreads : t.Reads true) :
    (GenericArg.assocType w .none t).Reads := by
  intro ts hts n hn us hus hequals
  rw [GenericArg.Sound] at h
  rw [GenericArg.spelling, mul_assoc] at hts
  obtain ⟨_, ⟨line, rfl⟩, _, hvalue, rfl⟩ := Language.mem_mul.1 hts
  obtain ⟨_, ⟨joint, rfl⟩, xs, hxs, rfl⟩ := Language.mem_mul.1 hvalue
  simp only [sizeList_append, sizeList, Token.size] at hn
  have hvalue := hreads xs hxs n (by omega) us hus
  obtain ⟨t', r, rfl, ht'⟩ := Ty.starts h.2.2.2 hs hxs
  have hname : Takes (rules n (.type true)) (.ident w line :: .punct '=' joint :: (t' :: r ++ us))
      (.punct '=' joint :: (t' :: r ++ us)) (· = .path (.ofIdent w)) := by
    refine (Ty.reads_name h.1 h.2.1 [.ident w line] ?_ n ?_ _ (endsType_punct (by decide) _ _)).mono
      fun u hu => Ty.plain_eq_name (hu.trans (Ty.plain_name w))
    · rw [Ty.spelling_name]
      exact ⟨line, rfl⟩
    · simp only [sizeList, Token.size]
      omega
  -- the name has been taken for a type, which `=` turns into a name again
  have hstart : StartsType (.ident w line) := .inl h.2.1
  refine .printed <| .look <| .ite_neg rfl <| .ite_neg (hstart.isConstStart _) <| hname.bind ?_
  rintro _ rfl
  refine .op?_pos rfl <| .look <| .ite_neg (ht'.isConstStart _) <| hvalue.bind fun u hu => .pure ?_
  rw [GenericArg.plain, GenericArg.plain, hu]

end FieldBinder
