import FieldBinder.Proofs.Grammar.Ensures
import FieldBinder.Proofs.Grammar.Sound

/-!
# What readers of types ensure

The readers of attributes, paths, generic parameters and types give sound trees, if the readers for
the phrases inside do (`ensures_type`, `ensures_bound`).
-/

namespace FieldBinder.Grammar

open Token

set_option synthInstance.maxSize 1000

/-- Readers for phrases that give sound trees. -/
class Rules.Sound (g : Rules) : Prop where
  ensures : ∀ p : Phrase, Ensures (g p) p.Sound

variable {g : Rules} [Rules.Sound g]

/-! ### Phrases -/

instance yields_type {plus : Bool} : @Yields Ty (g (.type plus)) (Ty.Sound plus) :=
  ⟨Rules.Sound.ensures (.type plus)⟩

instance yields_bound {captures constant : Bool} :
    @Yields Bound (g (.bound captures constant)) Bound.Sound :=
  ⟨Rules.Sound.ensures (.bound captures constant)⟩

instance yields_expr {braces : Bool} : @Yields Expr (g (.expr braces)) Expr.Sound :=
  ⟨Rules.Sound.ensures (.expr braces)⟩

instance yields_operand {braces : Bool} : @Yields Expr (g (.operand braces)) Expr.Sound :=
  ⟨Rules.Sound.ensures (.operand braces)⟩

instance yields_operators {braces : Bool} {base : Precedence} {left : Expr} :
    @Yields Expr (g (.operators braces base left)) fun e => left.Sound → e.Sound :=
  ⟨Rules.Sound.ensures (.operators braces base left)⟩

instance yields_standing : @Yields Expr (g .standing) Expr.Sound :=
  ⟨Rules.Sound.ensures .standing⟩

instance steady_pattern : @Gives PatternForm (fun _ => True) (g .pattern) :=
  ⟨Rules.Sound.ensures .pattern⟩

instance steady_statements : @Gives Unit (fun _ => True) (g .statements) :=
  ⟨Rules.Sound.ensures .statements⟩

instance yields_useTree {root : Bool} :
    @Yields (Option UseTree) (g (.useTree root)) fun o => ∀ t ∈ o, t.Sound :=
  ⟨Rules.Sound.ensures (.useTree root)⟩

instance yields_fields :
    @Yields (List NamedField) (g .fields) fun fields => ∀ f ∈ fields, f.Sound :=
  ⟨Rules.Sound.ensures .fields⟩

instance yields_item : @Yields Item (g .item) Item.Sound := ⟨Rules.Sound.ensures .item⟩

/-! ### Attributes -/

instance steady_plainSegments {accepts : List Token → Bool} {n : Nat} :
    Steady (plainSegments accepts n) := by
  induction n with
  | zero => exact steady_pure _
  | succ n ih =>
    unfold plainSegments
    dsimp only
    infer_instance

instance steady_plainPath : Steady plainPath := by
  unfold plainPath
  dsimp only
  infer_instance

instance yields_attributeValue : Yields (attributeValue g) Expr.Sound := by
  refine ⟨.after fun whole => ?_⟩
  split
  · exact .pure trivial
  · refine .from fun ts _ => ?_
    dsimp only
    exact .ite (fun _ => Gives.ensures) fun _ => Yields.ensures

instance yields_attributeBody : Yields (attributeBody g) Attribute.Sound := by
  unfold attributeBody
  extract_lets jp
  have hjp (path : Path) : Ensures (jp path) Attribute.Sound := by
    refine .from fun ts _ => ?_
    split
    · exact .from fun x hx => .pure hx
    · exact .ite (fun _ => .after fun _ => .from fun e he => .pure he) fun _ => .pure trivial
  exact ⟨.after fun _ => .ite (fun _ => .after hjp) fun _ => .after hjp⟩

instance yields_outerAttributes :
    Yields (outerAttributes g) fun attributes => ∀ a ∈ attributes, a.Sound := by
  have hattribute : Ensures (outerAttribute g) Attribute.Sound :=
    .after fun _ => Yields.ensures.inside
  exact ⟨.many <| .after fun _ => .ite
    (fun _ => hattribute.map fun a ha => by simpa using ha) fun _ => .pure (by simp)⟩

instance steady_innerAttributes : Steady (innerAttributes g) := by
  unfold innerAttributes
  infer_instance

instance steady_bracedBlock : Steady (bracedBlock g) := by
  unfold bracedBlock
  infer_instance

/-! ### Arguments -/

instance steady_constArgument : Steady (constArgument g) := by
  unfold constArgument
  infer_instance

/-- A name in angle brackets is read as a type for a name, or as a type. -/
theorem ensures_namedArgument {ident : String} {args : Args} (hident : IsNameText ident)
    (hword : isTypeWord ident = true) (hargs : args.Sound false (isGenericWord ident)) :
    Ensures (namedArgument g ident args) GenericArg.Sound := by
  have hhead : LexicalList (Token.word ident :: args.tokens) :=
    ⟨lexical_word.2 hident, hargs.lexicalList⟩
  refine .after fun _ => .ite (fun _ => .after fun _ => .ite (fun _ => ?_) fun _ => ?_) fun _ => ?_
  · refine .from fun x hx => .pure ?_
    rw [GenericArg.Sound, lexicalList_append, lexicalList_cons]
    exact ⟨hhead, lexical_punct.2 (by decide), hx⟩
  · refine .from fun t ht => .pure ?_
    rw [GenericArg.Sound]
    exact ⟨hident, hword, hargs, ht⟩
  refine .after fun _ => .ite (fun _ => ?_) fun _ => .pure ?_
  · refine .bind (Yields.ensures.joined _ _) fun x hx => .pure ?_
    rw [GenericArg.Sound, lexicalList_append, lexicalList_cons]
    refine ⟨hhead, lexical_punct.2 (by decide), lexicalList_separate (by decide) _ fun ts hts => ?_⟩
    obtain ⟨b, hb, rfl⟩ := List.mem_map.1 hts
    exact (hx b hb).lexicalList
  · simp only [GenericArg.Sound, Ty.Sound, Path.Sound, Segment.SoundList, Segment.Sound]
    -- With neither `=` nor `:` behind it the name is a type, and so a path of one segment.
    have hsegment : isSegmentWord ident = true := by
      simp only [isTypeWord, isSegmentWord, List.contains_cons, List.contains_nil, Bool.or_eq_true,
        beq_iff_eq] at hword ⊢
      tauto
    exact ⟨⟨by simp, ⟨hident, hsegment, hargs⟩, trivial⟩,
      fun _ => by simpa [Path.idents, Path.segments, Segment.ident] using hword⟩

instance yields_genericArg : Yields (genericArg g) GenericArg.Sound := by
  refine ⟨.printed ?_ fun a ha => ha.lexicalList⟩
  refine .from fun ts _ => .ite (fun _ => ?_) fun _ => .ite (fun _ => ?_) fun _ => ?_
  · exact .from fun l hl => .pure (by rwa [GenericArg.Sound])
  · exact .from fun x hx => .pure (by rwa [GenericArg.Sound])
  refine .from fun t ht => ?_
  split
  · next ident args =>
    simp only [Ty.Sound, Path.Sound, Segment.SoundList, Segment.Sound] at ht
    obtain ⟨⟨-, ⟨hident, -, hargs⟩, -⟩, hword⟩ := ht
    exact ensures_namedArgument hident (hword rfl ident rfl) hargs
  · exact .pure (by rwa [GenericArg.Sound])

/-- Arguments in angle brackets are sound where brackets are admitted. -/
theorem ensures_angleArgs {turbofish parens brackets : Bool} (hbrackets : brackets = true) :
    Ensures (angleArgs g turbofish) fun a => a.Sound parens brackets := by
  have hargs : Ensures (do
      op "<"
      let x ← separated "," (isOp ">") (genericArg g)
      op ">"
      return Args.angle turbofish x.1 x.2) fun a => a.Sound parens brackets :=
    .after fun _ => .bind (Yields.ensures.separated _ _) fun x hx => .after fun _ => .pure <| by
      rw [Args.Sound]
      exact ⟨hbrackets, GenericArg.soundList_iff.2 hx⟩
  unfold angleArgs
  exact .ite (fun _ => .after fun _ => hargs) fun _ => hargs

instance yields_returnType {plus : Bool} :
    Yields (returnType g plus) fun o => ∀ t ∈ o, t.Sound plus := by
  refine ⟨.after fun _ => .ite (fun _ => ?_) fun _ => .pure (by simp)⟩
  exact Yields.ensures.map fun t ht => by simpa using ht

/-- Arguments in parentheses are sound where parentheses are admitted. -/
theorem ensures_parenArgs (brackets : Bool) :
    Ensures (parenArgs g) fun a => a.Sound true brackets := by
  refine .bind Yields.ensures.commas.inside fun x hx => .from fun o ho => .pure ?_
  exact Args.sound_paren.2 ⟨rfl, Ty.soundList_iff.2 hx, ho⟩

/-! ### Paths -/

/-- The name of a segment is the word that comes next. -/
theorem ensuresAt_segment {inExpr : Bool} (ts : List Token) :
    EnsuresAt ts (segment g inExpr) fun s =>
      s.Sound false ∧ ∃ line r, ts = .ident s.ident line :: r := by
  refine .printed ?_ fun s hs => hs.1.lexicalList
  refine .look <| .ite (fun hword => ?_) fun _ => .look ?_
  · -- a word that leads to a module has no arguments
    refine (ensuresAt_anyWord ts).bind fun w hw => .pure ?_
    obtain ⟨hw, line, r, rfl⟩ := hw
    refine ⟨?_, line, r, rfl⟩
    rw [isOneOf] at hword
    rw [Segment.Sound]
    exact ⟨hw, by rw [isSegmentWord, hword, Bool.or_true], by rw [Args.Sound]; trivial⟩
  extract_lets arguments
  have harguments {w : String} (hw : IsNameText w ∧ ∃ line r, ts = .ident w line :: r)
      (hgeneric : isGenericWord w = true) : Ensures (arguments w) fun s =>
        s.Sound false ∧ ∃ line r, ts = .ident s.ident line :: r := by
    have hsegment {args : Args} (hargs : args.Sound false (isGenericWord w)) :
        (Segment.mk w args).Sound false ∧ ∃ line r, ts = .ident w line :: r := by
      have hword : isSegmentWord w = true := by
        rw [isGenericWord] at hgeneric
        rw [isSegmentWord, hgeneric, Bool.true_or]
      rw [Segment.Sound]
      exact ⟨⟨hw.1, hword, hargs⟩, hw.2⟩
    refine .from fun us _ => .ite (fun _ => ?_) fun _ => .ite (fun _ => ?_) fun _ => ?_
    · exact (ensures_angleArgs hgeneric).bind fun a ha => .pure (hsegment ha)
    · exact (ensures_angleArgs hgeneric).bind fun a ha => .pure (hsegment ha)
    · exact .pure (hsegment (by rw [Args.Sound]; trivial))
  refine .ite (fun hself => ?_) fun _ => ?_
  · refine (ensuresAt_anyWord ts).bind fun w hw => harguments hw ?_
    obtain ⟨-, line, r, rfl⟩ := hw
    rw [isWord, beq_iff_eq] at hself
    rw [hself]
    rfl
  · exact (ensuresAt_name ts).bind fun w hw =>
      harguments hw.1 (by rw [isGenericWord, hw.2, Bool.true_or])

instance yields_segment {inExpr : Bool} : Yields (segment g inExpr) fun s => s.Sound false :=
  ⟨fun s a s' heq hs => (ensuresAt_segment _ s a s' rfl heq hs).imp_right And.left⟩

instance yields_furtherSegments {inExpr : Bool} :
    Yields (furtherSegments g inExpr) fun segments => ∀ s ∈ segments, s.Sound false :=
  ⟨.many <| .after fun _ => .ite
    (fun _ => .after fun _ => Yields.ensures.map fun s hs => by simpa using hs)
    fun _ => .pure (by simp)⟩

/-- Where no operator is taken the cursor stays. -/
theorem op?_eq_false {o : String} {s s' : Cursor} (h : op? o s = .ok (false, s')) : s' = s := by
  unfold op? at h
  rw [rest_bind] at h
  by_cases ho : isOp o s.rest = true
  · simp only [if_pos ho] at h
    cases h
  · simp only [if_neg ho] at h
    cases h
    rfl

/-- A path starts with the word that comes next, if it does not start with `::`. -/
theorem ensuresAt_path {inExpr : Bool} (ts : List Token) :
    EnsuresAt ts (path g inExpr) fun p =>
      p.Sound false ∧ (p.isLeading = false → ∀ w ∈ p.idents.head?,
        ∃ line r, ts = .ident w line :: r) := by
  intro s p s'' hts heq hs
  obtain ⟨leading, s₁, hop, heq⟩ := bind_eq_ok.1 heq
  obtain ⟨hs₁, -⟩ := Steady.ensures _ _ _ hop hs
  -- Without a leading `::` the first segment is read from the tokens the path began with.
  have hsame : leading = false → s₁.rest = ts := by
    rintro rfl
    rw [op?_eq_false hop, hts]
  have hrest : EnsuresAt s₁.rest (do
      let first ← segment g inExpr
      return Path.mk leading (first :: (← furtherSegments g inExpr))) fun p =>
        p.Sound false ∧ (p.isLeading = false → ∀ w ∈ p.idents.head?,
          ∃ line r, ts = .ident w line :: r) := by
    refine (ensuresAt_segment s₁.rest).bind fun first hfirst => .from fun more hmore => .pure ?_
    refine ⟨?_, fun hleading w hw => ?_⟩
    · rw [Path.Sound, Segment.soundList_iff, List.forall_mem_cons]
      exact ⟨by simp, hfirst.1, hmore⟩
    · obtain ⟨line, r, hr⟩ := hfirst.2
      obtain rfl : first.ident = w := by simpa [Path.idents, Path.segments] using hw
      exact ⟨line, r, (hsame hleading).symm.trans hr⟩
  exact hrest s₁ p s'' rfl heq hs₁

instance yields_path {inExpr : Bool} : Yields (path g inExpr) (Path.Sound false) :=
  ⟨fun s a s' heq hs => (ensuresAt_path _ s a s' rfl heq hs).imp_right And.left⟩

instance steady_traitPath {inExpr : Bool} : Steady (traitPath g inExpr) := by
  unfold traitPath
  dsimp only
  infer_instance

/-- A path without colons in front starts with the word that comes next. -/
theorem ensuresAt_anyPath {inExpr : Bool} (ts : List Token) :
    EnsuresAt ts (anyPath g inExpr) fun o => ∀ p ∈ o,
      p.Sound false ∧ (p.isLeading = false → ∀ w ∈ p.idents.head?,
        ∃ line r, ts = .ident w line :: r) := by
  refine .look <| .ite (fun _ => Ensures.at (.after fun _ => .pure (by simp)) _) fun _ => ?_
  rw [map_eq_pure_bind]
  exact (ensuresAt_path ts).bind fun p hp => .pure (by simpa using hp)

instance yields_anyPath {inExpr : Bool} :
    Yields (anyPath g inExpr) fun o => ∀ p ∈ o, p.Sound false :=
  ⟨fun s a s' heq hs => (ensuresAt_anyPath _ s a s' rfl heq hs).imp_right
    fun h p hp => (h p hp).1⟩

/-! ### Generic parameters -/

instance steady_lifetimeSum {stop : List Token → Bool} : Steady (lifetimeSum stop) := by
  unfold lifetimeSum
  infer_instance

instance steady_boundSum {constant : Bool} {stop : List Token → Bool} :
    Steady (boundSum g constant stop) := by
  unfold boundSum
  infer_instance

instance steady_optionalBounds {bounds : Parser Unit} [Steady bounds] :
    Steady (optionalBounds bounds) := by
  unfold optionalBounds
  infer_instance

instance steady_lifetimeParam : Steady lifetimeParam := by
  unfold lifetimeParam
  infer_instance

instance steady_typeParam : Steady (typeParam g) := by
  unfold typeParam
  infer_instance

instance steady_constParam : Steady (constParam g) := by
  unfold constParam
  infer_instance

instance steady_genericParam : Steady (genericParam g) := by
  unfold genericParam
  dsimp only
  infer_instance

/-- Parameters that are read with what they print are printed with the lifetimes in front. -/
theorem ensures_parameters {p : Parser Bool} [Steady p] :
    Ensures (captured do
      op "<"
      let params ← separated "," (isOp ">") (captured p)
      op ">"
      return params) fun x =>
        LexicalList (.punct '<' false ::
          (Token.lifetimesFirst x.1.2 x.1.1 ++ [.punct '>' false])) := by
  have hparams : Ensures (do
      op "<"
      let params ← separated "," (isOp ">") (captured p)
      op ">"
      return params) fun x => ∀ a ∈ x.1, LexicalList a.2 :=
    .after fun _ => .bind (Yields.ensures.separated _ _) fun x hx => .after fun _ => .pure hx
  refine hparams.captured.mono fun x hx => ?_
  rw [lexicalList_cons, lexicalList_append, lexicalList_cons]
  exact ⟨lexical_punct.2 (by decide), lexicalList_lifetimesFirst hx.1,
    lexical_punct.2 (by decide), trivial⟩

instance steady_generics : Steady (generics g) := by
  refine ⟨.after fun _ => ?_⟩
  dsimp only
  refine .ite (fun _ => .bind ensures_parameters fun x hx => ?_) fun _ => .pure trivial
  exact .ite (fun _ => .pure trivial) fun _ => .bind (ensures_note hx) fun _ _ => .pure trivial

instance steady_binderParam : Steady (binderParam g) := by
  unfold binderParam
  infer_instance

instance yields_binder : Yields (binder g) LexicalList := by
  unfold binder
  exact ⟨.from fun x hx => .bind (ensures_note hx) fun _ _ => .pure hx⟩

instance yields_binder? : Yields (binder? g) fun o => ∀ ts ∈ o, LexicalList ts :=
  ⟨.after fun _ => .ite (fun _ => Yields.ensures.map fun ts hts => by simpa using hts)
    fun _ => .pure (by simp)⟩

instance steady_wherePredicate : Steady (wherePredicate g) := by
  unfold wherePredicate
  infer_instance

instance steady_whereClause : Steady (whereClause g) := by
  unfold whereClause
  dsimp only
  infer_instance

/-! ### Bounds -/

instance steady_constMark {constant : Bool} : Steady (constMark constant) := by
  unfold constMark
  dsimp only
  infer_instance

instance yields_boundPath : Yields (boundPath g) (Path.Sound true) := by
  refine ⟨.printed ?_ fun p hp => hp.lexicalList⟩
  refine .from fun p hp => ?_
  obtain ⟨leading, segments⟩ := p
  rw [Path.Sound, Segment.soundList_iff] at hp
  refine .from fun ts _ => ?_
  split
  · next ident args hlast =>
    obtain ⟨before, rfl⟩ := List.getLast?_eq_some_iff.1 hlast
    -- Only the last segment changes: it gets the arguments in parentheses.
    have hsegments := List.forall_mem_append.1 hp.2
    have hlast := hsegments.2 _ List.mem_cons_self
    rw [Segment.Sound] at hlast
    refine .ite (fun _ => .after fun _ => ?_) fun _ => .pure ?_
    · refine (ensures_parenArgs (isGenericWord ident)).bind fun a ha => .pure ?_
      rw [Path.Sound, List.dropLast_concat, Segment.soundList_append, Segment.Sound]
      exact ⟨by simp, hsegments.1, hlast.1, hlast.2.1, ha⟩
    · rw [Path.Sound, Segment.soundList_append]
      exact ⟨by simp, hsegments.1, (hsegments.2 _ List.mem_cons_self).mono⟩
  · next hlast => exact absurd (List.getLast?_eq_none_iff.1 hlast) hp.1

instance yields_traitBound {constant parens : Bool} :
    Yields (traitBound g constant parens) fun o => ∀ b ∈ o, b.Sound := by
  refine ⟨.from fun before hbefore => .after fun isConst => .after fun isMaybe => ?_⟩
  extract_lets path
  have hpath {binder : Option (List Token)} (hbinder : ∀ ts ∈ binder, LexicalList ts) :
      Ensures (path binder) fun o => ∀ b ∈ o, b.Sound := by
    refine .from fun p hp => ?_
    extract_lets result
    have hresult (u : Unit) : Ensures (result u) fun o => ∀ b ∈ o, b.Sound := by
      refine .ite (fun _ => .pure (by simp)) fun _ => .pure fun b hb => ?_
      obtain rfl : _ = b := by simpa using hb
      rw [Bound.Sound]
      exact ⟨hbinder, hp⟩
    exact .ite (fun _ => .after fun _ => hresult ()) fun _ => hresult ()
  refine .ite (fun _ => .from fun binder hbinder => hpath hbinder) fun _ => ?_
  exact .bind (.pure hbefore) fun binder hbinder => hpath hbinder

instance steady_capturedParam : Steady capturedParam := by
  unfold capturedParam
  dsimp only
  infer_instance

instance yields_capturedParams : Yields capturedParams LexicalList := by
  -- Each parameter is captured with its tokens, and what may stand behind it takes none.
  have hparam : Ensures (do
      let param ← captured capturedParam
      let ts ← rest
      unless isOp "," ts || isOp ">" ts do expectedOneOf [.op ",", .op ">"]
      return param) fun x => LexicalList x.2 := by
    refine .from fun x hx => .after fun ts => ?_
    exact .ite (fun _ => .pure hx) fun _ => .after fun _ => .pure hx
  have hparams : Ensures (do
      word "use"
      op "<"
      let params ← separated "," (isOp ">") do
        let param ← captured capturedParam
        let ts ← rest
        unless isOp "," ts || isOp ">" ts do expectedOneOf [.op ",", .op ">"]
        return param
      op ">"
      return params) fun x => ∀ a ∈ x.1, LexicalList a.2 :=
    .after fun _ => .after fun _ => .bind (hparam.separated _ _) fun x hx =>
      .after fun _ => .pure hx
  refine ⟨hparams.captured.bind fun x hx => .pure ?_⟩
  rw [lexicalList_cons, lexicalList_cons, lexicalList_append, lexicalList_cons]
  exact ⟨lexical_word.2 (isNameText_of_isWordText (by decide)), lexical_punct.2 (by decide),
    lexicalList_lifetimesFirst hx.1, lexical_punct.2 (by decide), trivial⟩

/-- A reader of bounds gives sound bounds. -/
theorem ensures_bound {captures constant : Bool} :
    Ensures (bound g captures constant) Bound.Sound := by
  refine .printed ?_ fun b hb => hb.lexicalList
  refine .from fun ts _ => .ite (fun _ => ?_) fun _ => .ite (fun _ => ?_) fun _ => ?_
  · exact .from fun l hl => .pure (by rwa [Bound.Sound])
  · refine .from fun tokens htokens => ?_
    -- The parameters that an opaque type captures are kept as tokens.
    have hother : Ensures (pure (.other tokens) : Parser Bound) Bound.Sound :=
      .pure (by rwa [Bound.Sound])
    exact .ite (fun _ => hother) fun _ => .after fun _ => hother
  · have htrait : Ensures (if isGroup .paren ts then inside .paren (traitBound g constant true)
        else traitBound g constant false) fun o => ∀ b ∈ o, b.Sound :=
      .ite (fun _ => Yields.ensures.inside) fun _ => Yields.ensures
    refine htrait.verbatim.bind fun x hx => .pure ?_
    obtain ⟨b, tokens⟩ := x
    cases b with
    | none =>
      rw [Option.getD_none, Bound.Sound]
      exact hx.2
    | some b => exact hx.1 b rfl

instance yields_bounds {plus captures constant : Bool} :
    Yields (bounds g plus captures constant) fun x =>
      Bound.SoundList x.1 ∧ (plus = false → x.1.length = 1) := by
  refine ⟨.from fun first hfirst => .ite (fun _ => .pure ?_) fun hplus => .after fun _ =>
    .ite (fun _ => ?_) fun _ => .pure ?_⟩
  · rw [Bound.soundList_iff]
    exact ⟨by simpa using hfirst, fun _ => rfl⟩
  · refine .bind (Yields.ensures.joined _ _) fun x hx => .pure ?_
    rw [Bound.soundList_iff]
    exact ⟨by simpa using ⟨hfirst, hx⟩, fun h => absurd (by simp [h]) hplus⟩
  · rw [Bound.soundList_iff]
    exact ⟨by simpa using hfirst, fun _ => rfl⟩

instance yields_objectBounds {plus : Bool} :
    Yields (objectBounds g plus) fun x =>
      Bound.SoundList x.1 ∧ namesTraits x.1 = true ∧ (plus = false → x.1.length = 1) := by
  refine ⟨.from fun x hx => .ite (fun h => .pure ⟨hx.1, h, hx.2⟩) fun _ => .refused⟩

instance yields_furtherBounds : Yields (furtherBounds g) fun bs => ∀ b ∈ bs, b.Sound :=
  ⟨.many <| .after fun _ => .ite (fun _ => Yields.ensures.map fun b hb => by simpa using hb)
    fun _ => .pure (by simp)⟩

/-! ### Types -/

/-- A type that stands for a bound holds a sound one. -/
theorem sound_of_parenBound? {t : Ty} {b : Bound} (ht : t.Sound true) (h : parenBound? t = some b) :
    b.Sound := by
  unfold parenBound? at h
  split at h
  · next p =>
    cases h
    rw [Ty.Sound] at ht
    rw [Bound.Sound]
    exact ⟨by simp, ht.1.mono⟩
  · next parens isMaybe binder p =>
    cases h
    simpa [Ty.Sound, Bound.SoundList, Bound.Sound] using ht
  · next b' =>
    cases h
    simpa [Ty.Sound, Bound.SoundList] using ht
  · cases h

/-- What holds of the inside of parentheses that is read. -/
def Parenthesised.Sound : Parenthesised → Prop
  | .tuple elems _ => Ty.SoundList elems
  | .bound b => b.Sound
  | .object bounds _ => Bound.SoundList bounds
  | .single t => t.Sound true

instance yields_parenthesised : Yields (parenthesised g) Parenthesised.Sound := by
  refine ⟨.after fun ts => .ite (fun _ => .pure trivial) fun _ => .ite (fun _ => ?_) fun _ =>
    .ite (fun _ => ?_) fun _ => ?_⟩
  · exact .from fun x hx => .pure hx.1
  · refine .from fun o ho => ?_
    cases o with
    | none => exact .refused
    | some b => exact .pure (ho b rfl)
  · refine .from fun first hfirst => .after fun _ => .ite (fun _ => ?_) fun _ => .pure hfirst
    exact .bind Yields.ensures.commas fun x hx => .pure ⟨hfirst, Ty.soundList_iff.2 hx⟩

instance yields_parenType {plus : Bool} : Yields (parenType g plus) (Ty.Sound plus) := by
  -- A bound in parentheses is the first of a sum, whatever it was read from.
  have hsum {b : Bound} (hb : b.Sound) : Ensures (do
      return Ty.traitObject false (b :: (← furtherBounds g)) false) (Ty.Sound plus) :=
    .from fun bs hbs => .pure <| by
      rw [Ty.Sound, Bound.soundList_iff, List.forall_mem_cons]
      exact ⟨⟨hb, hbs⟩, by simp⟩
  refine ⟨.bind Yields.ensures.inside fun x hx => ?_⟩
  cases x with
  | tuple elems trailing => exact .pure (by rwa [Ty.Sound])
  | object bs trailing =>
    refine .pure ?_
    rw [Ty.Sound, Ty.Sound]
    exact ⟨hx, by simp⟩
  | bound b => exact hsum hx
  | single t =>
    have hparen : Ensures (pure (.paren t) : Parser Ty) (Ty.Sound plus) := .pure (by rwa [Ty.Sound])
    dsimp only
    refine .after fun ts => .ite (fun _ => ?_) fun _ => hparen
    split
    · next b hb => exact hsum (sound_of_parenBound? hx hb)
    · exact hparen


instance steady_abi : Steady abi := by
  unfold abi
  infer_instance

instance steady_fnTypeParam {isFirst : Bool} : Steady (fnTypeParam g isFirst) := by
  unfold fnTypeParam
  extract_lets isMutSelf
  refine ⟨.discard <| .asWrittenIf <| .after fun _ => ?_⟩
  extract_lets startsMut hasName
  have hname (u : Unit) : Ensures (hasName u) fun _ => True := by
    refine .after fun ts => ?_
    extract_lets isSelf isNamed hasType
    have htype (u : Unit) : Steady (hasType u) := by
      dsimp only [hasType]
      infer_instance
    exact Gives.ensures
  exact .ite (fun _ => .after hname) fun _ => hname ()

instance steady_fnTypeDots : Steady fnTypeDots := by
  unfold fnTypeDots
  dsimp only
  infer_instance

instance steady_fnTypeParams {isFirst : Bool} {n : Nat} : Steady (fnTypeParams g isFirst n) := by
  induction n generalizing isFirst with
  | zero => exact steady_pure _
  | succ n ih =>
    unfold fnTypeParams
    infer_instance

instance steady_fnType : Steady (fnType g) := by
  unfold fnType
  infer_instance

/-- A type that starts with the word that comes next, if that is a word for a path. -/
theorem ensuresAt_pathType {plus : Bool} {binder : Option (List Token)} {ts : List Token}
    (hbinder : ∀ ts ∈ binder, LexicalList ts)
    (hword : ∀ w line r, ts = .ident w line :: r → isTypeWord w = true) :
    EnsuresAt ts (pathType g plus binder) (Ty.Sound plus) := by
  refine (EnsuresAt.captured (ensuresAt_anyPath ts)).bind fun x hx => ?_
  obtain ⟨o, tokens⟩ := x
  cases o with
  | none => exact .pure (by rw [Ty.Sound]; exact hx.2)
  | some p =>
    obtain ⟨hp, hhead⟩ := hx.1 p rfl
    -- Behind a `+` the path was the first bound of a trait object, with the binder read in front.
    have hfirst : (Bound.trait false false binder p).Sound := by
      rw [Bound.Sound]
      exact ⟨hbinder, hp.mono⟩
    refine .after fun us => .ite (fun _ => ?_) fun _ => ?_
    · refine .from fun y hy => .pure ?_
      rw [Ty.Sound, lexicalList_append]
      exact ⟨hx.2, hy⟩
    refine .ite (fun _ => .after fun _ => ?_) fun _ => .ite (fun _ => .pure ?_) fun _ => .pure ?_
    · refine .bind (Yields.ensures.joined _ _) fun y hy => .pure ?_
      rw [Ty.Sound, Bound.soundList_iff, List.forall_mem_cons]
      exact ⟨⟨hfirst, hy⟩, by simp⟩
    · rw [Ty.Sound, Bound.soundList_iff]
      exact ⟨by simpa using hfirst, by simp⟩
    · rw [Ty.Sound]
      refine ⟨hp, fun hleading w hw => ?_⟩
      obtain ⟨line, r, hts⟩ := hhead hleading w hw
      exact hword w line r hts

instance yields_dynType {plus : Bool} : Yields (dynType g plus) (Ty.Sound plus) := by
  have hbody : Ensures (do
      word "dyn"
      let star ← op? "*"
      let (bs, trailing) ← objectBounds g plus
      return (star, bs, trailing)) fun x => Bound.SoundList x.2.1 ∧ namesTraits x.2.1 = true ∧
        (plus = false → x.2.1.length = 1) :=
    .after fun _ => .after fun _ => .from fun x hx => .pure hx
  refine ⟨hbody.verbatim.bind fun x hx => .ite (fun _ => .pure ?_) fun _ => .pure ?_⟩
  · rw [Ty.Sound]
    exact hx.2
  · rw [Ty.Sound]
    exact ⟨hx.1.1, fun _ => hx.1.2⟩

theorem ensures_bracketType {plus : Bool} : Ensures (bracketType g) (Ty.Sound plus) := by
  refine .inside <| .from fun elem helem => .after fun _ => .ite (fun _ => ?_) fun _ => ?_
  · exact .from fun x hx => .pure (by rw [Ty.Sound]; exact ⟨helem, hx.2⟩)
  · exact .pure (by rwa [Ty.Sound])

/-- A reader of types gives sound types. -/
theorem ensures_type {plus : Bool} : Ensures (type g plus) (Ty.Sound plus) := by
  refine .printed ?_ fun t ht => ht.lexicalList
  refine .from fun before hbefore => .from fun binder hbinder => .look fun ts hts => ?_
  extract_lets body
  -- one case for each branch of the reader, in its order
  have hbody (u : Unit) : EnsuresAt ts (body u) (Ty.Sound plus) := by
    refine .ite (fun _ => Yields.ensures.at _) fun _ => .ite (fun _ => Ensures.at ?_ _) fun _ =>
      .ite (fun _ => Ensures.at ?_ _) fun _ => .ite (fun hpath => ?_) fun _ => ?_
    · refine .from fun x hx => .pure ?_
      rw [Ty.Sound, lexicalList_append]
      refine ⟨?_, hx⟩
      cases binder with
      | none => trivial
      | some us => exact hbinder us rfl
    · exact .after fun _ => .after fun us => .pure (by rw [Ty.Sound]; exact hbefore.take _)
    · refine ensuresAt_pathType hbinder ?_
      rintro w line r rfl
      simpa [isTypeWord, isName, isOneOf, isOp, startsWith] using hpath
    refine .ite (fun _ => Yields.ensures.at _) fun _ =>
      .ite (fun _ => ensures_bracketType.at _) fun _ => Ensures.at ?_ _
    have hpointer (isMut : Bool) : Ensures (do
        return Ty.pointer isMut (← g (.type false))) (Ty.Sound plus) :=
      .from fun t ht => .pure (by rwa [Ty.Sound])
    refine .after fun _ => .ite (fun _ => ?_) fun _ => .after fun _ =>
      .ite (fun _ => ?_) fun _ => ?_
    · exact .after fun _ => .ite (fun _ => hpointer false) fun _ => .after fun _ =>
        .ite (fun _ => hpointer true) fun _ => Gives.ensures
    · refine .from fun l hl => .after fun isMut => .from fun t ht => .pure ?_
      rw [Ty.Sound]
      exact ⟨hl, ht⟩
    refine .ite (fun _ => .after fun _ => .pure (by rw [Ty.Sound]; trivial)) fun _ =>
      .after fun _ => .ite (fun _ => ?_) fun _ => .ite (fun _ => ?_) fun _ =>
      .ite (fun _ => ?_) fun _ => Gives.ensures
    · refine .from fun x hx => .ite (fun htraits => .pure ?_) fun _ => .refused
      rw [Ty.Sound]
      exact ⟨hx.1, htraits, hx.2⟩
    · exact .after fun _ => .pure (by rw [Ty.Sound]; trivial)
    · refine .from fun x hx => .pure ?_
      rw [Ty.Sound]
      exact ⟨hx.1, by simp⟩
  exact .ite (fun _ => Ensures.refused.at _) fun _ => hbody ()

end FieldBinder.Grammar
