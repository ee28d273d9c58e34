import FieldBinder.Proofs.Grammar.Expressions

/-!
# What readers of items ensure

The readers of items give sound trees, if the readers for the phrases inside do (`ensures_item`).
With this the knot is tied: all that is read from a text is sound (`ensures_rules`), in particular a
type (`Ty.sound_of_parse?`), a path (`Path.sound_of_parse`), and the items of a file
(`Item.sound_of_parseFile?`).
-/

namespace FieldBinder

namespace Grammar

open Token hiding ident lifetime literal punct group word

set_option synthInstance.maxSize 100000

variable {g : Rules} [Rules.Sound g]

/-! ### Visibility and signatures -/

instance steady_visibility : Steady visibility := by
  unfold visibility
  refine ⟨.after fun _ => .ite (fun _ => .after fun ts => ?_) fun _ => .pure trivial⟩
  dsimp only
  split <;> exact Gives.ensures

instance steady_signatureWords {safe : Bool} : Steady (signatureWords safe) := by
  unfold signatureWords
  dsimp only
  infer_instance

instance steady_isSignature {safe : Bool} : Steady (isSignature safe) := by
  unfold isSignature
  infer_instance

instance steady_receiver : Steady (receiver g) := by
  unfold receiver
  dsimp only
  infer_instance

instance steady_fnParams {isFirst received : Bool} {n : Nat} :
    Steady (fnParams g isFirst received n) := by
  -- a parameter that is a type alone is noted with a blank name
  have hblank : LexicalList [Token.word "_", Token.punct ':' false] :=
    ⟨lexical_word.2 isNameText_blank, lexical_punct.2 (by decide), trivial⟩
  have hnote : Steady (note [.word "_", .punct ':' false]) := ⟨ensures_note hblank⟩
  induction n generalizing isFirst received with
  | zero => exact steady_pure _
  | succ n ih =>
    unfold fnParams
    extract_lets next last
    have hnext (received : Bool) : Steady (next received) := by
      dsimp only [next]
      infer_instance
    have hlast : Steady last := by
      dsimp only [last]
      infer_instance
    infer_instance

instance steady_signature {safe : Bool} : Steady (signature g safe) := by
  unfold signature
  infer_instance

instance steady_function : Steady (function g) := by
  unfold function
  infer_instance

instance steady_traitFunction : Steady (traitFunction g) := by
  unfold traitFunction
  dsimp only
  infer_instance

/-! ### Constants and types -/

instance steady_value? : Steady (value? g) := by
  unfold value?
  infer_instance

instance steady_constant : Steady (constant g) := by
  unfold constant
  dsimp only
  infer_instance

instance sound_other_item : Fact (Item.Sound .other) := ⟨trivial⟩

instance sound_verbatim_item : Fact (Item.Sound .verbatim) := ⟨trivial⟩

instance sound_ite {c : Prop} [Decidable c] {i j : Item} [hi : Fact i.Sound] [hj : Fact j.Sound] :
    Fact (Item.Sound (if c then i else j)) := by
  split
  · exact hi
  · exact hj

instance gives_static : Gives Item.Sound (static g) := by
  unfold static
  infer_instance

instance yields_typeDefinition {place : WherePlace} :
    Yields (typeDefinition g place) fun t => IsNameText t.name := by
  refine ⟨.after fun _ => .from fun ident hident => ?_⟩
  have hresult {bounded valued : Bool} :
      Fact (IsNameText (TypeDefinition.mk ident bounded valued).name) := ⟨hident⟩
  dsimp only
  exact Gives.ensures

instance steady_macroItem {named : Bool} : Steady (macroItem named) := by
  unfold macroItem
  dsimp only
  infer_instance

instance gives_expectedItem {α : Type} {P : α → Prop} {words : List String} {calls : Bool} :
    Gives P (expectedItem words calls : Parser α) := by
  unfold expectedItem
  infer_instance

/-! ### Fields -/

instance yields_namedField : Yields (namedField g) NamedField.Sound := by
  refine ⟨.from fun attributes hattributes => .after fun _ => .after fun us => ?_⟩
  extract_lets line
  refine .after fun vs => ?_
  extract_lets isNameless behind
  have hbehind {ident : String} (hident : IsNameText ident) :
      Ensures (behind ident) NamedField.Sound := by
    refine .after fun _ => .after fun ts => .ite (fun _ => ?_) fun _ => ?_
    · refine .bind (Ensures.verbatim (P := fun _ => True) Gives.ensures) fun x hx => .pure ?_
      exact ⟨hattributes, hident, by rw [Ty.Sound]; exact hx.2⟩
    · exact .from fun t ht => .pure ⟨hattributes, hident, ht⟩
  exact .ite (fun _ => .from fun _ hident => hbehind hident) fun _ => .from fun _ hident =>
    hbehind hident

/-- The fields between braces are sound, one by one. -/
theorem ensures_namedFields : Ensures (namedFields g) fun fields => ∀ f ∈ fields, f.Sound :=
  .bind Yields.ensures.commas.inside fun _ hx => .pure hx

instance steady_tupleFields : Steady (tupleFields g) := by
  unfold tupleFields
  infer_instance

instance gives_struct : Gives Item.Sound (struct g) := by
  refine ⟨.after fun _ => .from fun ident hident => .after fun _ => .after fun early =>
    .after fun ts => ?_⟩
  have htuple {fields : List (List Attribute)} :
      Fact (Item.Sound (.struct ident (.tuple fields))) := ⟨hident, trivial⟩
  have hunit : Fact (Item.Sound (.struct ident .unit)) := ⟨hident, trivial⟩
  dsimp only
  refine .otherwise <| .ite (fun _ => ?_) fun _ => Gives.ensures
  exact .from fun fields hfields => .pure ⟨hident, hfields⟩

instance steady_variant : Steady (variant g) := by
  unfold variant
  dsimp only
  infer_instance

instance gives_enum : Gives Item.Sound (enum g) := by
  refine ⟨.after fun _ => .from fun ident hident => ?_⟩
  have hresult : Fact (Item.Sound (.enum ident)) := ⟨hident⟩
  exact Gives.ensures

instance gives_union : Gives Item.Sound (union g) := by
  refine ⟨.after fun _ => .from fun ident hident => ?_⟩
  have hresult : Fact (Item.Sound (.union ident)) := ⟨hident⟩
  exact Gives.ensures

/-! ### Traits -/

instance steady_traitMemberBody {plain : Bool} : Steady (traitMemberBody g plain) := by
  unfold traitMemberBody
  dsimp only
  infer_instance

instance steady_traitMember : Steady (traitMember g) := by
  unfold traitMember
  dsimp only
  infer_instance

/-- Behind its name, a trait is read with bounds and members that do not matter for what it
declares. -/
theorem ensures_traitRest {ident : String} (hident : IsNameText ident) :
    Ensures (traitRest g ident) Item.Sound := by
  have hresult {bounds : List Bound} : Fact (Item.Sound (.trait ident bounds)) := ⟨hident⟩
  unfold traitRest
  dsimp only
  exact Gives.ensures

instance gives_trait : Gives Item.Sound (trait g) := by
  refine ⟨.after fun us => .after fun _ => .after fun _ => .after fun _ => .from fun ident hident =>
    .after fun _ => .after fun ts => ?_⟩
  have hrest : Gives Item.Sound (traitRest g ident) := ⟨ensures_traitRest hident⟩
  dsimp only
  exact Gives.ensures

/-! ### Implementations -/

instance steady_implMember : Steady (implMember g) := by
  unfold implMember
  dsimp only
  infer_instance

instance sound_impl {negative generic : Bool} {trait : Option Path} {self : Ty} :
    Fact (Item.Sound (.impl negative generic trait self)) :=
  ⟨trivial⟩

instance gives_impl {isPublic : Bool} : Gives Item.Sound (impl g isPublic) := by
  -- what stands in front of `for` is a path, or the item is left as it is
  have hfor (first self : Ty) (negative generic : Bool) : Gives Item.Sound (match first with
      | .path p => pure (.impl negative generic (some p) self)
      | _ => pure .verbatim : Parser Item) := by
    cases first <;> infer_instance
  refine ⟨.after fun _ => .after fun _ => .after fun _ => .after fun us => ?_⟩
  extract_lets -underBinder behindParams
  have hparams (params : Generics) : Gives Item.Sound (behindParams params) := by
    refine ⟨.after fun ts => ?_⟩
    extract_lets -underBinder isConst behindMark
    have hmark (u : Unit) : Gives Item.Sound (behindMark u) := by
      refine ⟨.after fun vs => ?_⟩
      extract_lets -underBinder isNegative behindSign
      have hsign (u : Unit) : Gives Item.Sound (behindSign u) := by
        dsimp only [behindSign]
        infer_instance
      exact Gives.ensures
    exact Gives.ensures
  exact Gives.ensures

/-! ### Modules and imports -/

instance yields_items : Yields (items g) fun is => ∀ i ∈ is, i.Sound :=
  ⟨.after fun _ => Yields.ensures.untilEnd⟩

instance gives_module : Gives Item.Sound (module g) := by
  refine ⟨.after fun _ => .after fun _ => .after fun ts => ?_⟩
  extract_lets rest
  have hrest {ident : String} (hident : IsNameText ident) : Ensures (rest ident) Item.Sound := by
    refine .after fun _ => .ite (fun _ => .pure hident) fun _ => .after fun us => ?_
    extract_lets body
    have hbody (u : Unit) : Ensures (body u) Item.Sound :=
      .bind Yields.ensures.inside fun items hitems => .pure ⟨hident, Item.soundList_iff.2 hitems⟩
    exact .ite (fun _ => hbody ()) fun _ => .refused
  exact .ite (fun _ => .from fun _ hident => hrest hident) fun _ =>
    .from fun _ hident => hrest hident

/-- All values of a list are there if the list of them is. -/
theorem some_mem_of_mapM_id {α : Type} {os : List (Option α)} {as : List α}
    (h : os.mapM id = some as) {a : α} (ha : a ∈ as) : some a ∈ os := by
  induction os generalizing as with
  | nil =>
    rw [List.mapM_nil] at h
    cases h
    cases ha
  | cons o os ih =>
    rw [List.mapM_cons] at h
    obtain ⟨b, hb, hrest⟩ := Option.bind_eq_some_iff.1 h
    obtain rfl : o = some b := hb
    obtain ⟨bs, hbs, hrest⟩ := Option.bind_eq_some_iff.1 hrest
    obtain rfl := Option.some.inj hrest
    rcases List.mem_cons.1 ha with rfl | ha
    · exact List.mem_cons_self
    · exact List.mem_cons_of_mem _ (ih hbs ha)

/-- The tree of a `use` item is made of names; a group that starts at the root somewhere is no
tree. -/
theorem ensures_useTree {root : Bool} : Ensures (useTree g root) fun o => ∀ t ∈ o, t.Sound := by
  refine .after fun ts => ?_
  extract_lets words
  refine .ite (fun _ => .from fun ident hident => .after fun _ => .ite (fun _ => ?_) fun _ =>
    .after fun _ => .ite (fun _ => ?_) fun _ => .pure ?_) fun _ => .after fun _ =>
    .ite (fun _ => .pure ?_) fun _ => .ite (fun _ => ?_) fun _ => Gives.ensures
  · refine .from fun tree htree => .pure fun t ht => ?_
    obtain ⟨t', ht', rfl⟩ := Option.mem_map.1 ht
    exact ⟨hident, htree t' ht'⟩
  · refine .after fun us => ?_
    extract_lets result
    have hresult (u : Unit) : Ensures (result u) fun o => ∀ t ∈ o, t.Sound :=
      .from fun alias_ halias => .pure (by simpa using ⟨hident, halias⟩)
    exact .ite (fun _ => hresult ()) fun _ => .refused
  · simpa [UseTree.Sound] using hident
  · simp [UseTree.Sound]
  · have htree : Ensures (do
        let fromRoot ← if root then op? "::" else pure false
        let tree ← g (.useTree (root && !fromRoot))
        return if fromRoot then none else tree) fun o => ∀ t ∈ o, UseTree.Sound t := by
      have hrest (fromRoot : Bool) : Ensures (do
          let tree ← g (.useTree (root && !fromRoot))
          return if fromRoot then none else tree) fun o => ∀ t ∈ o, UseTree.Sound t := by
        refine .from fun o ho => .pure ?_
        split
        · simp
        · exact ho
      exact .ite (fun _ => .after hrest) fun _ => .after hrest
    refine .bind htree.commas.inside fun x hx => .pure fun t ht => ?_
    -- a group is a tree only if all of its members are
    obtain ⟨trees, htrees, rfl⟩ := Option.map_eq_some_iff.1 ht
    rw [UseTree.Sound, UseTree.soundList_iff]
    exact fun t ht => hx _ (some_mem_of_mapM_id htrees ht) t rfl

instance gives_use : Gives Item.Sound (use g) := by
  refine ⟨.after fun _ => .after fun leading => .from fun tree htree => .after fun _ => .pure ?_⟩
  cases tree with
  | none => trivial
  | some t => exact htree t rfl

instance gives_externCrate : Gives Item.Sound externCrate := by
  unfold externCrate
  dsimp only
  infer_instance

/-! ### Foreign items -/

instance steady_foreignMember : Steady (foreignMember g) := by
  unfold foreignMember
  dsimp only
  infer_instance

instance gives_foreignBlock {isPublic : Bool} : Gives Item.Sound (foreignBlock g isPublic) := by
  unfold foreignBlock
  dsimp only
  infer_instance

instance gives_externItem {isPublic : Bool} : Gives Item.Sound (externItem g isPublic) := by
  unfold externItem
  dsimp only
  infer_instance

/-! ### Items -/

instance gives_macroDefinition : Gives Item.Sound macroDefinition := by
  unfold macroDefinition
  dsimp only
  infer_instance

instance gives_unsafeItem {isPublic : Bool} : Gives Item.Sound (unsafeItem g isPublic) := by
  unfold unsafeItem
  dsimp only
  infer_instance

instance gives_itemBody {isPublic : Bool} : Gives Item.Sound (itemBody g isPublic) := by
  refine ⟨.after fun ts => ?_⟩
  extract_lets second
  refine .after fun _ => .otherwise <| .otherwise <| .otherwise <| .otherwise <| .otherwise <|
    .otherwise <| .otherwise <| .ite (fun _ => .from fun t ht => ?_) fun _ => Gives.ensures
  have halias : Fact (Item.Sound (.typeAlias t.name)) := ⟨ht⟩
  exact Gives.ensures

/-- A reader of items gives sound items, whatever stands in front of them. -/
theorem ensures_item : Ensures (item g) Item.Sound :=
  .asWrittenIf <| .after fun _ => .after fun _ => Gives.ensures

instance gives_dataItem : Gives Item.Sound (dataItem g) := by
  unfold dataItem
  infer_instance

/-! ### Whole texts -/

/-- Every phrase is read as a sound tree, if the phrases inside it are. -/
theorem ensures_step : ∀ p : Phrase, Ensures (step g p) p.Sound
  | .type _ => ensures_type
  | .bound _ _ => ensures_bound
  | .expr _ => ensures_expr
  | .operand _ => ensures_operand
  | .operators _ _ _ => ensures_operators
  | .standing => ensures_standing
  | .pattern => ensures_pattern
  | .statements => ensures_statements
  | .useTree _ => ensures_useTree
  | .fields => ensures_namedFields
  | .item => ensures_item

/-- The readers for phrases give sound trees. -/
instance sound_rules (n : Nat) : Rules.Sound (rules n) := by
  induction n with
  | zero => exact ⟨fun p => gives_fail.ensures⟩
  | succ n ih => exact ⟨ensures_step⟩

/-- What is read from a text has what its reader ensures. -/
theorem Ensures.of_readAll {α : Type} {P : α → Prop} {p : Rules → Parser α} {text : String} {a : α}
    (hp : ∀ g [Rules.Sound g], Ensures (p g) P) (h : readAll p text = .ok a) : P a := by
  unfold readAll at h
  split at h
  · cases h
  · next ts hts =>
    cases hread : finish (p (rulesFor ts)) ts with
    | error e =>
      rw [hread] at h
      cases h
    | ok b =>
      rw [hread] at h
      cases h
      have hsound : Rules.Sound (rulesFor ts) := sound_rules _
      exact (hp _).of_finish (Token.lexicalList_of_lex? hts) hread

end Grammar

open Grammar

/-- A value that is left when faults are dropped is the value itself. -/
theorem toOption_eq_some {ε α : Type} {x : Except ε α} {a : α} (h : x.toOption = some a) :
    x = .ok a := by
  cases x with
  | error e => cases h
  | ok b =>
    cases h
    rfl

/-- A type that is read from a text is sound. -/
theorem Ty.sound_of_parse? {text : String} {t : Ty} (h : Ty.parse? text = some t) : t.Sound true :=
  Ensures.of_readAll (P := Ty.Sound true) (fun _ _ => Yields.ensures) (toOption_eq_some h)

/-- A path that is read from a text is sound. -/
theorem Path.sound_of_parse {text : String} {p : Path} (h : Path.parse text = .ok p) :
    p.Sound false :=
  Ensures.of_readAll (fun _ _ => Yields.ensures) h

/-- An expression that is read from a text is sound. -/
theorem Expr.sound_of_parse? {text : String} {e : Expr} (h : Expr.parse? text = some e) : e.Sound :=
  Ensures.of_readAll (P := Expr.Sound) (fun _ _ => Yields.ensures) (toOption_eq_some h)

/-- The items of a file are sound. -/
theorem Item.sound_of_parseFile? {text : String} {is : List Item}
    (h : Item.parseFile? text = some is) : ∀ i ∈ is, i.Sound :=
  Ensures.of_readAll (P := fun is => ∀ i ∈ is, Item.Sound i) (fun _ _ => Yields.ensures)
    (toOption_eq_some h)

end FieldBinder
