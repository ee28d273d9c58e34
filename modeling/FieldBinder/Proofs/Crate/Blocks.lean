import FieldBinder.Proofs.Crate.Built
import Mathlib.Data.List.Nodup

/-!
# Blocks of modules

A block of items is the items themselves or stands in place inside a block.  It is told by its
position, the numbers of the items that lead to it from the outside (`blockAt?`); its path is the
names of these items, and blocks of several positions may have one path.

The blocks are listed in the order of their positions (`blocks`), outer ones first, and this is the
order in which the modules of a file are registered (`cons_inlineModules_eq`).  So a file is
registered whole, or up to the first block of which the namespace is taken
(`Crate.insert_registers_blocks`).
-/

namespace FieldBinder

/-! ### Positions -/

/-- The path and the items of the block at a position. -/
def blockAt? : List Item → List Nat → Option (List String × List Item)
  | items, [] => some ([], items)
  | items, k :: ks =>
    match items[k]? with
    | some (.mod name (some inner)) => (blockAt? inner ks).map fun b => (name :: b.1, b.2)
    | _ => none

/-- A block with its position and its path. -/
structure Block where
  position : List Nat
  path : List String
  items : List Item

/-- Whether a block is the one at its position. -/
def Block.IsIn (b : Block) (items : List Item) : Prop :=
  blockAt? items b.position = some (b.path, b.items)

/-- A block as it is seen from outside the item that it stands in. -/
def Block.within (k : Nat) (name : String) (b : Block) : Block :=
  ⟨k :: b.position, name :: b.path, b.items⟩

mutual

/-- The blocks of the item with a number. -/
def Item.blocks (k : Nat) : Item → List Block
  | .mod name (some inner) => (⟨[], [], inner⟩ :: blocksFrom 0 inner).map (Block.within k name)
  | _ => []

/-- The blocks inside items, of which the first has a number. -/
def blocksFrom (k : Nat) : List Item → List Block
  | [] => []
  | i :: r => i.blocks k ++ blocksFrom (k + 1) r

end

/-- The blocks of items in the order of their positions. -/
def blocks (items : List Item) : List Block := ⟨[], [], items⟩ :: blocksFrom 0 items

/-! ### Blocks in order -/

/-- A position leads into the block of an item, and on from there. -/
theorem blockAt?_cons_eq_some_iff {items : List Item} {k : Nat} {ks : List Nat}
    {x : List String × List Item} : blockAt? items (k :: ks) = some x ↔
      ∃ name inner y, items[k]? = some (.mod name (some inner)) ∧ blockAt? inner ks = some y ∧
        x = (name :: y.1, y.2) := by
  rw [blockAt?]
  split
  · next name inner hitem =>
    rw [hitem, Option.map_eq_some_iff]
    constructor
    · rintro ⟨y, hy, rfl⟩
      exact ⟨name, inner, y, rfl, hy, rfl⟩
    · rintro ⟨_, _, y, ⟨⟩, hy, rfl⟩
      exact ⟨y, hy, rfl⟩
  · next hitem =>
    constructor
    · intro h
      cases h
    · rintro ⟨name, inner, y, hmod, -, -⟩
      exact absurd hmod (hitem name inner)

theorem mem_blocks_iff_of {items : List Item}
    (h : ∀ b, b ∈ blocksFrom 0 items ↔ ∃ j ks, b.position = (0 + j) :: ks ∧
      blockAt? items (j :: ks) = some (b.path, b.items)) (b : Block) :
    b ∈ blocks items ↔ b.IsIn items := by
  rw [blocks, List.mem_cons, h, Block.IsIn]
  obtain ⟨position, path, inner⟩ := b
  cases position with
  | nil => simp [blockAt?, eq_comm]
  | cons j ks => simp

mutual

/-- The blocks of an item are those inside its own block. -/
theorem mem_item_blocks_iff : ∀ {i : Item} {k : Nat} {b : Block}, b ∈ i.blocks k ↔
    ∃ name inner, i = .mod name (some inner) ∧ ∃ b' : Block, b'.IsIn inner ∧ b = b'.within k name
  | .mod name (some inner), k, b => by
    rw [Item.blocks, ← blocks, List.mem_map]
    constructor
    · rintro ⟨b', hb', rfl⟩
      exact ⟨name, inner, rfl, b', (mem_blocks_iff_of (fun _ => mem_blocksFrom_iff) b').1 hb', rfl⟩
    · rintro ⟨_, _, ⟨⟩, b', hb', rfl⟩
      exact ⟨b', (mem_blocks_iff_of (fun _ => mem_blocksFrom_iff) b').2 hb', rfl⟩
  | .mod _ none, _, _ | .use _ _, _, _ | .struct _ _, _, _ | .enum _, _, _ | .union _, _, _
  | .trait _ _, _, _ | .typeAlias _, _, _ | .impl _ _ _ _, _, _ | .verbatim, _, _
  | .other, _, _ => by simp [Item.blocks]

/-- The blocks of items are found at their positions. -/
theorem mem_blocksFrom_iff : ∀ {items : List Item} {k : Nat} {b : Block}, b ∈ blocksFrom k items ↔
    ∃ j ks, b.position = (k + j) :: ks ∧ blockAt? items (j :: ks) = some (b.path, b.items)
  | [], k, b => by simp [blocksFrom, blockAt?]
  | i :: r, k, b => by
    rw [blocksFrom, List.mem_append, mem_item_blocks_iff, mem_blocksFrom_iff]
    constructor
    · rintro (⟨name, inner, rfl, b', hb', rfl⟩ | ⟨j, ks, hposition, hb⟩)
      · exact ⟨0, b'.position, rfl, blockAt?_cons_eq_some_iff.2 ⟨name, inner, _, rfl, hb', rfl⟩⟩
      · refine ⟨j + 1, ks, ?_, hb⟩
        rw [hposition, Nat.add_assoc, Nat.add_comm 1 j]
    · rintro ⟨j, ks, hposition, hb⟩
      cases j with
      | zero =>
        -- the position leads to the first item or into it
        left
        obtain ⟨name, inner, y, hitem, hy, hx⟩ := blockAt?_cons_eq_some_iff.1 hb
        refine ⟨name, inner, Option.some.inj hitem, ⟨ks, y.1, y.2⟩, hy, ?_⟩
        obtain ⟨position, path, its⟩ := b
        simp only [Prod.mk.injEq] at hx
        obtain ⟨rfl, rfl⟩ := hx
        simpa [Block.within] using hposition
      | succ j =>
        -- the position leads past the first item
        right
        refine ⟨j, ks, ?_, hb⟩
        rw [hposition, Nat.add_assoc, Nat.add_comm 1 j]

end

/-- The blocks that are listed are those at the positions. -/
theorem mem_blocks_iff {items : List Item} {b : Block} : b ∈ blocks items ↔ b.IsIn items :=
  mem_blocks_iff_of (fun _ => mem_blocksFrom_iff) b

mutual

theorem pairwise_item_blocks : ∀ {i : Item} {k : Nat},
    (i.blocks k).Pairwise fun a b => a.position < b.position
  | .mod name (some inner), k => by
    rw [Item.blocks, List.pairwise_map, List.pairwise_cons]
    constructor
    · intro b hb
      obtain ⟨j, ks, hposition, -⟩ := mem_blocksFrom_iff.1 hb
      simp [Block.within, hposition]
    · refine pairwise_blocksFrom.imp ?_
      intro a b hab
      simpa [Block.within] using hab
  | .mod _ none, _ | .use _ _, _ | .struct _ _, _ | .enum _, _ | .union _, _ | .trait _ _, _
  | .typeAlias _, _ | .impl _ _ _ _, _ | .verbatim, _ | .other, _ => by simp [Item.blocks]

/-- Blocks are listed in the order of their positions. -/
theorem pairwise_blocksFrom : ∀ {items : List Item} {k : Nat},
    (blocksFrom k items).Pairwise fun a b => a.position < b.position
  | [], _ => by simp [blocksFrom]
  | i :: r, k => by
    rw [blocksFrom, List.pairwise_append]
    refine ⟨pairwise_item_blocks, pairwise_blocksFrom, ?_⟩
    intro a ha b hb
    obtain ⟨name, inner, -, a', -, rfl⟩ := mem_item_blocks_iff.1 ha
    obtain ⟨j, ks, hposition, -⟩ := mem_blocksFrom_iff.1 hb
    rw [hposition]
    exact List.Lex.rel (by omega)

end

theorem pairwise_blocks (items : List Item) :
    (blocks items).Pairwise fun a b => a.position < b.position := by
  rw [blocks, List.pairwise_cons]
  refine ⟨?_, pairwise_blocksFrom⟩
  intro b hb
  obtain ⟨j, ks, hposition, -⟩ := mem_blocksFrom_iff.1 hb
  simp [hposition]

/-- The blocks before one are those of smaller positions. -/
theorem mem_before_iff_position_lt {items : List Item} {before after : List Block} {b : Block}
    (h : blocks items = before ++ b :: after) {a : Block} :
    a ∈ before ↔ a ∈ blocks items ∧ a.position < b.position := by
  have hpairwise := pairwise_blocks items
  rw [h, List.pairwise_append, List.pairwise_cons] at hpairwise
  obtain ⟨-, ⟨hafter, -⟩, hbefore⟩ := hpairwise
  rw [h, List.mem_append, List.mem_cons]
  constructor
  · intro ha
    exact ⟨.inl ha, hbefore a ha b List.mem_cons_self⟩
  · rintro ⟨ha | rfl | ha, hlt⟩
    · exact ha
    · exact absurd hlt (List.lt_irrefl _)
    · exact absurd (List.lt_trans hlt (hafter a ha)) (List.lt_irrefl _)

/-- No block is listed twice. -/
theorem nodup_blocks (items : List Item) : (blocks items).Nodup := by
  refine (pairwise_blocks items).imp ?_
  rintro a b hlt rfl
  exact List.lt_irrefl _ hlt

/-- There is one block at a position. -/
theorem Block.IsIn.eq_of_position {items : List Item} {a b : Block} (ha : a.IsIn items)
    (hb : b.IsIn items) (h : a.position = b.position) : a = b := by
  obtain ⟨position, path, inner⟩ := a
  obtain ⟨position', path', inner'⟩ := b
  obtain rfl : position = position' := h
  obtain ⟨rfl, rfl⟩ := Prod.mk.inj (Option.some.inj (Eq.trans (Eq.symm ha) hb))
  rfl

/-! ### Registration -/

/-- The namespace and the items of a block of a file. -/
def Block.below (home : Namespace) (b : Block) : Namespace × List Item :=
  (⟨home.segments ++ b.path⟩, b.items)

namespace Crate

mutual

/-- The modules inside an item are its blocks, below the module. -/
theorem inlineModulesOf_eq : ∀ {i : Item} {home : Namespace} {k : Nat},
    inlineModulesOf home i = (i.blocks k).map (Block.below home)
  | .mod name (some inner), home, k => by
    have hbelow : Block.below home ∘ Block.within k name = Block.below (home.child name) := by
      funext b
      simp [Block.below, Block.within, Namespace.child]
    rw [inlineModulesOf, Item.blocks, List.map_map, hbelow, List.map_cons,
      inlineModules_eq (k := 0)]
    simp [Block.below]
  | .mod _ none, _, _ | .use _ _, _, _ | .struct _ _, _, _ | .enum _, _, _ | .union _, _, _
  | .trait _ _, _, _ | .typeAlias _, _, _ | .impl _ _ _ _, _, _ | .verbatim, _, _
  | .other, _, _ => by simp [inlineModulesOf, Item.blocks]

theorem inlineModules_eq : ∀ {items : List Item} {home : Namespace} {k : Nat},
    inlineModules home items = (blocksFrom k items).map (Block.below home)
  | [], _, _ => by simp [inlineModules, blocksFrom]
  | _ :: _, _, _ => by
    rw [inlineModules, blocksFrom, List.map_append, inlineModulesOf_eq, inlineModules_eq]

end

/-- What is registered for a file is the file itself and all blocks in it. -/
theorem cons_inlineModules_eq (home : Namespace) (items : List Item) :
    (home, items) :: inlineModules home items = (blocks items).map (Block.below home) := by
  rw [blocks, List.map_cons, inlineModules_eq (k := 0)]
  simp [Block.below]

/-- The module that is made of items of a file. -/
def moduleOf (root : Namespace) (file : FilePath) (x : Namespace × List Item) : Module :=
  ⟨x.1, file, x.2, Scope.ofItems x.1 root x.2⟩

/-- To store a module where none is adds this one. -/
theorem module?_put_iff {c : Crate} {home : Namespace} (hfree : c.module? home = none)
    {file : FilePath} {items : List Item} {n : Namespace} {m : Module} :
    (c.put file home items).module? n = some m ↔
      c.module? n = some m ∨ m.home = n ∧ moduleOf c.root file (home, items) = m := by
  rw [module?, put, SortedMap.get?_insert]
  by_cases hn : n = home
  · subst hn
    rw [module?] at hfree
    rw [if_pos rfl, module?, hfree, Option.some.injEq]
    constructor
    · rintro rfl
      exact .inr ⟨rfl, rfl⟩
    · rintro (hnone | ⟨-, hm⟩)
      · cases hnone
      · exact hm
  · rw [if_neg hn, ← module?]
    refine (or_iff_left ?_).symm
    rintro ⟨rfl, rfl⟩
    exact hn rfl

/-- Whether a crate is another one with modules of a file, each of a namespace of its own that was
free. -/
structure Extends (c : Crate) (file : FilePath) (l : List (Namespace × List Item)) (c' : Crate) :
    Prop where
  root : c'.root = c.root
  nodup : (l.map (·.1)).Nodup
  free : ∀ x ∈ l, c.module? x.1 = none
  module?_iff : ∀ n m, c'.module? n = some m ↔
    c.module? n = some m ∨ m.home = n ∧ ∃ x ∈ l, moduleOf c.root file x = m

/-- A crate without further modules is as it was. -/
theorem extends_nil (c : Crate) (file : FilePath) : c.Extends file [] c where
  root := rfl
  nodup := List.nodup_nil
  free := by simp
  module?_iff n m := by simp

namespace Extends

variable {c c' : Crate} {file : FilePath} {home : Namespace} {items : List Item}
  {l : List (Namespace × List Item)}

/-- Modules are stored one after the other. -/
theorem cons (hfree : c.module? home = none) (h : (c.put file home items).Extends file l c') :
    c.Extends file ((home, items) :: l) c' := by
  have hput : (c.put file home items).module? home = some (moduleOf c.root file (home, items)) :=
    (module?_put_iff hfree).2 (.inr ⟨rfl, rfl⟩)
  refine ⟨h.root, ?_, ?_, ?_⟩
  · rw [List.map_cons, List.nodup_cons]
    refine ⟨?_, h.nodup⟩
    intro hmem
    obtain ⟨x, hx, rfl⟩ := List.mem_map.1 hmem
    rw [h.free x hx] at hput
    cases hput
  · rw [List.forall_mem_cons]
    refine ⟨hfree, ?_⟩
    intro x hx
    rw [Option.eq_none_iff_forall_ne_some]
    intro m hm
    -- What was bound before is bound after the first module was put, against `h`.
    have hkept : (c.put file home items).module? x.1 = some m := (module?_put_iff hfree).2 (.inl hm)
    rw [h.free x hx] at hkept
    cases hkept
  · intro n m
    rw [h.module?_iff, module?_put_iff hfree, or_assoc, ← and_or_left, List.exists_mem_cons_iff]
    rfl

/-- A namespace is held after a list exactly when it was before or is one of the list. -/
theorem exists_module?_iff (h : c.Extends file l c') (n : Namespace) :
    (∃ m, c'.module? n = some m) ↔ (∃ m, c.module? n = some m) ∨ ∃ x ∈ l, x.1 = n := by
  simp only [h.module?_iff, exists_or]
  refine or_congr_right ?_
  constructor
  · rintro ⟨_, rfl, x, hx, rfl⟩
    exact ⟨x, hx, rfl⟩
  · rintro ⟨x, hx, rfl⟩
    exact ⟨_, rfl, x, hx, rfl⟩

end Extends

/-- Modules are registered all, or up to the first of which the namespace is taken. -/
theorem putAll_cases (c : Crate) (file : FilePath) (l : List (Namespace × List Item)) :
    (c.putAll file l).2 = none ∧ c.Extends file l (c.putAll file l).1 ∨
    ∃ l₁ x l₂ m, l = l₁ ++ x :: l₂ ∧ c.Extends file l₁ (c.putAll file l).1 ∧
      (c.putAll file l).1.module? x.1 = some m ∧
      (c.putAll file l).2 = some (.duplicateModule x.1 m.file file) := by
  induction l generalizing c with
  | nil => exact .inl ⟨rfl, extends_nil c file⟩
  | cons x r ih =>
    obtain ⟨home, items⟩ := x
    rw [putAll]
    cases hm : c.module? home with
    | some m => exact .inr ⟨[], (home, items), r, m, rfl, extends_nil c file, hm, rfl⟩
    | none =>
      rcases ih (c.put file home items) with
        ⟨hnone, hall⟩ | ⟨l₁, x, l₂, m, rfl, hsome, hheld, hfault⟩
      · exact .inl ⟨hnone, hall.cons hm⟩
      · exact .inr ⟨(home, items) :: l₁, x, l₂, m, rfl, hsome.cons hm, hheld, hfault⟩

/-- All modules are stored if no two have the same namespace and none has that of a module that is
there. -/
theorem putAll_eq_none_iff {c : Crate} {file : FilePath} {l : List (Namespace × List Item)} :
    (c.putAll file l).2 = none ↔
      (l.map (·.1)).Nodup ∧ ∀ x ∈ l, c.module? x.1 = none := by
  rcases putAll_cases c file l with ⟨hnone, hall⟩ | ⟨l₁, x, l₂, m, rfl, hsome, hheld, hfault⟩
  · exact iff_of_true hnone ⟨hall.nodup, hall.free⟩
  · apply iff_of_false
    · rw [hfault]
      exact Option.some_ne_none _
    · -- the namespace is that of a module before it, or was held
      rintro ⟨hnodup, hfree⟩
      rcases (hsome.exists_module?_iff x.1).1 ⟨m, hheld⟩ with ⟨m', hm'⟩ | ⟨y, hy, hhome⟩
      · rw [hfree x (by simp)] at hm'
        cases hm'
      · rw [List.map_append, List.map_cons, List.nodup_append] at hnodup
        exact hnodup.2.2 y.1 (List.mem_map.2 ⟨y, hy, rfl⟩) x.1 List.mem_cons_self hhome

/-! ### Files -/

/-- The module that the block at a position of a file makes. -/
def moduleAt? (root home : Namespace) (file : FilePath) (items : List Item) (position : List Nat) :
    Option Module :=
  (blockAt? items position).map fun b =>
    let home : Namespace := ⟨home.segments ++ b.1⟩
    ⟨home, file, b.2, Scope.ofItems home root b.2⟩

/-- The module at a position is that of the block there. -/
theorem moduleAt?_eq_some_iff {root home : Namespace} {file : FilePath} {items : List Item}
    {position : List Nat} {m : Module} :
    moduleAt? root home file items position = some m ↔
      ∃ b ∈ blocks items, b.position = position ∧ moduleOf root file (b.below home) = m := by
  rw [moduleAt?, Option.map_eq_some_iff]
  constructor
  · rintro ⟨x, hx, rfl⟩
    exact ⟨⟨position, x.1, x.2⟩, mem_blocks_iff.2 hx, rfl, rfl⟩
  · rintro ⟨b, hb, rfl, rfl⟩
    exact ⟨_, mem_blocks_iff.1 hb, rfl⟩

theorem exists_mem_map_below_iff {root home : Namespace} {file : FilePath} {items : List Item}
    {l : List Block} {P : List Nat → Prop}
    (hl : ∀ b, b ∈ l ↔ b ∈ blocks items ∧ P b.position) (m : Module) :
    (∃ x ∈ l.map (Block.below home), moduleOf root file x = m) ↔
      ∃ ks, P ks ∧ moduleAt? root home file items ks = some m := by
  constructor
  · rintro ⟨x, hx, hm⟩
    obtain ⟨b, hb, rfl⟩ := List.mem_map.1 hx
    obtain ⟨hb, hP⟩ := (hl b).1 hb
    exact ⟨b.position, hP, moduleAt?_eq_some_iff.2 ⟨b, hb, rfl, hm⟩⟩
  · rintro ⟨ks, hP, hm⟩
    obtain ⟨b, hb, rfl, hmodule⟩ := moduleAt?_eq_some_iff.1 hm
    exact ⟨_, List.mem_map_of_mem ((hl b).2 ⟨hb, hP⟩), hmodule⟩

/-- The namespaces of blocks differ when positions of one namespace are the same. -/
theorem nodup_map_below_iff {root home : Namespace} {file : FilePath} {items : List Item} :
    (((blocks items).map (Block.below home)).map (·.1)).Nodup ↔
      ∀ ks ks' m m', moduleAt? root home file items ks = some m →
        moduleAt? root home file items ks' = some m' → m.home = m'.home → ks = ks' := by
  rw [List.map_map, List.nodup_map_iff_inj_on (nodup_blocks items)]
  constructor
  · intro hinj ks ks' m m' hm hm' hhome
    obtain ⟨b, hb, rfl, rfl⟩ := moduleAt?_eq_some_iff.1 hm
    obtain ⟨b', hb', rfl, rfl⟩ := moduleAt?_eq_some_iff.1 hm'
    rw [hinj b hb b' hb' hhome]
  · intro hinj b hb b' hb' hhome
    apply Block.IsIn.eq_of_position (mem_blocks_iff.1 hb) (mem_blocks_iff.1 hb')
    exact hinj _ _ _ _ (moduleAt?_eq_some_iff.2 ⟨b, hb, rfl, rfl⟩)
      (moduleAt?_eq_some_iff.2 ⟨b', hb', rfl, rfl⟩) hhome

/-- To register items is to store the modules of all blocks in their order. -/
theorem insert_eq (c : Crate) (home : Namespace) (file : FilePath) (items : List Item) :
    c.insert home file items = c.putAll file ((blocks items).map (Block.below home)) := by
  rw [insert, cons_inlineModules_eq]

/-- Items are registered just when their blocks have namespaces of their own, that no module has. -/
theorem insert_eq_none_iff {c : Crate} {home : Namespace} {file : FilePath} {items : List Item} :
    (c.insert home file items).2 = none ↔
      (∀ ks ks' m m', moduleAt? c.root home file items ks = some m →
        moduleAt? c.root home file items ks' = some m' → m.home = m'.home → ks = ks') ∧
      ∀ ks m, moduleAt? c.root home file items ks = some m → c.module? m.home = none := by
  rw [insert_eq, putAll_eq_none_iff, nodup_map_below_iff]
  refine and_congr_right fun _ => ⟨?_, ?_⟩
  · intro hfree ks m hm
    obtain ⟨b, hb, rfl, rfl⟩ := moduleAt?_eq_some_iff.1 hm
    exact hfree _ (List.mem_map_of_mem hb)
  · intro hfree x hx
    obtain ⟨b, hb, rfl⟩ := List.mem_map.1 hx
    exact hfree _ _ (moduleAt?_eq_some_iff.2 ⟨b, hb, rfl, rfl⟩)

/-- A file is registered whole exactly when the namespaces of its blocks differ and are free; then
the crate has the modules of all blocks, and those it had.  A fault is of the first block, in the
order of positions, of which the namespace is held, and names the file of the module that holds it;
then the crate has the modules of the blocks before it, and those it had.  However a crate is built,
every module of it stands under its own namespace. -/
theorem insert_registers_blocks (c : Crate) (home : Namespace) (file : FilePath)
    (items : List Item) :
    let c' := (c.insert home file items).1
    let fault? := (c.insert home file items).2
    let at? := moduleAt? c.root home file items
    (fault? = none ↔
      (∀ ks ks' m m', at? ks = some m → at? ks' = some m' → m.home = m'.home → ks = ks') ∧
      ∀ ks m, at? ks = some m → c.module? m.home = none) ∧
    (fault? = none → ∀ n m, c'.module? n = some m ↔
      c.module? n = some m ∨ m.home = n ∧ ∃ ks, at? ks = some m) ∧
    (∀ fault, fault? = some fault → ∃ ks m held, at? ks = some m ∧
      c'.module? m.home = some held ∧ fault = .duplicateModule m.home held.file file ∧
      ∀ n m', c'.module? n = some m' ↔
        c.module? n = some m' ∨ m'.home = n ∧ ∃ ks' < ks, at? ks' = some m') ∧
    c'.root = c.root ∧
    (∀ n m, c.module? n = some m → c'.module? n = some m) ∧
    ∀ root steps n m, (build root steps).module? n = some m → m.home = n := by
  intro c' fault? at?
  have hhome : ∀ root steps n m, (build root steps).module? n = some m → m.home = n :=
    fun root steps n m hm => (coherent_build root steps n m hm).1
  have hcases := putAll_cases c file ((blocks items).map (Block.below home))
  rw [← insert_eq] at hcases
  rcases hcases with ⟨hnone, hall⟩ | ⟨before, x, after, held, hsplit, hsome, hheld, hfault⟩
  · refine ⟨insert_eq_none_iff, ?_, ?_, hall.root, ?_, hhome⟩
    · intro _ n m
      have hmade : (∃ x ∈ (blocks items).map (Block.below home), moduleOf c.root file x = m) ↔
          ∃ ks, True ∧ at? ks = some m :=
        exists_mem_map_below_iff (fun b => (iff_of_eq (and_true (b ∈ blocks items))).symm) m
      rw [hall.module?_iff, hmade]
      simp only [true_and]
    · intro fault hfault
      exact absurd (hnone.symm.trans hfault) (Option.some_ne_none fault).symm
    · intro n m hm
      exact (hall.module?_iff n m).2 (.inl hm)
  · obtain ⟨before, _, hblocks, rfl, hrest⟩ := List.map_eq_append_iff.1 hsplit
    obtain ⟨b, after, rfl, rfl, rfl⟩ := List.map_eq_cons_iff.1 hrest
    have hb : b ∈ blocks items := by simp [hblocks]
    refine ⟨insert_eq_none_iff, ?_, ?_, hsome.root, ?_, hhome⟩
    · intro hnone
      exact absurd (hfault.symm.trans hnone) (Option.some_ne_none _)
    · intro fault h
      obtain rfl := Option.some.inj (hfault.symm.trans h)
      refine ⟨b.position, _, held, moduleAt?_eq_some_iff.2 ⟨b, hb, rfl, rfl⟩, hheld, rfl, ?_⟩
      intro n m
      -- the blocks that are registered are those of smaller positions
      rw [hsome.module?_iff, exists_mem_map_below_iff (P := (· < b.position)) fun a =>
        mem_before_iff_position_lt hblocks]
    · intro n m hm
      exact (hsome.module?_iff n m).2 (.inl hm)

/-- Blocks of one path, of which the second stops the registration. -/
example : ((empty ⟨["crate"]⟩).insert ⟨["crate"]⟩ ⟨"lib.rs"⟩
      [.mod "geo" (some []), .mod "geo" (some [.mod "area" (some [])])]).2 =
    some (.duplicateModule ⟨["crate", "geo"]⟩ ⟨"lib.rs"⟩ ⟨"lib.rs"⟩) := by
  decide +kernel

end Crate

end FieldBinder
