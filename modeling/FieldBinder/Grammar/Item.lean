import FieldBinder.Grammar.Statement

/-
  Items: functions, types, traits, implementations, modules, imports.

  An item is read with its attributes (`item`); the readers for the kinds of
  items start behind its visibility.  Some forms that no compiler accepts are
  read all the same, and kept as they stand.
-/
namespace FieldBinder.Grammar

/-! ### Visibility and signatures -/

/-- A visibility; whether there is one. -/
def visibility : Parser Bool := do
  if ← word? "pub" then
    match ← rest with
    | .group .paren body :: _ =>
      if isOneOf ["crate", "self", "super"] body && body.length = 1 then discard anyTree
      else if isWord "in" body then
        inside .paren do
          word "in"
          discard plainPath
    | _ => pure ()
    return true
  else return false

/-- The words in front of `fn`, of which `safe` can be one if `safe` is set; whether it
is. -/
def signatureWords (safe : Bool) : Parser Bool := do
  discard (word? "const")
  discard (word? "async")
  let isSafe := safe && isWord "safe" (← rest)
  if isSafe then discard anyWord else discard (word? "unsafe")
  abi
  return isSafe

/-- Whether a function comes next. -/
def isSignature (safe : Bool) : Parser Bool :=
  foresee do
    discard (signatureWords safe)
    return isWord "fn" (← rest)

/-- The receiver of a method. -/
def receiver (g : Rules) : Parser Unit := do
  let byReference ← op? "&"
  if byReference then discard lifetime?
  discard (word? "mut")
  word "self"
  if !byReference then
    if ← op? ":" then discard (g (.type true))

/-- At most `n` parameters of a function; the marks say whether none was read so far and
whether a receiver was, which only the first one can be. -/
def fnParams (g : Rules) (isFirst received : Bool) : Nat → Parser Unit
  | 0 => return
  | n + 1 => do
    let next (received : Bool) := do
      unless (← rest).isEmpty do
        op ","
        fnParams g false received n
    let last := do unless (← rest).isEmpty do op ","
    if (← rest).isEmpty then return
    discard (outerAttributes g)
    if ← op? "..." then last
    else if (← attempt? (receiver g)).isSome then
      if received then refuse "unexpected second method receiver"
      unless isFirst do refuse "unexpected method receiver"
      next true
    else
      let ts ← rest
      -- `fn f(Vec<u8>)`: a parameter can be a type alone
      if isName ts && isOp "<" (ts.drop 1) then
        note [.word "_", .punct ':' false]
        discard (g (.type true))
        next received
      else
        discard (g .pattern)
        op ":"
        if ← op? "..." then last
        else
          discard (g (.type true))
          next received

/-- A function up to its body; whether it is marked `safe`. -/
def signature (g : Rules) (safe : Bool) : Parser Bool := do
  let isSafe ← signatureWords safe
  word "fn"
  discard name
  discard (generics g)
  inside .paren do fnParams g true false ((← rest).length + 1)
  discard (returnType g true)
  discard (whereClause g)
  return isSafe

/-- A function with its body; whether it has a semicolon instead of one. -/
def function (g : Rules) : Parser Bool := do
  discard (signature g false)
  if ← op? ";" then return true
  bracedBlock g
  return false

/-- A function of a trait, which has a body or a semicolon. -/
def traitFunction (g : Rules) : Parser Unit := do
  discard (signature g false)
  unless ← op? ";" do
    unless isGroup .brace (← rest) do expectedOneOf [.group .brace, .op ";"]
    bracedBlock g

/-! ### Constants and types -/

/-- The value of a constant, if there is one; whether there is. -/
def value? (g : Rules) : Parser Bool := do
  if ← op? "=" then
    discard (g (.expr true))
    return true
  else return false

/-- A constant from its first word on; whether it is generic, and whether it has a value. -/
def constant (g : Rules) : Parser (Bool × Bool) := do
  word "const"
  let ts ← rest
  unless isName ts || isWord "_" ts do expectedOneOf [.identifier, .word "_"]
  discard anyWord
  let params ← generics g
  op ":"
  discard (g (.type true))
  let valued ← value? g
  let constrained ← whereClause g
  op ";"
  return (params.brackets || constrained, valued)

/-- A static variable from its first word on.  One without type or value is kept as it
stands. -/
def static (g : Rules) : Parser Item := do
  word "static"
  discard (word? "mut")
  discard name
  if ← value? g then
    op ";"
    return .verbatim
  op ":"
  discard (g (.type true))
  if ← op? ";" then return .verbatim
  op "="
  discard (g (.expr true))
  op ";"
  return .other

/-- Where the `where` clause of a type stands. -/
inductive WherePlace
  | beforeValue
  | afterValue
  | either
deriving DecidableEq

/-- A type that is defined, or only declared. -/
structure TypeDefinition where
  name : String
  /-- Whether there is a colon for bounds. -/
  bounded : Bool
  valued : Bool

/-- A type from its first word on. -/
def typeDefinition (g : Rules) (place : WherePlace) : Parser TypeDefinition := do
  word "type"
  let ident ← name
  discard (generics g)
  let bounded := isOp ":" (← rest)
  let stop (ts : List Token) := isWord "where" ts || isOp "=" ts || isOp ";" ts
  optionalBounds (discard (separated "+" stop (g (.bound false true))))
  let early ← if place = .afterValue then pure false else whereClause g
  let valued ← op? "="
  if valued then discard (g (.type true))
  if place = .afterValue || (place = .either && !early) then discard (whereClause g)
  op ";"
  return ⟨ident, bounded, valued⟩

/-! ### Macro calls -/

/-- A macro call as an item. -/
def macroItem (named : Bool) : Parser Unit := do
  discard plainPath
  op "!"
  if named then
    if isWord "try" (← rest) || isName (← rest) then discard anyWord
  let (d, _) ← anyGroup
  unless d = .brace do op ";"

/-- What can start the path of a macro call. -/
def macroStarts : List Start :=
  [.identifier, .word "self", .word "super", .word "crate", .op "::"]

/-- Whether the tokens start with a path that a macro call can have. -/
def isMacroPath (ts : List Token) : Bool := macroStarts.any (·.holds ts)

/-- Give up because no item comes next that can stand there; a macro call can if `calls`
is set. -/
def expectedItem (words : List String) (calls : Bool) : Parser α :=
  expectedOneOf (words.map .word ++ if calls then macroStarts else [])

/-! ### Fields -/

/-- A field with a name.  The type of a nameless one can be a group of fields. -/
def namedField (g : Rules) : Parser NamedField := do
  let attributes ← outerAttributes g
  discard visibility
  let line := match ← rest with
    | .ident _ line :: _ => line
    | _ => 0
  let isNameless := isWord "_" (← rest)
  let ident ← if isNameless then anyWord else name
  op ":"
  let ts ← rest
  if isNameless &&
      (isWord "struct" ts || (isWord "union" ts && isGroup .brace (ts.drop 1))) then
    let (_, tokens) ← verbatim <| asWrittenIf (fun _ => true) do
      discard anyWord
      g .fields
    return ⟨attributes, ident, line, .other tokens⟩
  else return ⟨attributes, ident, line, ← g (.type true)⟩

/-- Fields with names, in braces. -/
def namedFields (g : Rules) : Parser (List NamedField) := do
  return (← inside .brace (commas (namedField g))).1

/-- Fields without names, in parentheses; their attributes. -/
def tupleFields (g : Rules) : Parser (List (List Attribute)) := do
  let (fields, _) ← inside .paren <| commas do
    let attributes ← outerAttributes g
    discard visibility
    discard (g (.type true))
    return attributes
  return fields

/-- A struct from its first word on. -/
def struct (g : Rules) : Parser Item := do
  word "struct"
  let ident ← name
  discard (generics g)
  let early ← whereClause g
  let ts ← rest
  if !early && isGroup .paren ts then
    let fields ← tupleFields g
    let late ← whereClause g
    unless ← op? ";" do expectedOneOf ((if late then [] else [.word "where"]) ++ [.op ";"])
    return .struct ident (.tuple fields)
  else if isGroup .brace ts then return .struct ident (.named (← g .fields))
  else if ← op? ";" then return .struct ident .unit
  else
    let starts := if early then [] else [.word "where", .group .paren]
    expectedOneOf (starts ++ [.group .brace, .op ";"])

/-- A variant of an enum.  Its visibility is not printed. -/
def variant (g : Rules) : Parser Unit := do
  discard (outerAttributes g)
  discard (captured visibility)
  discard name
  let ts ← rest
  if isGroup .brace ts then discard (g .fields)
  else if isGroup .paren ts then discard (tupleFields g)
  discard (value? g)

/-- An enum from its first word on. -/
def enum (g : Rules) : Parser Item := do
  word "enum"
  let ident ← name
  discard (generics g)
  discard (whereClause g)
  discard (inside .brace (commas (variant g)))
  return .enum ident

/-- A union from its first word on. -/
def union (g : Rules) : Parser Item := do
  word "union"
  let ident ← name
  discard (generics g)
  discard (whereClause g)
  discard (g .fields)
  return .union ident

/-! ### Traits -/

/-- What comes behind the visibility of an item in a trait; `plain` says that nothing
stood in front of it.  Whether it is kept as it stands. -/
def traitMemberBody (g : Rules) (plain : Bool) : Parser Bool := do
  let ts ← rest
  if ← isSignature false then
    traitFunction g
    return false
  else if isWord "const" ts then
    let second := ts.drop 1
    if isName second || isWord "_" second then
      let (generic, _) ← constant g
      return generic
    else if isOneOf ["async", "unsafe", "extern", "fn"] second then
      traitFunction g
      return false
    else
      word "const"
      let words := ["_", "async", "unsafe", "extern", "fn"]
      expectedOneOf (.identifier :: words.map .word)
  else if isWord "type" ts then
    discard (typeDefinition g .afterValue)
    return false
  else if plain && isMacroPath ts then
    macroItem false
    return false
  else expectedItem ["fn", "const", "type"] plain

/-- An item in a trait. -/
def traitMember (g : Rules) : Parser Unit :=
  discard <| asWrittenIf id do
    discard (outerAttributes g)
    let isPublic ← visibility
    let isDefault ← word? "default"
    let plain := !isPublic && !isDefault
    return (← traitMemberBody g plain) || !plain

/-- A trait behind its name and parameters. -/
def traitRest (g : Rules) (ident : String) : Parser Item := do
  let stop (ts : List Token) := isWord "where" ts || isGroup .brace ts
  let supertraits ← if isOp ":" (← rest) then
      introduced do
        op ":"
        separated "+" stop (g (.bound false true))
    else pure ([], false)
  discard (whereClause g)
  inside .brace do
    discard (innerAttributes g)
    discard (untilEnd (traitMember g))
  return .trait ident supertraits.1

/-- A trait, or another name for a sum of bounds. -/
def trait (g : Rules) : Parser Item := do
  -- a marked trait is no alias
  let isMarked := isOneOf ["unsafe", "auto"] (← rest)
  discard (word? "unsafe")
  discard (word? "auto")
  word "trait"
  let ident ← name
  discard (generics g)
  let starts := [.group .brace, .op ":", .word "where"]
  if isMarked || starts.any (·.holds (← rest)) then traitRest g ident
  else if ← op? "=" then
    let stop (ts : List Token) := isWord "where" ts || isOp ";" ts
    discard (separated "+" stop (g (.bound false false)))
    discard (whereClause g)
    op ";"
    return .other
  else expectedOneOf (starts ++ [.op "="])

/-! ### Implementations -/

/-- An item in an implementation. -/
def implMember (g : Rules) : Parser Unit :=
  discard <| asWrittenIf id do
    discard (outerAttributes g)
    let isPublic ← visibility
    let ts ← rest
    let isDefault := isWord "default" ts && !isOp "!" (ts.drop 1)
    if isDefault then discard anyWord
    let plain := !isPublic && !isDefault
    let ts ← rest
    if ← isSignature false then function g
    else if isWord "const" ts then
      let (generic, valued) ← constant g
      return generic || !valued
    else if isWord "type" ts then
      let t ← typeDefinition g .afterValue
      return t.bounded || !t.valued
    else if plain && isMacroPath ts then
      macroItem false
      return false
    else expectedItem ((if isDefault then [] else ["default"]) ++ ["fn", "const", "type"]) plain

/-- An implementation behind its visibility. -/
def impl (g : Rules) (isPublic : Bool) : Parser Item := do
  discard (word? "default")
  discard (word? "unsafe")
  word "impl"
  let params ← if startsGenerics (← rest) then generics g else pure ⟨false, 0⟩
  let ts ← rest
  -- `impl const T for X` is read and left alone
  let isConst := isWord "const" ts || (isOp "?" ts && isWord "const" (ts.drop 1))
  if isConst then
    discard (op? "?")
    word "const"
  let ts ← rest
  -- `impl ! {}` is for the type without values
  let isNegative := isOp "!" ts && !isGroup .brace (ts.drop 1)
  if isNegative then op "!"
  let first ← g (.type true)
  let isFor ← word? "for"
  if isNegative && !isFor then refuse "inherent impls cannot be negative"
  let self ← if isFor then g (.type true) else pure first
  discard (whereClause g)
  inside .brace do
    discard (innerAttributes g)
    discard (untilEnd (implMember g))
  let item := Item.impl isNegative (0 < params.count)
  if isPublic || isConst then return .verbatim
  else if isFor then
    match first with
    | .path p => return item (some p) self
    | _ => return .verbatim
  else return item none self

/-! ### Modules and imports -/

/-- The items of a file or a module, behind its own attributes. -/
def items (g : Rules) : Parser (List Item) := do
  discard (innerAttributes g)
  untilEnd (g .item)

/-- A module. -/
def module (g : Rules) : Parser Item := do
  discard (word? "unsafe")
  word "mod"
  let ident ← if isWord "try" (← rest) then anyWord else name
  if ← op? ";" then return .mod ident none
  else
    unless isGroup .brace (← rest) do expectedOneOf [.op ";", .group .brace]
    return .mod ident (some (← inside .brace (items g)))

/-- The tree of a `use` item, or none if a path in a group of it starts with `::`. -/
def useTree (g : Rules) (root : Bool) : Parser (Option UseTree) := do
  let ts ← rest
  let words := [.identifier, .word "self", .word "super", .word "crate", .word "try"]
  if words.any (·.holds ts) then
    let ident ← anyWord
    if ← op? "::" then return (← g (.useTree false)).map (.path ident)
    else if ← word? "as" then
      let ts ← rest
      unless isName ts || isWord "_" ts do expected "identifier or underscore"
      return some (.rename ident (← anyWord))
    else return some (.name ident)
  else if ← op? "*" then return some .glob
  else if isGroup .brace ts then
    let (trees, _) ← inside .brace <| commas do
      let fromRoot ← if root then op? "::" else pure false
      let tree ← g (.useTree (root && !fromRoot))
      return if fromRoot then none else tree
    return (trees.mapM id).map .group
  else expectedOneOf (words ++ [.op "*", .group .brace])

/-- A `use` item. -/
def use (g : Rules) : Parser Item := do
  word "use"
  let leading ← op? "::"
  let tree ← g (.useTree !leading)
  op ";"
  return match tree with
    | some t => .use leading t
    | none => .verbatim

/-- The import of a crate. -/
def externCrate : Parser Item := do
  word "extern"
  word "crate"
  if isWord "self" (← rest) then discard anyWord else discard name
  if ← word? "as" then
    if isWord "_" (← rest) then discard anyWord else discard name
  op ";"
  return .other

/-! ### Foreign items -/

/-- An item of a foreign interface. -/
def foreignMember (g : Rules) : Parser Unit :=
  discard <| asWrittenIf id do
    discard (outerAttributes g)
    let isPublic ← visibility
    let ts ← rest
    let isMarked := isOneOf ["unsafe", "safe"] ts && isWord "static" (ts.drop 1)
    if ← isSignature true then
      let isSafe ← signature g true
      if isGroup .brace (← rest) then
        bracedBlock g
        return true
      op ";"
      return isSafe
    else if isWord "static" ts || isMarked then
      if isMarked then discard anyWord
      word "static"
      discard (word? "mut")
      discard name
      op ":"
      discard (g (.type true))
      let valued ← value? g
      op ";"
      return isMarked || valued
    else if isWord "type" ts then
      let t ← typeDefinition g .either
      return t.bounded || t.valued
    else if !isPublic && isMacroPath ts then
      macroItem false
      return false
    else expectedItem ["fn", "static", "type"] !isPublic

/-- A block of foreign items, which has no visibility. -/
def foreignBlock (g : Rules) (isPublic : Bool) : Parser Item := do
  if isPublic then refuse "expected `extern`"
  discard (word? "unsafe")
  word "extern"
  if isString (← rest) then discard literal
  inside .brace do
    discard (innerAttributes g)
    discard (untilEnd (foreignMember g))
  return .other

/-- An item that starts with `extern` and is no function. -/
def externItem (g : Rules) (isPublic : Bool) : Parser Item := do
  let second := (← rest).drop 1
  if isWord "crate" second then externCrate
  else if isGroup .brace second || (isString second && isGroup .brace (second.drop 1)) then
    foreignBlock g isPublic
  else
    word "extern"
    if isString second then
      discard literal
      expectedOneOf [.group .brace]
    else expectedOneOf [.word "crate", .group .brace, .string]

/-! ### Items -/

/-- A macro definition by its arguments and its body. -/
def macroDefinition : Parser Item := do
  word "macro"
  discard name
  if isGroup .paren (← rest) then
    discard anyGroup
    unless isGroup .brace (← rest) do expectedOneOf [.group .brace]
  else
    unless isGroup .brace (← rest) do expectedOneOf [.group .paren, .group .brace]
  discard anyGroup
  return .verbatim

/-- An item that starts with `unsafe` and is no function. -/
def unsafeItem (g : Rules) (isPublic : Bool) : Parser Item := do
  let second := (← rest).drop 1
  if isWord "trait" second || (isWord "auto" second && isWord "trait" (second.drop 1)) then
    trait g
  else if isWord "impl" second then impl g isPublic
  else if isWord "extern" second then foreignBlock g isPublic
  else if isWord "mod" second then module g
  else
    word "unsafe"
    expectedItem ["trait", "auto", "impl", "extern", "mod"] false

/-- The words that an item can start with. -/
def itemWords : List String :=
  ["fn", "extern", "use", "static", "const", "unsafe", "mod", "type", "struct", "enum",
    "union", "trait", "auto", "impl", "default", "macro"]

/-- An item behind its visibility. -/
def itemBody (g : Rules) (isPublic : Bool) : Parser Item := do
  let ts ← rest
  let second := ts.drop 1
  if ← isSignature false then
    return if ← function g then .verbatim else .other
  else if isWord "extern" ts then externItem g isPublic
  else if isWord "use" ts then use g
  else if isWord "static" ts then static g
  else if isWord "const" ts then
    let (generic, valued) ← constant g
    return if generic || !valued then .verbatim else .other
  else if isWord "unsafe" ts then unsafeItem g isPublic
  else if isWord "mod" ts then module g
  else if isWord "type" ts then
    let t ← typeDefinition g .beforeValue
    return if t.valued && !t.bounded then .typeAlias t.name else .verbatim
  else if isWord "struct" ts then struct g
  else if isWord "enum" ts then enum g
  else if isWord "union" ts && isName second then union g
  else if isWord "trait" ts || (isWord "auto" ts && isWord "trait" second) then trait g
  else if isWord "impl" ts || (isWord "default" ts && !isOp "!" second) then impl g isPublic
  else if isWord "macro" ts then macroDefinition
  else if !isPublic && isMacroPath ts then
    macroItem true
    return .other
  else expectedItem itemWords !isPublic

/-- An item with its attributes. -/
def item (g : Rules) : Parser Item :=
  asWrittenIf Item.isVerbatim do
    discard (outerAttributes g)
    let isPublic ← visibility
    itemBody g isPublic

/-- A struct, an enum or a union, and nothing else. -/
def dataItem (g : Rules) : Parser Item := do
  discard (outerAttributes g)
  discard visibility
  let ts ← rest
  if isWord "struct" ts then struct g
  else if isWord "enum" ts then enum g
  else if isWord "union" ts then union g
  else expectedItem ["struct", "enum", "union"] false

end FieldBinder.Grammar
