import CallAtlas.Go.Grammar

/-!
Types, and the parameter lists of functions.
-/

namespace CallAtlas.Go.Grammar

open CallAtlas.Parser TokenParser

/-- An entry of a parameter list: with a name and a type, alone, or with dots. -/
inductive Entry where
  | typed (type : Node)
  | alone (type : Node)
  | variadic (type : Node)

/-- Whether entries that stand alone are names of the declaration that follows them. -/
def Entry.namesAhead : List Entry → Bool
  | .typed _ :: _ => true
  | .alone (.typeName _) :: es => namesAhead es
  | _ => false

def Entry.params : List Entry → List Param
  | [] => []
  | .typed t :: es => ⟨t, false⟩ :: params es
  | .variadic t :: es => ⟨t, true⟩ :: params es
  | .alone (.typeName n) :: es =>
    if namesAhead es then params es else ⟨.typeName n, false⟩ :: params es
  | .alone t :: es => ⟨t, false⟩ :: params es

def entry (g : Grammar) : TokenParser Entry :=
  either
    (do
      let _ ← name
      let dots ← acceptMark "..."
      let t ← g.type
      return if dots then .variadic t else .typed t)
    (do
      let dots ← acceptMark "..."
      let t ← g.type
      return if dots then .variadic t else .alone t)

def params (g : Grammar) : TokenParser (List Param) := do
  mark "("
  return Entry.params (← closedBy ")" "," (entry g))

def startsType : Lexeme → Bool
  | .name _ => true
  | .keyword text => ["map", "chan", "func", "struct", "interface"].contains text
  | .mark text => ["*", "[", "<-"].contains text
  | _ => false

def result (g : Grammar) : TokenParser (List Node) := do
  if ← isMark "(" then
    return (← params g).map Param.type
  else if ((← peek).map startsType).getD false then
    return [← g.type]
  else
    return []

def signature (g : Grammar) : TokenParser (List Node) := do
  let ps ← params g
  return ps.map Param.type ++ (← result g)

/-- Types with bars between them, as in a constraint. -/
def union (g : Grammar) : TokenParser Node := do
  let first ← g.type
  let rest ← loop (fun found => do
    if ← acceptMark "|" then
      return some ((← g.type) :: found)
    else
      return none) []
  return if rest.isEmpty then first else .branch .otherType (first :: rest.reverse)

def namedType (g : Grammar) : TokenParser Node := do
  let n ← name
  let mut base := Node.typeName n
  if ← acceptMark "." then
    let _ ← name
    base := .branch .qualifiedType []
  if (← isMark "[") && (← peekAt 1) != some (.mark "]") then
    skip
    return .generic base (← closedBy "]" "," (union g))
  else
    return base

/-- A type in which comments that stand first are kept. -/
def commented (g : Grammar) : TokenParser (List Node) := do
  let n ← comments
  return List.replicate n .comment ++ [← g.type]

def field (g : Grammar) : TokenParser Node := do
  let t ← either
    (do
      let _ ← commas name
      g.type)
    (do
      let _ ← acceptMark "*"
      namedType g)
  if let some (.quoted _) ← peek then
    skip
  return t

def interfaceElement (g : Grammar) : TokenParser Node := do
  match ← peek, ← peekAt 1 with
  | some (.name _), some (.mark "(") =>
    skip
    return .branch .otherType (← signature g)
  | _, _ => union g

def bracketType (g : Grammar) : TokenParser Node := do
  mark "["
  if ← acceptMark "]" then
    return .branch .elementType [← g.type]
  else
    let length ← (← g.operand true).value
    mark "]"
    return .branch .elementType [length, ← g.type]

def channelType (g : Grammar) : TokenParser Node := do
  let _ ← acceptMark "<-"
  keyword "chan"
  let _ ← acceptMark "<-"
  return .branch .otherType [← g.type]

def typeRule (g : Grammar) : TokenParser Node := do
  match ← peek with
  | some (.name _) => namedType g
  | some (.mark "*") =>
    skip
    return .branch .pointerType (← commented g)
  | some (.mark "(") =>
    skip
    let parts ← commented g
    mark ")"
    return .branch .parenType parts
  | some (.mark "[") => bracketType g
  | some (.mark "<-") | some (.keyword "chan") => channelType g
  | some (.mark "~") =>
    skip
    return .branch .otherType [← g.type]
  | some (.keyword "map") =>
    skip
    mark "["
    let key ← g.type
    mark "]"
    return .branch .elementType [key, ← g.type]
  | some (.keyword "func") =>
    skip
    return .branch .otherType (← signature g)
  | some (.keyword "struct") =>
    skip
    mark "\x7b"
    return .branch .structType (← closedBy "\x7d" ";" (field g))
  | some (.keyword "interface") =>
    skip
    mark "\x7b"
    return .branch .interfaceType (← closedBy "\x7d" ";" (interfaceElement g))
  | _ => refuse

def typeParam (g : Grammar) : TokenParser (Option Node) := do
  let _ ← name
  if (← isMark ",") || (← isMark "]") then
    return none
  else
    return some (← union g)

/-- The constraints of a type parameter list. The last parameter has one. -/
def typeParams (g : Grammar) : TokenParser (List Node) := do
  mark "["
  let found ← closedBy "]" "," (typeParam g)
  require (found.getLast?.join.isSome)
  return found.filterMap id

end CallAtlas.Go.Grammar
