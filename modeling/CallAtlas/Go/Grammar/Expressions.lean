import CallAtlas.Go.Grammar.Types

/-!
Expressions. The strength of binary operators does not matter here: an operation lists its operands in
source order.
-/

namespace CallAtlas.Go.Grammar

open CallAtlas.Parser TokenParser

/-- Whether a composite literal is read behind a bare type name. It is not in the header of a control
statement, where a brace opens the body. -/
abbrev LiteralsAllowed := Bool

def predeclared : List String := ["nil", "true", "false", "iota"]

def unaryMarks : List String := ["+", "-", "!", "^", "*", "&", "<-"]

def binaryMarks : List String :=
  ["||", "&&", "==", "!=", "<", "<=", ">", ">=", "+", "-", "|", "^", "*", "/", "%", "<<", ">>", "&",
   "&^"]

def isMarkIn (texts : List String) : Option Lexeme → Bool
  | some (.mark text) => texts.contains text
  | _ => false

def block (g : Grammar) : TokenParser (List Node) := do
  mark "\x7b"
  let found ← loop (fun found => do
    if ← acceptMark ";" then
      return some found
    else if ← isMark "\x7d" then
      return none
    else
      let s ← g.statement
      if !(← acceptMark ";") then
        require (← isMark "\x7d")
      return some (s :: found)) []
  mark "\x7d"
  return found.reverse

def openArrayType (g : Grammar) : TokenParser Node := do
  mark "["
  mark "..."
  mark "]"
  return .branch .elementType [← g.type]

def primary (g : Grammar) : TokenParser Operand := do
  match ← peek with
  | some .constant | some (.quoted _) =>
    skip
    return ⟨.branch .constant [], .value⟩
  | some (.name text) =>
    skip
    if predeclared.contains text then
      return ⟨.branch .constant [], .value⟩
    else if ["new", "make"].contains text then
      return ⟨.name text, .value⟩
    else
      return ⟨.name text, .named⟩
  | some (.mark "(") =>
    skip
    let o ← g.operand true
    mark ")"
    return ⟨.branch .paren [o.node], o.reading⟩
  | some (.keyword "func") =>
    skip
    let parts ← signature g
    if ← isMark "\x7b" then
      return ⟨.branch .function (parts ++ (← block g)), .value⟩
    else
      return ⟨.branch .otherType parts, .typeOnly⟩
  | some (.mark "[") =>
    if (← peekAt 1) == some (.mark "...") then
      return ⟨← openArrayType g, .typeOnly⟩
    else
      return ⟨← bracketType g, .typeOnly⟩
  | some (.mark "<-") | some (.keyword "chan") | some (.keyword "map") | some (.keyword "struct")
  | some (.keyword "interface") => return ⟨← typeRule g, .typeOnly⟩
  | _ => refuse

structure Arg where
  operand : Operand
  isSpread : Bool

def arg (g : Grammar) : TokenParser Arg := do
  let o ← g.operand true
  return ⟨o, ← acceptMark "..."⟩

/-- The arguments of a call. Only `new` and `make` take a type, and only as their first. -/
def args (g : Grammar) (function : Node) : TokenParser (List Arg) := do
  mark "("
  let found ← closedBy ")" "," (arg g)
  let takesType :=
    match function with
    | .name text => ["new", "make"].contains text
    | _ => false
  require ((if takesType then found.drop 1 else found).all (·.operand.isValue))
  return found

/-- A call, or the conversion of one value by an operand that can only be a type. -/
def applied (o : Operand) (found : List Arg) : TokenParser Operand := do
  let isConversion :=
    (o.reading == .applied || o.reading == .typeOnly) &&
      match found with
      | [a] => !a.isSpread
      | _ => false
  let nodes := found.map (·.operand.node)
  if isConversion then
    return ⟨.branch .conversion (o.node :: nodes), .value⟩
  else
    require o.isValue
    match o.node with
    | .generic function typeArgs => return ⟨.call function typeArgs nodes, .value⟩
    | function => return ⟨.call function [] nodes, .value⟩

/-- The rest of a slice expression behind its first colon. -/
def sliceBounds (g : Grammar) : TokenParser (List Node) := do
  if ← acceptMark "]" then
    return []
  else
    let high ← (← g.operand true).value
    if ← acceptMark ":" then
      let limit ← (← g.operand true).value
      mark "]"
      return [high, limit]
    else
      mark "]"
      return [high]

/-- Type arguments, an index or the bounds of a slice, behind the opening bracket. -/
def bracketed (g : Grammar) (o : Operand) : TokenParser Operand := do
  if ← acceptMark ":" then
    return ⟨.branch .slice (o.node :: (← sliceBounds g)), .value⟩
  else
    let first ← g.operand true
    if ← acceptMark ":" then
      let low ← first.value
      return ⟨.branch .slice (o.node :: low :: (← sliceBounds g)), .value⟩
    else
      let rest ← if ← acceptMark "," then closedBy "]" "," (g.operand true) else do
        mark "]"
        pure []
      let found := first :: rest
      if found.all Operand.isType then
        return ⟨.generic o.node (found.map Operand.node),
          if o.isTypeHead then .applied else .value⟩
      else
        require rest.isEmpty
        return ⟨.branch .index [o.node, first.node], .value⟩

def takesElements (literals : LiteralsAllowed) (o : Operand) : Bool :=
  match o.node with
  | .branch .elementType _ | .branch .structType _ => o.reading == .typeOnly
  | .generic _ _ => literals && o.reading == .applied
  | _ => literals && o.isTypeHead

/-- One step behind an operand: a selector, an assertion, brackets, arguments or elements. A type switch
guard is left to the statement it belongs to. -/
def trailer (g : Grammar) (literals : LiteralsAllowed) (o : Operand) : TokenParser (Option Operand) := do
  match ← peek with
  | some (.mark ".") =>
    match ← peekAt 1, ← peekAt 2 with
    | some (.mark "("), some (.keyword "type") => return none
    | some (.mark "("), _ =>
      require o.isValue
      skip
      skip
      let t ← g.type
      mark ")"
      return some ⟨.branch .assertion [o.node, t], .value⟩
    | _, _ =>
      require o.isValue
      skip
      let member ← name
      let reading := match o.node with
        | .name _ => o.reading
        | _ => .value
      return some ⟨.selector o.node member, reading⟩
  | some (.mark "[") =>
    require o.isValue
    skip
    return some (← bracketed g o)
  | some (.mark "(") => return some (← applied o (← args g o.node))
  | some (.mark "\x7b") =>
    if takesElements literals o then
      return some ⟨.branch .composite (o.node :: (← g.elements)), .value⟩
    else
      return none
  | _ => return none

/-- Unary operators, the last one first. An arrow before `chan` belongs to a type. -/
def unaryOperators : TokenParser (List String) :=
  loop (fun found => do
    match ← peek with
    | some (.mark text) =>
      if !unaryMarks.contains text then
        return none
      else if text == "<-" && (← peekAt 1) == some (.keyword "chan") then
        return none
      else
        skip
        return some (text :: found)
    | _ => return none) []

def underOperator (o : Operand) (operator : String) : TokenParser Operand := do
  if operator == "*" then
    return ⟨.branch .star [o.node], o.reading⟩
  else
    require o.isValue
    return ⟨.branch .operation [o.node], .value⟩

def unary (g : Grammar) (literals : LiteralsAllowed) : TokenParser Operand := do
  let operators ← unaryOperators
  let o ← loop (trailer g literals) (← primary g)
  operators.foldlM underOperator o

def operandRule (g : Grammar) (literals : LiteralsAllowed) : TokenParser Operand := do
  let first ← unary g literals
  let rest ← loop (fun found => do
    if isMarkIn binaryMarks (← peek) then
      skip
      let o ← unary g literals
      return some ((← o.value) :: found)
    else
      return none) []
  if rest.isEmpty then
    return first
  else
    return ⟨.branch .operation ((← first.value) :: rest.reverse), .value⟩

def element (g : Grammar) : TokenParser (List Node) := do
  if ← isMark "\x7b" then
    g.elements
  else
    return [← (← g.operand true).value]

def keyedElement (g : Grammar) : TokenParser (List Node) := do
  let first ← element g
  if ← acceptMark ":" then
    return first ++ (← element g)
  else
    return first

def elementsRule (g : Grammar) : TokenParser (List Node) := do
  mark "\x7b"
  return (← closedBy "\x7d" "," (keyedElement g)).flatten

def expression (g : Grammar) (literals : LiteralsAllowed) : TokenParser Node := do
  (← operandRule g literals).value

def expressions (g : Grammar) (literals : LiteralsAllowed) : TokenParser (List Node) :=
  commas (expression g literals)

end CallAtlas.Go.Grammar
