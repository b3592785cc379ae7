import CallAtlas.Go.Grammar.Expressions

/-!
Statements, and the declarations that can stand among them.
-/

namespace CallAtlas.Go.Grammar

open CallAtlas.Parser TokenParser

def assignMarks : List String :=
  [":=", "=", "+=", "-=", "*=", "/=", "%=", "&=", "|=", "^=", "<<=", ">>=", "&^="]

/-- A simple statement. `isExpression` tells that it is one expression and nothing else. -/
structure Simple where
  parts : List Node
  isExpression : Bool := false

def simpleBehind (g : Grammar) (literals : LiteralsAllowed) (found : List Node) : TokenParser Simple := do
  let next ← peek
  if isMarkIn assignMarks next then
    skip
    return ⟨found ++ (← expressions g literals), false⟩
  else
    require (found.length == 1)
    if isMarkIn ["++", "--"] next then
      skip
      return ⟨found, false⟩
    else if isMarkIn ["<-"] next then
      skip
      return ⟨found ++ [← expression g literals], false⟩
    else
      return ⟨found, true⟩

def simple (g : Grammar) (literals : LiteralsAllowed) : TokenParser Simple := do
  simpleBehind g literals (← expressions g literals)

def namedValues (g : Grammar) : TokenParser (List Node) := do
  let _ ← commas name
  if ← acceptMark "=" then
    expressions g true
  else
    let t ← typeRule g
    if ← acceptMark "=" then
      return t :: (← expressions g true)
    else
      return [t]

def namedConstants (g : Grammar) : TokenParser (List Node) := do
  let _ ← commas name
  if ← acceptMark "=" then
    expressions g true
  else if (← isMark ";") || (← isMark ")") || (← isEnd) then
    return []
  else
    let t ← typeRule g
    mark "="
    return t :: (← expressions g true)

def typeSpec (g : Grammar) : TokenParser TypeSpec := do
  let line ← line
  let n ← name
  if ← acceptMark "=" then
    return ⟨n, line, true, [], ← typeRule g⟩
  else
    either
      (do return ⟨n, line, false, [], ← typeRule g⟩)
      (do
        let ps ← typeParams g
        let isAlias ← acceptMark "="
        return ⟨n, line, isAlias, ps, ← typeRule g⟩)

/-- One specification, or any number of them in parentheses. -/
def grouped {α : Type} (item : TokenParser α) : TokenParser (List α) := do
  if ← acceptMark "(" then
    closedBy ")" ";" item
  else
    return [← item]

def statements (g : Grammar) : TokenParser (List Node) := do
  let found ← loop (fun found => do
    if ← acceptMark ";" then
      return some found
    else if (← isMark "\x7d") || (← isKeyword "case") || (← isKeyword "default") then
      return none
    else
      let s ← g.statement
      if !(← acceptMark ";") then
        require (← isMark "\x7d")
      return some (s :: found)) []
  return found.reverse

def clauses (g : Grammar) (header : TokenParser (List Node)) : TokenParser (List Node) := do
  mark "\x7b"
  let found ← loop (fun found => do
    if ← isMark "\x7d" then
      return none
    else
      let parts ←
        if ← isKeyword "default" then do
          skip
          pure []
        else do
          keyword "case"
          header
      mark ":"
      return some ((parts ++ (← statements g)) :: found)) []
  mark "\x7d"
  return found.reverse.flatten

def ifStatement (g : Grammar) : TokenParser (List Node) := do
  keyword "if"
  let first ← simple g false
  let header ←
    if ← acceptMark ";" then
      pure (first.parts ++ [← expression g false])
    else do
      require first.isExpression
      pure first.parts
  let body ← block g
  if ← isKeyword "else" then
    skip
    require ((← isKeyword "if") || (← isMark "\x7b"))
    return header ++ body ++ [← g.statement]
  else
    return header ++ body

/-- What stands between the first semicolon of a `for` header and the body. -/
def forClause (g : Grammar) : TokenParser (List Node) := do
  let condition ← if ← isMark ";" then pure [] else pure [← expression g false]
  mark ";"
  let update ← if ← isMark "\x7b" then pure [] else pure (← simple g false).parts
  return condition ++ update

def forHeader (g : Grammar) : TokenParser (List Node) := do
  if ← isMark "\x7b" then
    return []
  else if ← isKeyword "range" then
    skip
    return [← expression g false]
  else if ← acceptMark ";" then
    forClause g
  else
    let found ← expressions g false
    if isMarkIn [":=", "="] (← peek) && (← peekAt 1) == some (.keyword "range") then
      skip
      skip
      return found ++ [← expression g false]
    else
      let first ← simpleBehind g false found
      if ← acceptMark ";" then
        return first.parts ++ (← forClause g)
      else
        require first.isExpression
        return first.parts

def forStatement (g : Grammar) : TokenParser (List Node) := do
  keyword "for"
  let header ← forHeader g
  return header ++ (← block g)

/-- The guard of a type switch, behind its operand. -/
def typeGuard : TokenParser Bool := do
  match ← peek, ← peekAt 1, ← peekAt 2, ← peekAt 3 with
  | some (.mark "."), some (.mark "("), some (.keyword "type"), some (.mark ")") =>
    skip
    skip
    skip
    skip
    return true
  | _, _, _, _ => return false

/-- The subject of a switch, and whether the switch is over its type. -/
def switchSubject (g : Grammar) : TokenParser (List Node × Bool) := do
  if ← isMark "\x7b" then
    return ([], false)
  else
    let s ← simple g false
    let isGuard ← typeGuard
    require (isGuard || s.isExpression)
    return (s.parts, isGuard)

def switchHeader (g : Grammar) : TokenParser (List Node × Bool) := do
  if (← isMark "\x7b") || (← acceptMark ";") then
    switchSubject g
  else
    let first ← simple g false
    if ← typeGuard then
      return (first.parts, true)
    else if ← acceptMark ";" then
      let (parts, isGuard) ← switchSubject g
      return (first.parts ++ parts, isGuard)
    else
      require first.isExpression
      return (first.parts, false)

def switchStatement (g : Grammar) : TokenParser (List Node) := do
  keyword "switch"
  let (parts, isGuard) ← switchHeader g
  let header := if isGuard then commas g.type else commas (do (← g.operand true).value)
  return parts ++ (← clauses g header)

def selectStatement (g : Grammar) : TokenParser (List Node) := do
  keyword "select"
  clauses g (return (← simple g true).parts)

def keywordStatement (g : Grammar) : String → TokenParser (List Node)
  | "var" => do
    skip
    return (← grouped (namedValues g)).flatten
  | "const" => do
    skip
    return (← grouped (namedConstants g)).flatten
  | "type" => do
    skip
    return (← grouped (typeSpec g)).flatMap TypeSpec.parts
  | "if" => ifStatement g
  | "for" => forStatement g
  | "switch" => switchStatement g
  | "select" => selectStatement g
  | "return" => do
    skip
    if (← isMark ";") || (← isMark "\x7d") || (← isEnd) then
      return []
    else
      expressions g true
  | "go" | "defer" => do
    skip
    return [← expression g true]
  | "break" | "continue" => do
    skip
    if let some (.name _) ← peek then
      skip
    return []
  | "goto" => do
    skip
    let _ ← name
    return []
  | "fallthrough" => do
    skip
    return []
  | _ => do return (← simple g true).parts

def labeled (g : Grammar) : TokenParser (List Node) := do
  let _ ← name
  mark ":"
  if (← isMark ";") || (← isMark "\x7d") || (← isEnd) then
    return []
  else
    return [← g.statement]

def statementRule (g : Grammar) : TokenParser Node := do
  let parts ←
    match ← peek, ← peekAt 1 with
    | some (.keyword text), _ => keywordStatement g text
    | some (.mark "\x7b"), _ => block g
    | some (.name _), some (.mark ":") => labeled g
    | _, _ => do pure (← simple g true).parts
  return .branch .statement parts

end CallAtlas.Go.Grammar
