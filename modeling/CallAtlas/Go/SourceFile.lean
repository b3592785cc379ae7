import CallAtlas.Go.Grammar.Statements
import CallAtlas.Go.Token.Scan

/-!
Whole source files. Beside declarations, statements may stand at the top level, and package clauses and
imports may stand anywhere there.
-/

namespace CallAtlas.Go

open CallAtlas.Parser TokenParser

def Grammar.outer (g : Grammar) : Grammar where
  operand := operandRule g
  type := typeRule g
  elements := elementsRule g
  statement := statementRule g

/-- The grammar for syntax that is nested at most `depth` deep. -/
def Grammar.ofDepth : Nat → Grammar
  | 0 => .exhausted
  | depth + 1 => (ofDepth depth).outer

namespace SourceFile

open Grammar

def importLine : TokenParser ImportLine := do
  match ← peek with
  | some (.quoted _) => return ⟨none, ← quoted⟩
  | some (.mark ".") =>
    skip
    return ⟨some ".", ← quoted⟩
  | _ =>
    let qualifier ← name
    return ⟨some qualifier, ← quoted⟩

def body (g : Grammar) : TokenParser (List Node) := do
  if ← isMark "\x7b" then block g else return []

def funcSpec (g : Grammar) : TokenParser FuncSpec := do
  let line ← line
  keyword "func"
  if ← isMark "(" then
    let receiver ← params g
    let n ← name
    let _ ← signature g
    return ⟨n, line, some receiver, ← body g⟩
  else
    let n ← name
    if ← isMark "[" then
      let _ ← typeParams g
    let _ ← signature g
    return ⟨n, line, none, ← body g⟩

def topLevel (g : Grammar) : TokenParser TopLevel := do
  match ← peek with
  | some (.keyword "package") =>
    skip
    return .package (← name)
  | some (.keyword "import") =>
    skip
    return .imports (← grouped importLine)
  | some (.keyword "func") =>
    either (do return .func (← funcSpec g)) (do return .statement (← statementRule g))
  | some (.keyword "type") =>
    skip
    return .types (← grouped (typeSpec g))
  | some (.keyword "var") | some (.keyword "const") =>
    return .values [← statementRule g]
  | _ => return .statement (← statementRule g)

def topLevels (g : Grammar) : TokenParser (List TopLevel) := do
  let found ← loop (fun found => do
    if ← acceptMark ";" then
      return some found
    else if ← isEnd then
      return none
    else
      let item ← topLevel g
      if !(← acceptMark ";") then
        require (← isEnd)
      return some (item :: found)) []
  require (← isEnd)
  return found.reverse

/-- The place of the token with `left` tokens from it to the end, or the start of the file. -/
def placeOf (tokens : List Token) (left : Nat) : Place :=
  ((tokens.reverse[left - 1]?).map Token.place).getD .start

def parse (source : String) : Except Place SourceFile := do
  let tokens ← Token.scan source
  match topLevels (.ofDepth (tokens.length + 1)) (.ofList tokens) with
  | .ok (found, _) => .ok ⟨found⟩
  | .error left => .error (placeOf tokens left)

end SourceFile

end CallAtlas.Go
