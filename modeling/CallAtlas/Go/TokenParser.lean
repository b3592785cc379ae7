import CallAtlas.Go.Token
import CallAtlas.Parser

/-!
Readers of Go tokens.
-/

namespace CallAtlas.Go

abbrev TokenParser := Parser Token

namespace TokenParser

open CallAtlas.Parser

variable {α : Type}

def peek : TokenParser (Option Lexeme) := return (← next?).map Token.lexeme

def peekAt (n : Nat) : TokenParser (Option Lexeme) := return (← ahead? n).map Token.lexeme

def line : TokenParser Nat := return ((← next?).map (·.place.line)).getD 0

def comments : TokenParser Nat := return ((← next?).map Token.comments).getD 0

def isNext (lexeme : Lexeme) : TokenParser Bool := return (← peek) == some lexeme

def isMark (text : String) : TokenParser Bool := isNext (.mark text)

def isKeyword (text : String) : TokenParser Bool := isNext (.keyword text)

def expect (lexeme : Lexeme) : TokenParser Unit := do
  require (← isNext lexeme)
  skip

def mark (text : String) : TokenParser Unit := expect (.mark text)

def keyword (text : String) : TokenParser Unit := expect (.keyword text)

def acceptMark (text : String) : TokenParser Bool := do
  if ← isMark text then
    skip
    return true
  else
    return false

def name : TokenParser String := do
  match ← peek with
  | some (.name text) =>
    skip
    return text
  | _ => refuse

def quoted : TokenParser String := do
  match ← peek with
  | some (.quoted text) =>
    skip
    return text
  | _ => refuse

def commas (item : TokenParser α) : TokenParser (List α) := do
  let first ← item
  let rest ← loop (fun found => do
    if ← acceptMark "," then
      return some ((← item) :: found)
    else
      return none) []
  return first :: rest.reverse

/-- Items up to a closing mark, each but the last followed by `separator`; the last may be as well. -/
def closedBy (close separator : String) (item : TokenParser α) : TokenParser (List α) := do
  let found ← loop (fun found => do
    if ← isMark close then
      return none
    else
      let a ← item
      if !(← acceptMark separator) then
        require (← isMark close)
      return some (a :: found)) []
  mark close
  return found.reverse

end TokenParser

end CallAtlas.Go
