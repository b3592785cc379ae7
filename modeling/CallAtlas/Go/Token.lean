/-!
The words and marks of a Go source file.
-/

namespace CallAtlas.Go

inductive Lexeme where
  | name (text : String)
  | keyword (text : String)
  | constant
  | quoted (text : String)
  | mark (text : String)
  deriving DecidableEq

/-- A place in a source: lines and columns count from one, columns in bytes. -/
structure Place where
  line : Nat
  column : Nat
  deriving DecidableEq

structure Token where
  lexeme : Lexeme
  place : Place
  /-- How many comments stand between the token before and this one. -/
  comments : Nat
  deriving DecidableEq

namespace Lexeme

def keywords : List String :=
  ["break", "case", "chan", "const", "continue", "default", "defer", "else", "fallthrough", "for",
   "func", "go", "goto", "if", "import", "interface", "map", "package", "range", "return",
   "select", "struct", "switch", "type", "var"]

/-- Longer marks come before the marks they begin with. -/
def marks : List String :=
  ["<<=", ">>=", "&^=", "...", "<<", ">>", "&^", "+=", "-=", "*=", "/=", "%=", "&=", "|=", "^=",
   "&&", "||", "<-", "++", "--", "==", "!=", "<=", ">=", ":=", "+", "-", "*", "/", "%", "&", "|",
   "^", "<", ">", "=", "!", "(", ")", "[", "]", "\x7b", "\x7d", ",", ";", ".", ":", "~"]

def ofWord (text : String) : Lexeme :=
  if keywords.contains text then .keyword text else .name text

/-- A line may end a statement only behind such a lexeme. -/
def endsStatement : Lexeme → Bool
  | .name _ | .constant | .quoted _ => true
  | .keyword text => ["break", "continue", "fallthrough", "return"].contains text
  | .mark text => ["++", "--", ")", "]", "\x7d"].contains text

end Lexeme

end CallAtlas.Go
