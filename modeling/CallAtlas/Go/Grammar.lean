import CallAtlas.Go.TokenParser
import CallAtlas.Go.Tree

/-!
The nested parts of the Go grammar. An expression may hold types and statements and the other way round;
each rule takes a `Grammar` for the parts nested in it, and reads at least one token before it turns to
one of them.
-/

namespace CallAtlas.Go

/-- How an operand can be read: only as a value, as a value or a type, as a type with arguments (or a value
with them), or only as a type. -/
inductive Reading where
  | value
  | named
  | applied
  | typeOnly
  deriving DecidableEq

structure Operand where
  node : Node
  reading : Reading

structure Grammar where
  /-- An expression or a type. The flag tells that a brace behind a bare type name opens a literal. -/
  operand : Bool → TokenParser Operand
  type : TokenParser Node
  elements : TokenParser (List Node)
  statement : TokenParser Node

def Grammar.exhausted : Grammar := ⟨fun _ => .refuse, .refuse, .refuse, .refuse⟩

namespace Operand

def isValue (o : Operand) : Bool := o.reading != .typeOnly

def isType (o : Operand) : Bool := o.reading != .value

def isTypeHead (o : Operand) : Bool :=
  o.reading == .named &&
    match o.node with
    | .name _ | .selector _ _ => true
    | _ => false

def value (o : Operand) : TokenParser Node := do
  Parser.require o.isValue
  return o.node

end Operand

end CallAtlas.Go
