import CallAtlas.Go.Token

/-!
The concrete syntax of a Go source file.

A `Node` stands for an expression, a type or a statement. Names, selectors and calls have shapes of their
own; every other piece of syntax is a branch with its parts in source order. Comments are kept inside
types, where they stand among the parts.
-/

namespace CallAtlas.Go

inductive Kind where
  /-- A number, a string, a character or a predeclared value. -/
  | constant
  | paren
  | star
  | operation
  | index
  | slice
  | assertion
  | conversion
  | composite
  | function
  | pointerType
  | parenType
  | qualifiedType
  | structType
  | interfaceType
  | elementType
  /-- A channel or function type, a union of types or a type with a tilde. -/
  | otherType
  | statement
  deriving DecidableEq

inductive Node where
  | comment
  | name (text : String)
  | typeName (text : String)
  | selector (operand : Node) (field : String)
  | call (function : Node) (typeArgs args : List Node)
  | generic (base : Node) (typeArgs : List Node)
  | branch (kind : Kind) (parts : List Node)

structure Param where
  type : Node
  isVariadic : Bool := false

structure ImportLine where
  qualifier : Option String
  /-- The path with its quotes. -/
  path : String

structure TypeSpec where
  name : String
  line : Nat
  isAlias : Bool
  params : List Node
  type : Node

def TypeSpec.parts (spec : TypeSpec) : List Node := spec.params ++ [spec.type]

structure FuncSpec where
  name : String
  line : Nat
  receiver : Option (List Param)
  body : List Node

inductive TopLevel where
  | package (name : String)
  | imports (lines : List ImportLine)
  | func (spec : FuncSpec)
  | types (specs : List TypeSpec)
  | values (parts : List Node)
  | statement (node : Node)

structure SourceFile where
  items : List TopLevel

end CallAtlas.Go
