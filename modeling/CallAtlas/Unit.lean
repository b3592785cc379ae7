/-!
A source unit, reduced to what the declarations and calls in it need.
-/

namespace CallAtlas

/-- An expression as far as calls go. Whatever is no name, selector or call is `enclosing`, which keeps the
calls nested in it. -/
inductive Expr where
  | name (text : String)
  | selector (operand : Expr) (field : String)
  | call (callee : Expr) (args : List Expr)
  | enclosing (calls : List Expr)

inductive ImportName where
  | named (text : String)
  | dot
  | blank
  deriving DecidableEq

structure Import where
  name : Option ImportName
  path : String
  deriving DecidableEq

/-- The receiver of a method. It has no `base` when its type is not built on a plain type name. -/
structure Receiver where
  base : Option String
  deriving DecidableEq

inductive TypeShape where
  | struct
  | interface
  | other
  deriving DecidableEq

structure Func where
  name : String
  receiver : Option Receiver
  line : Nat
  /-- The outermost calls of the body, in source order. -/
  body : List Expr

inductive Item where
  | func (f : Func)
  | type (name : String) (shape : TypeShape) (line : Nat)
  | value (calls : List Expr)

structure SourceUnit where
  package : Option String
  imports : List Import
  items : List Item
  lineCount : Nat

def SourceUnit.funcs (unit : SourceUnit) : List Func :=
  unit.items.filterMap fun
    | .func f => some f
    | _ => none

inductive ParseFailure where
  | malformed (line column : Nat)
  | unreadable (reason : String)
  | unavailable (reason : String)
  deriving DecidableEq

def ParseFailure.message : ParseFailure → String
  | .malformed line column => s!"syntax error at line {line}, column {column}"
  | .unreadable reason => s!"cannot read file: {reason}"
  | .unavailable reason => s!"parser unavailable: {reason}"

end CallAtlas
