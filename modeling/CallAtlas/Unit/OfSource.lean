import CallAtlas.Go.SourceFile
import CallAtlas.Text.Basic
import CallAtlas.Unit

/-!
The source unit of a Go file.
-/

namespace CallAtlas

namespace Go.Node

mutual

def expr : Node → Expr
  | .name text => .name text
  | .selector operand field => .selector operand.expr field
  | .call function typeArgs args => .call function.expr (callsIn typeArgs ++ callsIn args)
  | .generic base typeArgs => .enclosing (base.calls ++ callsIn typeArgs)
  | .branch _ parts => .enclosing (callsIn parts)
  | .comment | .typeName _ => .enclosing []

/-- The outermost calls at or below a node, in source order. -/
def calls : Node → List Expr
  | .call function typeArgs args => [.call function.expr (callsIn typeArgs ++ callsIn args)]
  | .selector operand _ => operand.calls
  | .generic base typeArgs => base.calls ++ callsIn typeArgs
  | .branch _ parts => callsIn parts
  | .name _ | .comment | .typeName _ => []

def callsIn : List Node → List Expr
  | [] => []
  | n :: ns => n.calls ++ callsIn ns

end

/-- The type name a receiver type is built on. A pointer or a parenthesis is looked through to its first
part, so a comment that stands there hides the name. -/
def baseName : Node → Option String
  | .typeName text => some text
  | .branch .pointerType (part :: _) => part.baseName
  | .branch .parenType (part :: _) => part.baseName
  | .generic base _ => base.baseName
  | _ => none

def typeShape : Node → TypeShape
  | .branch .structType _ => .struct
  | .branch .interfaceType _ => .interface
  | _ => .other

end Go.Node

namespace SourceUnit

open Go

def receiver (params : List Param) : Receiver :=
  ⟨(params.find? (!·.isVariadic)).bind (·.type.baseName)⟩

def isQuote (c : Char) : Bool := c == '"' || c == '\x60'

def importOf? (line : ImportLine) : Option Import :=
  let path := Text.strip isQuote line.path.toList
  if path.isEmpty then none
  else
    some
      { name := line.qualifier.map fun
          | "." => .dot
          | "_" => .blank
          | text => .named text
        path := String.ofList path }

def itemsOf : TopLevel → List Item
  | .func spec => [.func ⟨spec.name, spec.receiver.map receiver, spec.line, Node.callsIn spec.body⟩]
  | .types specs => specs.map fun spec =>
    .type spec.name (if spec.isAlias then .other else spec.type.typeShape) spec.line
  | .values parts => [.value (Node.callsIn parts)]
  | .package _ | .imports _ | .statement _ => []

/-- The last package clause of a file names its package. -/
def packageOf (items : List TopLevel) : Option String :=
  (items.filterMap fun
    | .package name => some name
    | _ => none).getLast?

def importsOf : TopLevel → List Import
  | .imports lines => lines.filterMap importOf?
  | _ => []

def ofFile (file : SourceFile) (lineCount : Nat) : SourceUnit where
  package := packageOf file.items
  imports := file.items.flatMap importsOf
  items := file.items.flatMap itemsOf
  lineCount := lineCount

def ofSource (source : String) : Except ParseFailure SourceUnit :=
  match SourceFile.parse source with
  | .ok file => .ok (ofFile file (source.toList.count '\n' + 1))
  | .error place => .error (.malformed place.line place.column)

end SourceUnit

end CallAtlas
