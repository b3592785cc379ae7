import CallAtlas.Imports
import CallAtlas.Registry

/-!
Which symbol a call means, as far as its form tells. A bare name is a function of the calling package, a
member of an imported package is a function there, and a member of any other name is taken for a method of
the type of that name. Nothing else is resolved.
-/

namespace CallAtlas

inductive CalleeShape where
  | bare (name : String)
  | imported (path member : String)
  | member (base member : String)
  | other
  deriving DecidableEq

def Expr.calleeShape (imports : ImportMap) : Expr → CalleeShape
  | .name text => .bare text
  | .selector (.name base) field =>
    match imports.get? base with
    | some path => .imported path field
    | none => .member base field
  | _ => .other

structure Call where
  caller : SymbolKey
  callee : SymbolKey
  deriving DecidableEq

structure Scope where
  registry : Registry
  package : PackageKey
  imports : ImportMap

def Func.key? (package : PackageKey) (f : Func) : Option SymbolKey :=
  match f.receiver with
  | none => some (.function package f.name)
  | some receiver => receiver.base.map (.method package · f.name)

namespace Scope

/-- The package at an import path. The last segment of the path is taken for its name when no such package
is registered. -/
def importedPackage (s : Scope) (path : String) : PackageKey :=
  match s.registry.owner? path with
  | some p => p.key
  | none => ⟨path, Path.lastSegment path⟩

def resolve (s : Scope) (callee : Expr) : Option SymbolKey :=
  match callee.calleeShape s.imports with
  | .bare name => some (.function s.package name)
  | .imported path member => some (.function (s.importedPackage path) member)
  | .member base member => some (.method s.package base member)
  | .other => none

mutual

/-- The symbols called in an expression, outer calls before the calls in their callees and arguments. -/
def targets (s : Scope) : Expr → List SymbolKey
  | .name _ => []
  | .selector operand _ => s.targets operand
  | .call callee args => (s.resolve callee).toList ++ s.targets callee ++ s.targetsIn args
  | .enclosing calls => s.targetsIn calls

def targetsIn (s : Scope) : List Expr → List SymbolKey
  | [] => []
  | e :: es => s.targets e ++ s.targetsIn es

end

def callsOf (s : Scope) (f : Func) : List Call :=
  match f.key? s.package with
  | none => []
  | some caller => (s.targetsIn f.body).map (⟨caller, ·⟩)

def calls (s : Scope) (unit : SourceUnit) : List Call := unit.funcs.flatMap s.callsOf

end Scope

end CallAtlas
