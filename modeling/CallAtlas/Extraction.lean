import CallAtlas.Path
import CallAtlas.Registry
import CallAtlas.Statistics
import CallAtlas.Unit

/-!
What one unit gives to the registry.
-/

namespace CallAtlas

structure Extraction where
  package : PackageKey
  dir : String
  declarations : List Candidate
  counts : UnitCounts

structure Registration where
  inserted : Nat := 0
  duplicates : Nat := 0
  deriving DecidableEq

def isTestPath (path : String) : Bool := Text.endsWith path "_test.go"

def TypeShape.kind : TypeShape → SymbolKind
  | .struct => .struct
  | .interface => .interface
  | .other => .type

namespace Item

/-- The declaration of an item. Values declare nothing, and neither does a method whose receiver has no base
name. -/
def candidate? (file : String) : Item → Option Candidate
  | .func ⟨name, none, line, _⟩ => some ⟨name, none, .function, file, line⟩
  | .func ⟨name, some ⟨some base⟩, line, _⟩ => some ⟨name, some base, .method, file, line⟩
  | .func ⟨_, some ⟨none⟩, _, _⟩ => none
  | .type name shape line => some ⟨name, none, shape.kind, file, line⟩
  | .value _ => none

def count (c : UnitCounts) : Item → UnitCounts
  | .func ⟨_, none, _, _⟩ => { c with functions := c.functions + 1 }
  | .func ⟨_, some _, _, _⟩ => { c with methods := c.methods + 1 }
  | .type _ .struct _ => { c with structs := c.structs + 1 }
  | .type _ .interface _ => { c with interfaces := c.interfaces + 1 }
  | .type _ .other _ => { c with otherTypes := c.otherTypes + 1 }
  | .value _ => c

end Item

namespace Extraction

def ofUnit (path : String) (unit : SourceUnit) (module : Option String) : Option Extraction :=
  match unit.package with
  | none => none
  | some name =>
    if name = "" then none
    else
      let dir := Path.unitDir path
      some
        { package := ⟨Path.package module dir, name⟩
          dir := dir
          declarations := unit.items.filterMap (Item.candidate? path)
          counts :=
            unit.items.foldl Item.count { lines := unit.lineCount, isTest := isTestPath path } }

def registerOne (package : Nat) (state : Registry × Registration) (c : Candidate) :
    Registry × Registration :=
  let (r, done) := state
  match r.insert package c with
  | (r, .inserted _) => (r, { done with inserted := done.inserted + 1 })
  | (r, .duplicate _) => (r, { done with duplicates := done.duplicates + 1 })
  | (r, .unknownPackage) => (r, done)

def register (r : Registry) (e : Extraction) : Registry × Registration :=
  let (r, package) := r.register e.package e.dir
  e.declarations.foldl (registerOne package) (r, {})

end Extraction

end CallAtlas
