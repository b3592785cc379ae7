import CallAtlas.Bindings
import CallAtlas.Path
import CallAtlas.Unit

/-!
The names that the imports of a unit bind to import paths.
-/

namespace CallAtlas

/-- The name that an import binds: its own name, or the last segment of its path. A dot, a blank or an empty
name binds nothing. -/
def Import.bound? (i : Import) : Option String :=
  let name :=
    match i.name with
    | some (.named text) => text
    | some .dot | some .blank => ""
    | none => Path.lastSegment i.path
  if name = "" then none else some name

abbrev ImportMap := Bindings String String

namespace ImportMap

def ofImports (imports : List Import) : ImportMap :=
  imports.foldl (fun m i =>
    match i.bound? with
    | some name => m.insert name i.path
    | none => m) .empty

end ImportMap

end CallAtlas
