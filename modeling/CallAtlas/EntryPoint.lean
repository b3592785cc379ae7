import CallAtlas.Registry

/-!
Where programs start: the function `main` of a package `main`.
-/

namespace CallAtlas

structure EntryPoint where
  packagePath : String
  dir : String
  file : String
  line : Nat
  deriving DecidableEq

namespace EntryPoint

def ofPackage? (r : Registry) (p : Package) : Option EntryPoint :=
  if p.key.name = "main" then
    match r.lookup (.function p.key "main") with
    | some d => if d.kind = .function then some ⟨p.key.path, p.dir, d.file, d.line⟩ else none
    | none => none
  else none

def all (r : Registry) : List EntryPoint := r.packages.filterMap (ofPackage? r)

end EntryPoint

end CallAtlas
