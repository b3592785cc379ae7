import CallAtlas.Bindings
import CallAtlas.Symbol

/-!
The table of the packages and declarations of one analysis. Both are numbered in the order in which they
are first seen, and what is seen first under a key keeps it.
-/

namespace CallAtlas

structure Package where
  id : Nat
  key : PackageKey
  dir : String
  declarations : List Nat

def Package.withDeclaration (id : Nat) (p : Package) : Package :=
  { p with declarations := p.declarations ++ [id] }

structure Candidate where
  name : String
  receiver : Option String
  kind : SymbolKind
  file : String
  line : Nat
  deriving DecidableEq

def Candidate.key (package : PackageKey) (c : Candidate) : SymbolKey := ⟨package, c.receiver, c.name⟩

structure Declaration where
  id : Nat
  key : SymbolKey
  kind : SymbolKind
  package : Nat
  file : String
  line : Nat
  calls : List Nat
  calledBy : List Nat
  /-- How many calls reach it, repeated ones counted. -/
  callSites : Nat

structure Registry where
  packages : List Package
  declarations : List Declaration
  packageIds : Bindings PackageKey Nat
  owners : Bindings String Nat
  declarationIds : Bindings SymbolKey Nat

inductive Insertion where
  | inserted (id : Nat)
  | duplicate (id : Nat)
  | unknownPackage
  deriving DecidableEq

namespace Registry

def empty : Registry := ⟨[], [], .empty, .empty, .empty⟩

def package? (r : Registry) (id : Nat) : Option Package := r.packages[id]?

def declaration? (r : Registry) (id : Nat) : Option Declaration := r.declarations[id]?

def declarationId? (r : Registry) (key : SymbolKey) : Option Nat := r.declarationIds.get? key

def lookup (r : Registry) (key : SymbolKey) : Option Declaration :=
  (r.declarationId? key).bind r.declaration?

def contains (r : Registry) (key : SymbolKey) : Bool := (r.declarationId? key).isSome

def ownerId? (r : Registry) (path : String) : Option Nat := r.owners.get? path

/-- The package at a path: the first regular one, or else the first external test package. -/
def owner? (r : Registry) (path : String) : Option Package :=
  (r.ownerId? path).bind r.package?

/-- An external test package gives its path up to the first regular package that comes to it. -/
def takesPath (r : Registry) (key : PackageKey) : Bool :=
  match r.owner? key.path with
  | none => true
  | some owner => owner.key.isExternalTest && !key.isExternalTest

def addPackage (r : Registry) (key : PackageKey) (dir : String) : Registry :=
  let id := r.packages.length
  { r with
    packages := r.packages ++ [⟨id, key, dir, []⟩]
    packageIds := r.packageIds.insert key id
    owners := if r.takesPath key then r.owners.insert key.path id else r.owners }

def register (r : Registry) (key : PackageKey) (dir : String) : Registry × Nat :=
  match r.packageIds.get? key with
  | some id => (r, id)
  | none => (r.addPackage key dir, r.packages.length)

def addDeclaration (r : Registry) (package : Nat) (key : SymbolKey) (c : Candidate) : Registry :=
  let id := r.declarations.length
  { r with
    packages := r.packages.modify package (Package.withDeclaration id)
    declarations := r.declarations ++ [⟨id, key, c.kind, package, c.file, c.line, [], [], 0⟩]
    declarationIds := r.declarationIds.insert key id }

def insert (r : Registry) (package : Nat) (c : Candidate) : Registry × Insertion :=
  match r.package? package with
  | none => (r, .unknownPackage)
  | some p =>
    match r.declarationId? (c.key p.key) with
    | some id => (r, .duplicate id)
    | none => (r.addDeclaration package (c.key p.key) c, .inserted r.declarations.length)

def modifyDeclaration (r : Registry) (id : Nat) (f : Declaration → Declaration) : Registry :=
  { r with declarations := r.declarations.modify id f }

end Registry

end CallAtlas
