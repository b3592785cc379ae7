import CallAtlas.Text.Basic

/-!
Packages and the keys of the symbols declared in them.
-/

namespace CallAtlas

/-- A package, by its import path and its short name. A directory may hold two: `p` and `p_test`. -/
structure PackageKey where
  path : String
  name : String
  deriving DecidableEq

namespace PackageKey

def text (p : PackageKey) : String := p.path ++ ":" ++ p.name

def isExternalTest (p : PackageKey) : Bool := Text.endsWith p.name "_test"

end PackageKey

structure SymbolKey where
  package : PackageKey
  receiver : Option String
  name : String
  deriving DecidableEq

namespace SymbolKey

def function (package : PackageKey) (name : String) : SymbolKey := ⟨package, none, name⟩

def method (package : PackageKey) (receiver name : String) : SymbolKey :=
  ⟨package, some receiver, name⟩

def localName (k : SymbolKey) : String :=
  match k.receiver with
  | none => k.name
  | some r => r ++ "." ++ k.name

/-- The full name: `path:pkg:Name` or `path:pkg:Recv.Name`. -/
def text (k : SymbolKey) : String := k.package.text ++ ":" ++ k.localName

end SymbolKey

inductive SymbolKind where
  | function
  | method
  | struct
  | interface
  | type
  deriving DecidableEq

namespace SymbolKind

def isCallable : SymbolKind → Bool
  | .function | .method => true
  | .struct | .interface | .type => false

def word : SymbolKind → String
  | .function => "function"
  | .method => "method"
  | .struct => "struct"
  | .interface => "interface"
  | .type => "type"

end SymbolKind

end CallAtlas
