import CallAtlas.Disk
import CallAtlas.Report.Format
import CallAtlas.Toml.Document

/-!
The settings of a run, and the file they are read from.
-/

namespace CallAtlas

structure Settings where
  skippedDirs : List String := [".git", "vendor"]
  includesTests : Bool := true
  limit : Option Nat := none
  jobs : Option Nat := none
  format : Option Format := none
  deriving DecidableEq

def workerCount (jobs : Nat) : Nat := max jobs 1

namespace Settings

def fileName : String := "gomap.toml"

def string? : Toml → Option String
  | .string s => some s
  | _ => none

def strings? : Toml → Option (List String)
  | .array items => items.mapM string?
  | _ => none

def boolean? : Toml → Option Bool
  | .boolean b => some b
  | _ => none

def natural? : Toml → Option Nat
  | .integer n => if 0 ≤ n then some n.toNat else none
  | _ => none

def isEmpty : Toml → Bool
  | .array [] | .table _ [] => true
  | _ => false

/-- A format is given by its word, or by a table with nothing but an empty value under it. -/
def format? : Toml → Option Format
  | .string word => Format.ofWord? word
  | .table _ [(word, v)] => if isEmpty v then Format.ofWord? word else none
  | _ => none

def field {α : Type} (entries : Toml.Entries) (key : String) (read : Toml → Option α) (default : α) :
    Option α :=
  match entries.get? key with
  | some v => read v
  | none => some default

/-- The settings in a document. Other keys have no meaning; a value of the wrong type is refused. -/
def ofToml? (entries : Toml.Entries) : Option Settings := do
  let standard : Settings := {}
  return {
    skippedDirs := ← field entries "skip_dirs" strings? standard.skippedDirs
    includesTests := ← field entries "include_tests" boolean? standard.includesTests
    limit := ← field entries "most_called_limit" (fun v => (natural? v).map some) standard.limit
    jobs := ← field entries "jobs" (fun v => (natural? v).map some) standard.jobs
    format := ← field entries "format" (fun v => (format? v).map some) standard.format }

def parse? (text : String) : Option Settings := (Toml.parse? text).bind ofToml?

variable {m : Type → Type} [Monad m]

def load (disk : Disk m) (path : String) : ExceptT RunError m Settings := do
  match ← disk.read path with
  | .error _ => throw (.unreadableSettings path)
  | .ok text =>
    match parse? text with
    | some s => return s
    | none => throw (.invalidSettings path)

def discover (disk : Disk m) (named : Option String) (project : String) : ExceptT RunError m Settings := do
  match named with
  | some path => load disk path
  | none =>
    let path := Path.join project fileName
    if ← disk.isFile path then load disk path else return {}

end Settings

end CallAtlas
