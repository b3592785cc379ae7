import CallAtlas.RunError

/-!
The access to files that a run needs.
-/

namespace CallAtlas

/-- The names in a directory. Links are files. -/
inductive Entry where
  | file (name : String)
  | directory (name : String) (entries : List Entry)

structure Listing where
  /-- The name of the directory itself, unless it is the root of all. -/
  name : Option String
  entries : List Entry

structure Disk (m : Type → Type) where
  isFile : String → m Bool
  read : String → m (Except Fault String)
  list? : String → m (Option Listing)
  write : String → String → m (Except Fault Unit)

def Path.join (dir name : String) : String :=
  match dir.toList.getLast? with
  | none | some '/' => dir ++ name
  | some _ => dir ++ "/" ++ name

end CallAtlas
