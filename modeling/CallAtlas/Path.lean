/-!
Paths of units and packages.
-/

namespace CallAtlas.Path

def behindLast (c : Char) (text : List Char) : List Char :=
  (text.reverse.takeWhile (· != c)).reverse

def beforeLast? (c : Char) (text : List Char) : Option (List Char) :=
  match text.reverse.dropWhile (· != c) with
  | [] => none
  | _ :: rest => some rest.reverse

def lastSegment (path : String) : String :=
  String.ofList (behindLast '/' path.toList)

def slashed (text : List Char) : List Char :=
  text.map fun c => if c == '\\' then '/' else c

def dropHere : List Char → List Char
  | '.' :: '/' :: rest => dropHere rest
  | text => text

/-- The directory of a unit, with slashes between its parts. -/
def unitDir (path : String) : String :=
  match beforeLast? '/' (slashed path.toList) with
  | none | some [] => "."
  | some dir => String.ofList (dropHere dir)

def package (module : Option String) (dir : String) : String :=
  match module with
  | none => dir
  | some m => if dir = "." then m else m ++ "/" ++ dir

end CallAtlas.Path
