import CallAtlas.Text.Basic

/-!
The module path in a `go.mod` file.
-/

namespace CallAtlas.GoMod

def moduleOfLine? (line : List Char) : Option String :=
  let line := Text.strip Text.isBlank line
  if "module".toList.isPrefixOf line then
    match line.drop "module".length with
    | [] => none
    | c :: rest =>
      if Text.isBlank c then
        let path := Text.strip (· == '"') (Text.strip Text.isBlank (Text.before "//".toList (c :: rest)))
        if path.isEmpty then none else some (String.ofList path)
      else none
  else none

def modulePath? (text : String) : Option String :=
  (Text.pieces (· == '\n') text.toList).findSome? moduleOfLine?

end CallAtlas.GoMod
