import CallAtlas.Toml.Scalar

/-!
TOML documents as texts.
-/

namespace CallAtlas.Toml

open CallAtlas.Parser

/-- A key may have fewer parts than this, and a value may be nested less deep. -/
def depthLimit : Nat := 80

def boundedKey : Reader (List String × String) := do
  let (path, key) ← dottedKey
  require (path.length + 1 < depthLimit)
  return (path, key)

def arrayOf (item : Reader Toml) : Reader Toml := do
  char '['
  filler
  let (found, _) ← loop (fun (found, more) => do
    if !more || (← isNext ']') then
      return none
    else
      let v ← item
      filler
      let more ← accept ','
      filler
      return some (v :: found, more)) (([] : List Toml), true)
  char ']'
  return .array found.reverse

def keyValue (item : Reader Toml) : Reader (List String × String × Toml) := do
  let (path, key) ← boundedKey
  char '='
  blanks
  return (path, key, ← item)

def orRefuse {α : Type} : Option α → Reader α
  | some a => pure a
  | none => refuse

/-- A table on one line. There is no comma behind its last entry. -/
def inlineTableOf (item : Reader Toml) : Reader Toml := do
  let entry (entries : Entries) : Reader Entries := do
    let (path, key, v) ← keyValue item
    blanks
    orRefuse (insert path key v .inline entries)
  char '\x7b'
  blanks
  if ← accept '\x7d' then
    return .table .inline []
  else
    let first ← entry []
    let entries ← loop (fun entries => do
      if ← accept ',' then
        return some (← entry entries)
      else
        return none) first
    char '\x7d'
    return .table .inline entries

def value : Nat → Reader Toml
  | 0 => scalar
  | depth + 1 => do
    match ← next? with
    | some '[' => arrayOf (value depth)
    | some '\x7b' => inlineTableOf (value depth)
    | _ => scalar

structure Progress where
  entries : Entries
  header : List String

def header (p : Progress) : Reader Progress := do
  char '['
  let isElement ← accept '['
  let (path, key) ← boundedKey
  char ']'
  if isElement then
    char ']'
  let entries ← orRefuse <|
    descend false (if isElement then openElement key else openTable key) .header path p.entries
  return ⟨entries, path ++ [key]⟩

def entry (p : Progress) : Reader Progress := do
  let (path, key, v) ← keyValue (value (depthLimit - 1))
  let entries ← orRefuse (descend false (insert path key v) .header p.header p.entries)
  return { p with entries := entries }

def line (p : Progress) : Reader Progress := do
  blanks
  let p ←
    if (← isNext '#') || (← isNewline) || (← isEnd) then pure p
    else if ← isNext '[' then header p
    else entry p
  blanks
  comment
  if !(← isEnd) then
    newline
  return p

def document : Reader Entries := do
  let _ ← accept '\uFEFF'
  let p ← loop (fun p => do
    if ← isEnd then
      return none
    else
      return some (← line p)) ⟨[], []⟩
  return p.entries

def parse? (text : String) : Option Entries :=
  match document (.ofList text.toList) with
  | .ok (entries, _) => some entries
  | .error _ => none

end CallAtlas.Toml
