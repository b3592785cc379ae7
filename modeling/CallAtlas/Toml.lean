/-!
TOML documents: values, and the rules on which keys and tables may be added to a table.
-/

namespace CallAtlas

namespace Toml

/-- Where a table comes from. Only a table that a header or a dotted key has implied can still grow from
elsewhere. -/
inductive Origin where
  | header
  | implied
  | dotted
  | inline
  deriving DecidableEq

def Origin.isImplicit : Origin → Bool
  | .implied | .dotted => true
  | .header | .inline => false

end Toml

inductive Toml where
  | string (value : String)
  | integer (value : Int)
  | float
  | boolean (value : Bool)
  | datetime
  | array (items : List Toml)
  | table (origin : Toml.Origin) (entries : List (String × Toml))
  | tables (items : List (List (String × Toml)))

namespace Toml

abbrev Entries := List (String × Toml)

def Entries.get? (entries : Entries) (key : String) : Option Toml :=
  (entries.find? (·.1 == key)).map Prod.snd

def Entries.set (key : String) (value : Toml) : Entries → Entries
  | [] => [(key, value)]
  | (k, v) :: rest => if k == key then (k, value) :: rest else (k, v) :: set key value rest

/-- Changes the table at a path below `entries`. Tables that are missing on the way are made; with `viaDots`
the way must not lead through a table that has a header of its own. A path through an array of tables leads
to the last of them. -/
def descend (viaDots : Bool) (change : Origin → Entries → Option Entries) (origin : Origin) :
    List String → Entries → Option Entries
  | [], entries => change origin entries
  | key :: path, entries =>
    match entries.get? key with
    | none =>
      let fresh := if viaDots then Origin.dotted else .implied
      (descend viaDots change fresh path []).map fun inner =>
        entries.set key (.table fresh inner)
    | some (.table o inner) =>
      if o == .inline || (viaDots && !o.isImplicit) then none
      else (descend viaDots change o path inner).map fun inner => entries.set key (.table o inner)
    | some (.tables items) =>
      match items.getLast? with
      | none => none
      | some last =>
        (descend viaDots change .header path last).map fun inner =>
          entries.set key (.tables (items.dropLast ++ [inner]))
    | some _ => none

/-- Adds a value under a new key. Behind a dotted key, only to a table that such a key has made. -/
def addValue (hasDots : Bool) (key : String) (value : Toml) (origin : Origin) (entries : Entries) :
    Option Entries :=
  if (origin == .dotted) != hasDots then none
  else if (entries.get? key).isSome then none
  else some (entries.set key value)

def insert (path : List String) (key : String) (value : Toml) (origin : Origin) (entries : Entries) :
    Option Entries :=
  descend true (addValue (!path.isEmpty) key value) origin path entries

def openTable (key : String) (_ : Origin) (entries : Entries) : Option Entries :=
  match entries.get? key with
  | none => some (entries.set key (.table .header []))
  | some (.table .implied inner) => some (entries.set key (.table .header inner))
  | some _ => none

def openElement (key : String) (_ : Origin) (entries : Entries) : Option Entries :=
  match entries.get? key with
  | none => some (entries.set key (.tables [[]]))
  | some (.tables items) => some (entries.set key (.tables (items ++ [[]])))
  | some _ => none

end Toml

end CallAtlas
