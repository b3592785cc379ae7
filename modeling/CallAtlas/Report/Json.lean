/-!
JSON values, and their text with two blanks for each level.
-/

namespace CallAtlas

inductive Json where
  | text (value : String)
  | number (value : Nat)
  | array (items : List Json)
  | object (fields : List (String × Json))

namespace Json

def hexDigit (n : Nat) : Char := (Nat.digitChar (n % 16))

def escapeChar (c : Char) : List Char :=
  if c == '"' then ['\\', '"']
  else if c == '\\' then ['\\', '\\']
  else if c == '\x08' then ['\\', 'b']
  else if c == '\t' then ['\\', 't']
  else if c == '\n' then ['\\', 'n']
  else if c == '\x0c' then ['\\', 'f']
  else if c == '\r' then ['\\', 'r']
  else if c.toNat < 0x20 then
    ['\\', 'u', '0', '0', hexDigit (c.toNat / 16), hexDigit c.toNat]
  else [c]

def quote (s : String) : String :=
  "\"" ++ String.ofList (s.toList.flatMap escapeChar) ++ "\""

def bracketed (opening closing margin : String) (lines : List String) : String :=
  if lines.isEmpty then opening ++ closing
  else
    opening ++ "\n" ++ String.intercalate ",\n" (lines.map (margin ++ "  " ++ ·)) ++ "\n" ++
      margin ++ closing

mutual

def render (margin : String) : Json → String
  | text s => quote s
  | number n => n.repr
  | array items => bracketed "[" "]" margin (renderItems (margin ++ "  ") items)
  | object fields => bracketed "\x7b" "\x7d" margin (renderFields (margin ++ "  ") fields)

def renderItems (margin : String) : List Json → List String
  | [] => []
  | j :: js => j.render margin :: renderItems margin js

def renderFields (margin : String) : List (String × Json) → List String
  | [] => []
  | (key, j) :: fields => (quote key ++ ": " ++ j.render margin) :: renderFields margin fields

end

def pretty (j : Json) : String := j.render ""

end Json

end CallAtlas
