import CallAtlas.Parser
import CallAtlas.Toml

/-!
Keys, strings, numbers and dates of TOML.
-/

namespace CallAtlas.Toml

open CallAtlas.Parser

abbrev Reader := Parser Char

def isNext (c : Char) : Reader Bool := return (← next?) == some c

def char (c : Char) : Reader Unit := do
  require (← isNext c)
  skip

def accept (c : Char) : Reader Bool := do
  if ← isNext c then
    skip
    return true
  else
    return false

def literal (text : String) : Reader Unit := text.toList.forM char

def goesOn (text : String) : Reader Bool := fun s => .ok (text.toList.isPrefixOf s.rest, s)

def oneOf (p : Char → Bool) : Reader Char := do
  match ← next? with
  | some c =>
    require (p c)
    skip
    return c
  | none => refuse

def many (p : Char → Bool) : Reader (List Char) := do
  let found ← loop (fun found => do
    match ← next? with
    | some c =>
      if p c then
        skip
        return some (c :: found)
      else
        return none
    | none => return none) []
  return found.reverse

def isBlank (c : Char) : Bool := c == ' ' || c == '\t'

def blanks : Reader Unit := do
  let _ ← many isBlank

def newline : Reader Unit := do
  let _ ← accept '\r'
  char '\n'

def isNewline : Reader Bool := return (← isNext '\n') || (← goesOn "\r\n")

/-- What may stand in a comment: no control character but the tab. -/
def isPlain (c : Char) : Bool := c == '\t' || (0x20 ≤ c.toNat && c.toNat != 0x7F)

def comment : Reader Unit := do
  if ← accept '#' then
    let _ ← many isPlain

def filler : Reader Unit :=
  loop (fun _ => do
    blanks
    if ← isNext '#' then
      comment
      return some ()
    else if ← isNewline then
      newline
      return some ()
    else
      return none) ()

def isHex (c : Char) : Bool :=
  c.isDigit || ('a' ≤ c && c ≤ 'f') || ('A' ≤ c && c ≤ 'F')

def digitValue (c : Char) : Nat :=
  if c.isDigit then c.toNat - '0'.toNat else c.toLower.toNat - 'a'.toNat + 10

def valueOf (base : Nat) (digits : List Char) : Nat :=
  digits.foldl (fun n c => n * base + digitValue c) 0

def exactly (n : Nat) (p : Char → Bool) : Reader (List Char) :=
  (List.replicate n ()).mapM fun _ => oneOf p

def codePoint (digits : Nat) : Reader Char := do
  let n := valueOf 16 (← exactly digits isHex)
  require (n < 0xD800 || (0xDFFF < n && n < 0x110000))
  return Char.ofNat n

def escape : Reader Char := do
  match ← oneOf (fun _ => true) with
  | 'b' => return '\x08'
  | 't' => return '\t'
  | 'n' => return '\n'
  | 'f' => return '\x0c'
  | 'r' => return '\r'
  | '"' => return '"'
  | '\\' => return '\\'
  | 'u' => codePoint 4
  | 'U' => codePoint 8
  | _ => refuse

def basicString : Reader (List Char) := do
  char '"'
  let found ← loop (fun found => do
    match ← next? with
    | none | some '"' => return none
    | some '\\' =>
      skip
      return some ((← escape) :: found)
    | some c =>
      require (isPlain c)
      skip
      return some (c :: found)) []
  char '"'
  return found.reverse

def literalString : Reader (List Char) := do
  char '\''
  let found ← many fun c => isPlain c && c != '\''
  char '\''
  return found

def lineContinuation : Reader Unit := do
  blanks
  newline
  loop (fun _ => do
    if (← isNext ' ') || (← isNext '\t') then
      blanks
      return some ()
    else if ← isNewline then
      newline
      return some ()
    else
      return none) ()

/-- A string in triple quotes. A line end right behind the opening quotes is left out, and up to two more
quotes may stand before the closing ones. -/
def multiline (quote : Char) (escapes : Bool) : Reader (List Char) := do
  let _ ← exactly 3 (· == quote)
  if ← isNewline then
    newline
  let found ← loop (fun found => do
    match ← next? with
    | none => return none
    | some c =>
      if ← goesOn (String.ofList [quote, quote, quote]) then
        return none
      else if c == '\\' && escapes then
        skip
        if (← isNext ' ') || (← isNext '\t') || (← isNewline) then
          lineContinuation
          return some found
        else
          return some ((← escape) :: found)
      else if ← isNewline then
        newline
        return some ('\n' :: found)
      else
        require (isPlain c)
        skip
        return some (c :: found)) []
  let closing ← many (· == quote)
  require (3 ≤ closing.length && closing.length ≤ 5)
  return found.reverse ++ closing.drop 3

def stringValue : Reader String := do
  if ← goesOn "\"\"\"" then
    return String.ofList (← multiline '"' true)
  else if ← isNext '"' then
    return String.ofList (← basicString)
  else if ← goesOn "'''" then
    return String.ofList (← multiline '\'' false)
  else
    return String.ofList (← literalString)

def isBareKey (c : Char) : Bool := c.isAlphanum || c == '_' || c == '-'

def simpleKey : Reader String := do
  if ← isNext '"' then
    return String.ofList (← basicString)
  else if ← isNext '\'' then
    return String.ofList (← literalString)
  else
    let found ← many isBareKey
    require !found.isEmpty
    return String.ofList found

def dottedKey : Reader (List String × String) := do
  blanks
  let first ← simpleKey
  blanks
  let (path, last) ← loop (fun (path, last) => do
    if ← accept '.' then
      blanks
      let key ← simpleKey
      blanks
      return some (last :: path, key)
    else
      return none) (([] : List String), first)
  return (path.reverse, last)

def digits (p : Char → Bool) : Reader (List Char) := do
  let first ← oneOf p
  let rest ← loop (fun found => do
    match ← next?, ← ahead? 1 with
    | some '_', some c =>
      require (p c)
      skip
      skip
      return some (c :: found)
    | some c, _ =>
      require (c != '_')
      if p c then
        skip
        return some (c :: found)
      else
        return none
    | none, _ => return none) []
  return first :: rest.reverse

def sign : Reader Bool := do
  if ← accept '-' then
    return true
  else
    let _ ← accept '+'
    return false

def decimal : Reader (Bool × List Char) := do
  let isNegative ← sign
  if ← accept '0' then
    return (isNegative, ['0'])
  else
    return (isNegative, ← digits Char.isDigit)

def based (mark : Char) (base : Nat) (p : Char → Bool) : Reader Int := do
  char '0'
  char mark
  return valueOf base (← digits p)

def integerValue : Reader Toml := do
  let n : Int ←
    either (based 'x' 16 isHex) <|
    either (based 'o' 8 fun c => '0' ≤ c && c ≤ '7') <|
    either (based 'b' 2 fun c => c == '0' || c == '1') do
      let (isNegative, found) ← decimal
      let n : Int := valueOf 10 found
      return if isNegative then -n else n
  require (-9223372036854775808 ≤ n && n ≤ 9223372036854775807)
  return .integer n

def exponent : Reader Int := do
  let _ ← oneOf fun c => c == 'e' || c == 'E'
  let isNegative ← sign
  let n : Int := valueOf 10 (← digits Char.isDigit)
  return if isNegative then -n else n

/-- Whether a decimal number rounds to more than the greatest double. -/
def overflows (mantissa : List Char) (exponent : Int) : Bool :=
  let significant := mantissa.dropWhile (· == '0')
  let magnitude : Int := significant.length + exponent
  if significant.isEmpty || magnitude ≤ 308 then false
  else if 309 < magnitude then true
  else
    let greatest : Nat := Nat.pow 2 1024 - Nat.pow 2 970
    let m := valueOf 10 significant
    if 0 ≤ exponent then greatest ≤ m * Nat.pow 10 exponent.toNat
    else greatest * Nat.pow 10 (-exponent).toNat ≤ m

def floatValue : Reader Toml := do
  let (isNegative, whole) ← decimal
  let fraction ← if ← accept '.' then pure (some (← digits Char.isDigit)) else pure none
  let hasExponent := (← isNext 'e') || (← isNext 'E')
  require (fraction.isSome || hasExponent)
  let e ← if hasExponent then exponent else pure 0
  let places := fraction.getD []
  require (isNegative || !overflows (whole ++ places) (e - places.length))
  return .float

def specialFloat : Reader Toml := do
  let _ ← sign
  either (literal "inf") (literal "nan")
  return .float

def bounded (n low high : Nat) : Reader Nat := do
  let value := valueOf 10 (← exactly n Char.isDigit)
  require (low ≤ value && value ≤ high)
  return value

def isLeapYear (year : Nat) : Bool := year % 4 == 0 && (year % 100 != 0 || year % 400 == 0)

def daysIn (year month : Nat) : Nat :=
  if month == 2 then if isLeapYear year then 29 else 28
  else if [4, 6, 9, 11].contains month then 30
  else 31

def date : Reader Unit := do
  let year ← bounded 4 0 9999
  char '-'
  let month ← bounded 2 1 12
  char '-'
  let _ ← bounded 2 1 (daysIn year month)

def time : Reader Unit := do
  let _ ← bounded 2 0 23
  char ':'
  let _ ← bounded 2 0 59
  char ':'
  let _ ← bounded 2 0 60
  if ← accept '.' then
    require !(← many Char.isDigit).isEmpty

def offset : Reader Unit := do
  match ← next? with
  | some 'Z' | some 'z' => skip
  | some '+' | some '-' =>
    skip
    let _ ← bounded 2 0 23
    char ':'
    let _ ← bounded 2 0 59
  | _ => pure ()

def datetimeValue : Reader Toml := do
  either
    (do
      date
      either
        (do
          let _ ← oneOf fun c => c == 'T' || c == 't' || c == ' '
          time
          offset)
        (pure ()))
    time
  return .datetime

def scalar : Reader Toml := do
  match ← next? with
  | some '"' | some '\'' => return .string (← stringValue)
  | some 't' =>
    literal "true"
    return .boolean true
  | some 'f' =>
    literal "false"
    return .boolean false
  | _ => either datetimeValue (either floatValue (either specialFloat integerValue))

end CallAtlas.Toml
