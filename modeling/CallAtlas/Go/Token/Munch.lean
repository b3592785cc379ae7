import CallAtlas.Text.Letter
import CallAtlas.Go.Token

/-!
The longest lexeme at the head of a text, by the number of characters it takes.
-/

namespace CallAtlas.Go.Munch

open CallAtlas.Text

/-- How many characters at the head of a text have a shape, if any do. -/
abbrev Matcher := List Char → Option Nat

def one (p : Char → Bool) : Matcher
  | [] => none
  | c :: _ => if p c then some 1 else none

def oneOf (set : List Char) : Matcher := one set.contains

def optional (m : Matcher) : Matcher := fun text => some ((m text).getD 0)

def andThen (m n : Matcher) : Matcher := fun text => do
  let i ← m text
  let j ← n (text.drop i)
  return i + j

def inOrder : List Matcher → Matcher
  | [] => fun _ => some 0
  | m :: ms => andThen m (inOrder ms)

def longest (ms : List Matcher) : Matcher := fun text =>
  (ms.filterMap (· text)).max?

/-- Digits behind a first digit, single underscores between them allowed. -/
def moreDigits (p : Char → Bool) : List Char → Nat
  | '_' :: c :: cs => if p c then 2 + moreDigits p cs else 0
  | c :: cs => if p c then 1 + moreDigits p cs else 0
  | [] => 0

def digits (p : Char → Bool) : Matcher
  | [] => none
  | c :: cs => if p c then some (1 + moreDigits p cs) else none

def isHex (c : Char) : Bool :=
  c.isDigit || ('a' ≤ c && c ≤ 'f') || ('A' ≤ c && c ≤ 'F')

def isOctal (c : Char) : Bool := '0' ≤ c && c ≤ '7'

def isBinary (c : Char) : Bool := c == '0' || c == '1'

def underscore : Matcher := optional (oneOf ['_'])

def decimal : Matcher := digits Char.isDigit

def whole : Matcher :=
  longest
    [oneOf ['0'],
     inOrder [one fun c => '1' ≤ c && c ≤ '9', optional (andThen underscore decimal)],
     inOrder [oneOf ['0'], oneOf ['b', 'B'], underscore, digits isBinary],
     inOrder [oneOf ['0'], optional (oneOf ['o', 'O']), underscore, digits isOctal],
     inOrder [oneOf ['0'], oneOf ['x', 'X'], underscore, digits isHex]]

def exponent (letters : List Char) : Matcher :=
  inOrder [oneOf letters, optional (oneOf ['+', '-']), decimal]

def decimalFraction : Matcher :=
  longest
    [inOrder [decimal, oneOf ['.'], optional decimal, optional (exponent ['e', 'E'])],
     inOrder [decimal, exponent ['e', 'E']],
     inOrder [oneOf ['.'], decimal, optional (exponent ['e', 'E'])]]

def hexFraction : Matcher :=
  inOrder
    [oneOf ['0'], oneOf ['x', 'X'],
     longest
      [inOrder [underscore, digits isHex, oneOf ['.'], optional (digits isHex)],
       inOrder [underscore, digits isHex],
       inOrder [oneOf ['.'], digits isHex]],
     exponent ['p', 'P']]

def number : Matcher :=
  let real := longest [decimal, whole, decimalFraction, hexFraction]
  longest [whole, decimalFraction, hexFraction, andThen real (oneOf ['i'])]

/-- The rest of a character literal behind its first quote. -/
def character : Matcher
  | '\\' :: 'x' :: a :: b :: '\'' :: _ => if [a, b].all isHex then some 5 else none
  | '\\' :: 'u' :: a :: b :: c :: d :: '\'' :: _ => if [a, b, c, d].all isHex then some 7 else none
  | '\\' :: 'U' :: a :: b :: c :: d :: e :: f :: g :: h :: '\'' :: _ =>
    if [a, b, c, d, e, f, g, h].all isHex then some 11 else none
  | '\\' :: a :: b :: c :: '\'' :: _ => if [a, b, c].all isOctal then some 5 else none
  | '\\' :: c :: '\'' :: _ =>
    if ['a', 'b', 'f', 'n', 'r', 't', 'v', '\\', '\'', '"'].contains c then some 3 else none
  | c :: '\'' :: _ => if ['\'', '\\', '\n'].contains c then none else some 2
  | _ => none

def escaped : Matcher
  | '"' :: _ => some 1
  | '\n' :: _ => none
  | '\\' :: 'x' :: a :: b :: cs => if [a, b].all isHex then (escaped cs).map (· + 4) else none
  | '\\' :: 'u' :: a :: b :: c :: d :: cs =>
    if [a, b, c, d].all isHex then (escaped cs).map (· + 6) else none
  | '\\' :: 'U' :: a :: b :: c :: d :: e :: f :: g :: h :: cs =>
    if [a, b, c, d, e, f, g, h].all isHex then (escaped cs).map (· + 10) else none
  | '\\' :: c :: cs =>
    if ['x', 'u', 'U', '\n'].contains c then none else (escaped cs).map (· + 2)
  | _ :: cs => (escaped cs).map (· + 1)
  | [] => none

def raw : Matcher
  | '\x60' :: _ => some 1
  | _ :: cs => (raw cs).map (· + 1)
  | [] => none

/-- The rest of a comment behind the mark that opens it. -/
def blockComment : Matcher
  | '*' :: '/' :: _ => some 2
  | _ :: cs => (blockComment cs).map (· + 1)
  | [] => none

def lineComment (text : List Char) : Nat := (text.takeWhile (· != '\n')).length

def markAt (text : List Char) : Option String :=
  Lexeme.marks.find? fun m => m.toList.isPrefixOf text

/-- The lexeme at `c :: cs`, or `none` for a comment, with the number of characters of `cs` it takes. -/
def lexeme (c : Char) (cs : List Char) : Option (Option Lexeme × Nat) :=
  let spelled (n : Nat) := String.ofList (c :: cs.take n)
  match c, cs with
  | '/', '/' :: rest => some (none, 1 + lineComment rest)
  | '/', '*' :: rest => (blockComment rest).map fun n => (none, 1 + n)
  | '"', _ => (escaped cs).map fun n => (some (.quoted (spelled n)), n)
  | '\x60', _ => (raw cs).map fun n => (some (.quoted (spelled n)), n)
  | '\'', _ => (character cs).map fun n => (some .constant, n)
  | _, _ =>
    if isIdentifierStart c then
      let n := (cs.takeWhile isIdentifierPart).length
      some (some (.ofWord (spelled n)), n)
    else
      match number (c :: cs) with
      | some n => some (some .constant, n - 1)
      | none => (markAt (c :: cs)).map fun m => (some (.mark m), m.length - 1)

end CallAtlas.Go.Munch
