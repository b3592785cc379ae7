import CallAtlas.Go.Token.Munch

/-!
A source text as a list of tokens. A line end behind a lexeme that may end a statement is read as a
semicolon, and so is the end of the text.
-/

namespace CallAtlas.Go

def Place.start : Place := ⟨1, 1⟩

def Place.next (place : Place) (c : Char) : Place :=
  if c == '\n' then ⟨place.line + 1, 1⟩ else ⟨place.line, place.column + c.utf8Size⟩

def isSpace (c : Char) : Bool :=
  [' ', '\t', '\r', '\x0b', '\x0c'].contains c

namespace Token

/-- What is known between two lexemes: the place, the comments since the last lexeme, and whether that
lexeme may end a statement. The tokens read so far are in reverse. -/
structure Progress where
  place : Place
  comments : Nat
  ends : Bool
  tokens : List Token

namespace Progress

def start : Progress := ⟨.start, 0, false, []⟩

def push (p : Progress) (lexeme : Lexeme) : Progress :=
  { p with
    comments := 0
    ends := lexeme.endsStatement
    tokens := ⟨lexeme, p.place, p.comments⟩ :: p.tokens }

def advance (p : Progress) (text : List Char) : Progress :=
  { p with place := text.foldl Place.next p.place }

/-- A semicolon where a line end stands for one. -/
def endLine (p : Progress) : Progress :=
  if p.ends then p.push (.mark ";") else p

def comment (p : Progress) (text : List Char) : Progress :=
  let p := if text.contains '\n' then p.endLine else p
  { p with comments := p.comments + 1 }

end Progress

def scanFrom (p : Progress) : List Char → Except Place (List Token)
  | [] => .ok p.endLine.tokens.reverse
  | c :: cs =>
    if c == '\n' then scanFrom (p.endLine.advance [c]) cs
    else if isSpace c then scanFrom (p.advance [c]) cs
    else
      match Munch.lexeme c cs with
      | none => .error p.place
      | some (none, n) =>
        let text := c :: cs.take n
        scanFrom ((p.comment text).advance text) (cs.drop n)
      | some (some lexeme, n) => scanFrom ((p.push lexeme).advance (c :: cs.take n)) (cs.drop n)
termination_by text => text.length
decreasing_by all_goals simp; try omega

/-- The tokens of a source, or the place of a character that begins none. A byte order mark at the head
is passed over. -/
def scan (source : String) : Except Place (List Token) :=
  match source.toList with
  | '\ufeff' :: cs => scanFrom .start cs
  | cs => scanFrom .start cs

end Token

end CallAtlas.Go
