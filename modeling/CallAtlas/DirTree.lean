import CallAtlas.Text.Basic

/-!
Directory listings.
-/

namespace CallAtlas

inductive DirTree where
  | node (name : String) (isDir : Bool) (children : List DirTree)

namespace DirTree

def name : DirTree → String
  | node n _ _ => n

def isDir : DirTree → Bool
  | node _ d _ => d

def children : DirTree → List DirTree
  | node _ _ cs => cs

def root (name : String) : DirTree := node name true []

def isSeparator (c : Char) : Bool := c == '/' || c == '\\'

def components (path : String) : List String :=
  ((Text.pieces isSeparator path.toList).map String.ofList).filter fun part =>
    part != "" && part != "."

def update (name : String) (f : DirTree → DirTree) (fresh : DirTree) : List DirTree → List DirTree
  | [] => [f fresh]
  | t :: ts => if t.name = name then f t :: ts else t :: update name f fresh ts

/-- Adds the entry at a path of components. All parts but the last are directories; entries that are
there already stay as they are. -/
def insertAt (isDir : Bool) : List String → DirTree → DirTree
  | [], t => t
  | part :: parts, node n d cs =>
    node n d (update part (insertAt isDir parts) (node part (!parts.isEmpty || isDir) []) cs)

def insert (t : DirTree) (path : String) (isDir : Bool) : DirTree :=
  insertAt isDir (components path) t

def listedBefore (a b : DirTree) : Bool :=
  (a.isDir && !b.isDir) || (a.isDir == b.isDir && a.name ≤ b.name)

mutual

def sort : DirTree → DirTree
  | node n d cs => node n d ((sortAll cs).mergeSort listedBefore)

def sortAll : List DirTree → List DirTree
  | [] => []
  | t :: ts => t.sort :: sortAll ts

end

def displayName (t : DirTree) : String := if t.isDir then t.name ++ "/" else t.name

/-- The connector before an entry, and what stands below it before the entries nested in it. -/
def connectors (isLast : Bool) : String × String :=
  if isLast then ("└── ", "    ") else ("├── ", "│   ")

mutual

def entryLines (margin : String) (isLast : Bool) : DirTree → List String
  | node n d cs =>
    (margin ++ (connectors isLast).1 ++ displayName (node n d [])) ::
      childLines (margin ++ (connectors isLast).2) cs

def childLines (margin : String) : List DirTree → List String
  | [] => []
  | t :: ts => entryLines margin ts.isEmpty t ++ childLines margin ts

end

def lines (t : DirTree) : List String := t.displayName :: childLines "" t.children

def render (t : DirTree) : String := String.join (t.lines.map (· ++ "\n"))

end DirTree

end CallAtlas
