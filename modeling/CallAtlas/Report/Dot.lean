import CallAtlas.Report

/-!
The call graph in the DOT language, with a node for each function and method.
-/

namespace CallAtlas.Report

namespace Dot

def escapeChar (c : Char) : List Char :=
  if c == '\\' then ['\\', '\\']
  else if c == '"' then ['\\', '"']
  else if c == '\n' then ['\\', 'n']
  else [c]

def escape (s : String) : String := String.ofList (s.toList.flatMap escapeChar)

structure Style where
  shape : String
  fill : String
  border : String
  deriving DecidableEq

def Style.entry : Style := ⟨"box", "#a6e3a1", "#40a02b"⟩

def Style.method : Style := ⟨"ellipse", "#cba6f7", "#8839ef"⟩

def Style.function : Style := ⟨"box", "#89b4fa", "#1e66f5"⟩

inductive Statement where
  | node (id label file : String) (line : Nat) (style : Style)
  | edge (source target : String)
  deriving DecidableEq

/-- Whether a declaration is the `main` function in the file of an entry point of its package path. -/
def isEntry (entries : List EntryPoint) (d : Declaration) : Bool :=
  d.key.receiver.isNone && d.key.name == "main" &&
    entries.any fun e => e.packagePath == d.key.package.path && e.file == d.file

def styleOf (entries : List EntryPoint) (d : Declaration) : Style :=
  if isEntry entries d then .entry
  else if d.kind = .method then .method
  else .function

def nodeOf (entries : List EntryPoint) (d : Declaration) : Statement :=
  .node d.key.text d.label d.file d.line (styleOf entries d)

def edgeOf (e : Edge) : Statement := .edge e.caller.key.text e.callee.key.text

def nodes (m : CodeModel) : List Statement := m.callables.map (nodeOf m.entryPoints)

def edges (m : CodeModel) : List Statement := m.graph.edges.map edgeOf

def Statement.text : Statement → String
  | .node id label file line style =>
    "    \"" ++ escape id ++ "\" [label=\"" ++ escape label ++ "\", tooltip=\"" ++ escape file ++ ":" ++
      line.repr ++ "\", shape=" ++ style.shape ++ ", style=\"filled,rounded\", fillcolor=\"" ++
      style.fill ++ "\", color=\"" ++ style.border ++ "\"];"
  | .edge source target => "    \"" ++ escape source ++ "\" -> \"" ++ escape target ++ "\";"

def header : List String :=
  ["digraph CallGraph \x7b", "    rankdir=LR;", "    nodesep=0.6;", "    ranksep=1.0;",
   "    node [fontname=\"Helvetica\", fontsize=12];",
   "    edge [fontname=\"Helvetica\", fontsize=10];", ""]

end Dot

def dot (r : Report) : String :=
  String.intercalate "\n"
    (Dot.header ++ (Dot.nodes r.model).map Dot.Statement.text ++ [""] ++
      (Dot.edges r.model).map Dot.Statement.text ++ ["\x7d"])

end CallAtlas.Report
