import CallAtlas.Report

/-!
The call graph in the Mermaid language, with a node for each function and method.
-/

namespace CallAtlas

def isAsciiAlphanumeric (c : Char) : Bool := c.isAlpha || c.isDigit

def Declaration.nodeId (d : Declaration) : String :=
  String.ofList (d.key.text.toList.map fun c => if isAsciiAlphanumeric c then c else '_') ++ "_" ++
    d.id.repr

namespace Report.Mermaid

inductive Line where
  | node (id label : String)
  | edge (source target : String)
  deriving DecidableEq

def nodes (m : CodeModel) : List Line := m.callables.map fun d => .node d.nodeId d.label

def edges (m : CodeModel) : List Line :=
  m.graph.edges.map fun e => .edge e.caller.nodeId e.callee.nodeId

def lines (m : CodeModel) : List Line := nodes m ++ edges m

/-- Double quotes would end a label, so it has single ones. -/
def unquoted (label : String) : String :=
  String.ofList (label.toList.map fun c => if c == '"' then '\'' else c)

def Line.text : Line → String
  | .node id label => "    " ++ id ++ "[\"" ++ unquoted label ++ "\"]"
  | .edge source target => "    " ++ source ++ " --> " ++ target

end Report.Mermaid

end CallAtlas
