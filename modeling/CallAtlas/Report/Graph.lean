import CallAtlas.Report
import CallAtlas.Report.Json

/-!
The call graph for other programs: every declaration is a node, and edges name the nodes they join.
-/

namespace CallAtlas

namespace Report

structure GraphNode where
  id : String
  label : String
  kind : SymbolKind
  package : String
  packagePath : String
  file : String
  line : Nat
  callers : Nat
  callSites : Nat

structure GraphEdge where
  source : String
  target : String
  deriving DecidableEq

structure Graph where
  root : String
  module : Option String
  nodes : List GraphNode
  edges : List GraphEdge
  entryPoints : List EntryPoint
  statistics : Statistics
  census : Option Census

def GraphNode.ofDeclaration (d : Declaration) : GraphNode where
  id := d.key.text
  label := d.label
  kind := d.kind
  package := d.key.package.name
  packagePath := d.key.package.path
  file := d.file
  line := d.line
  callers := d.calledBy.length
  callSites := d.callSites

def GraphEdge.ofEdge (e : Edge) : GraphEdge := ⟨e.caller.key.text, e.callee.key.text⟩

def Graph.ofModel (m : CodeModel) (census : Option Census) : Graph where
  root := m.rootName
  module := m.module
  nodes := m.registry.declarations.map .ofDeclaration
  edges := m.graph.edges.map .ofEdge
  entryPoints := m.entryPoints
  statistics := m.statistics
  census := census

def GraphNode.json (n : GraphNode) : Json :=
  .object
    [("id", .text n.id), ("label", .text n.label), ("kind", .text n.kind.word),
     ("package", .text n.package), ("package_path", .text n.packagePath), ("file", .text n.file),
     ("line", .number n.line), ("callers", .number n.callers), ("call_sites", .number n.callSites)]

def GraphEdge.json (e : GraphEdge) : Json :=
  .object [("from", .text e.source), ("to", .text e.target)]

end Report

def EntryPoint.json (e : EntryPoint) : Json :=
  .object
    [("package_path", .text e.packagePath), ("dir", .text e.dir), ("file", .text e.file),
     ("line", .number e.line)]

def Statistics.counters (s : Statistics) : List (String × Nat) :=
  [("units", s.units), ("parsed_units", s.parsedUnits), ("parse_failures", s.parseFailures),
   ("skipped_units", s.skippedUnits), ("test_units", s.testUnits), ("packages", s.packages),
   ("functions", s.functions), ("methods", s.methods), ("structs", s.structs),
   ("interfaces", s.interfaces), ("other_types", s.otherTypes), ("lines_of_code", s.linesOfCode),
   ("declarations", s.declarations), ("duplicate_declarations", s.duplicateDeclarations),
   ("call_edges", s.callEdges), ("call_sites", s.callSites)]

def Census.counters (c : Census) : List (String × Nat) :=
  [("total_files", c.totalFiles), ("go_files", c.goFiles), ("test_files", c.testFiles),
   ("directories", c.directories), ("non_go_files", c.nonGoFiles)]

namespace Report

def countersJson (counters : List (String × Nat)) : Json :=
  .object (counters.map fun (name, n) => (name, .number n))

def Graph.json (g : Graph) : Json :=
  .object
    ([("root", .text g.root)] ++
      g.module.toList.map (("module", .text ·)) ++
      [("nodes", .array (g.nodes.map GraphNode.json)),
       ("edges", .array (g.edges.map GraphEdge.json)),
       ("entry_points", .array (g.entryPoints.map EntryPoint.json)),
       ("statistics", countersJson g.statistics.counters)] ++
      g.census.toList.map (("census", countersJson ·.counters)))

def json (r : Report) : String := (Graph.ofModel r.model r.census).json.pretty

end Report

end CallAtlas
