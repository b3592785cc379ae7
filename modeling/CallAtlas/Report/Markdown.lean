import CallAtlas.Report.Mermaid

/-!
The report as a Markdown document.
-/

namespace CallAtlas

namespace PackageNode

def line (d : Declaration) : String :=
  match d.kind with
  | .function => "func " ++ d.key.name ++ "()"
  | .method => "func (" ++ d.key.receiver.getD "?" ++ ") " ++ d.key.name ++ "()"
  | .struct => "struct " ++ d.key.name
  | .interface => "interface " ++ d.key.name
  | .type => d.key.name ++ " (type)"

def declarationLines (margin : String) : List Declaration → List String
  | [] => []
  | d :: ds =>
    (margin ++ (DirTree.connectors ds.isEmpty).1 ++ line d) :: declarationLines margin ds

def lines : List PackageNode → List String
  | [] => []
  | p :: ps =>
    let (connector, margin) := DirTree.connectors ps.isEmpty
    (connector ++ p.package.key.name ++ " (" ++ p.package.key.path ++ ")") ::
      declarationLines margin p.declarations ++ lines ps

end PackageNode

namespace CodeModel

def treeLines (m : CodeModel) : List String := (m.rootName ++ "/") :: PackageNode.lines m.packageTree

def renderTree (m : CodeModel) : String := String.join (m.treeLines.map (· ++ "\n"))

end CodeModel

namespace Report.Markdown

def counts (r : Report) : List (String × Nat) :=
  let s := r.model.statistics
  [("Go Files", (r.census.map Census.goFiles).getD s.units), ("Packages", s.packages),
   ("Functions", s.functions), ("Methods", s.methods), ("Structs", s.structs),
   ("Interfaces", s.interfaces), ("Other Types", s.otherTypes),
   ("Test Files", (r.census.map Census.testFiles).getD s.testUnits)] ++
    r.census.toList.map (("Directories", ·.directories)) ++
    [("Total Lines of Code", s.linesOfCode), ("Call Edges", s.callEdges),
     ("Parse Failures", s.parseFailures)] ++
    r.census.toList.flatMap fun c => [("Non-Go Files", c.nonGoFiles), ("Total Files", c.totalFiles)]

def row (cells : List String) : String := "| " ++ String.intercalate " | " cells ++ " |"

def statistics (r : Report) : List String :=
  ["### Project Statistics", "", "| Metric | Count |", "|--------|------:|"] ++
    (counts r).map (fun (metric, n) => row [metric, n.repr]) ++ [""]

def module (r : Report) : List String :=
  match r.model.module with
  | none => []
  | some m => ["### Module Information", "", "```bash", "module " ++ m, "```", ""]

def entryLines (first : Nat) : List EntryPoint → List String
  | [] => []
  | e :: es =>
    (first.repr ++ ". `" ++ e.packagePath ++ "` (" ++ e.file ++ ")") :: entryLines (first + 1) es

def entries (r : Report) : List String :=
  let found := r.model.entryPoints
  if found.isEmpty then [] else ["### Entry Points", ""] ++ entryLines 1 found ++ [""]

def folded (title language : String) (lines : List String) : List String :=
  ["<details>", "<summary>" ++ title ++ "</summary>", "", "```" ++ language] ++ lines ++
    ["```", "</details>", ""]

def directories (r : Report) : List String :=
  match r.tree with
  | none => []
  | some t => folded "Directory Structure" "bash" t.lines

def callGraph (r : Report) : List String :=
  ["## Function Call Graph", ""] ++
    folded "View Function Call Graph" "mermaid"
      ("graph TD" :: (Mermaid.lines r.model).map Mermaid.Line.text)

def mostCalled (r : Report) : List (Declaration × Nat) :=
  let called := (r.model.graph.ranked none).filter (0 < ·.2)
  match r.limit with
  | none => called
  | some n => called.take n

def displayName (d : Declaration) : String :=
  match d.key.receiver with
  | none => d.key.name
  | some receiver => "(" ++ receiver ++ ") " ++ d.key.name

def mostCalledTable (r : Report) : List String :=
  ["## Most Called Functions", "", "| Function | Type | File | Callers | Call Sites |",
   "|----------|------|------|--------:|-----------:|"] ++
    (mostCalled r).map fun (d, n) => row [displayName d, d.kind.word, d.file, n.repr, d.callSites.repr]

def lines (r : Report) : List String :=
  ["## Code Structure Analysis", "", "*Created at: " ++ r.createdAt ++ "*", ""] ++ statistics r ++
    module r ++ entries r ++ directories r ++ folded "Code Structure" "bash" r.model.treeLines ++
    callGraph r ++ mostCalledTable r ++
    ["", "---", "*This document was automatically generated by gomap*"]

end Report.Markdown

def Report.markdown (r : Report) : String :=
  String.join ((Report.Markdown.lines r).map (· ++ "\n"))

end CallAtlas
