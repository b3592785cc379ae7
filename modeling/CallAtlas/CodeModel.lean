import CallAtlas.CallGraph
import CallAtlas.EntryPoint
import CallAtlas.Statistics

/-!
The result of an analysis.
-/

namespace CallAtlas

structure CodeModel where
  rootName : String
  module : Option String
  graph : CallGraph
  statistics : Statistics

structure PackageNode where
  package : Package
  declarations : List Declaration

def Statistics.ofGraph (g : CallGraph) (t : Tally) : Statistics where
  units := t.units
  parsedUnits := t.parsedUnits
  parseFailures := t.parseFailures
  skippedUnits := t.skippedUnits
  testUnits := t.testUnits
  packages := g.registry.packages.length
  functions := t.functions
  methods := t.methods
  structs := t.structs
  interfaces := t.interfaces
  otherTypes := t.otherTypes
  linesOfCode := t.linesOfCode
  declarations := g.registry.declarations.length
  duplicateDeclarations := t.duplicateDeclarations
  callEdges := g.edgeCount
  callSites := g.callSiteCount

def receiverLe : Option String → Option String → Bool
  | none, _ => true
  | some _, none => false
  | some a, some b => a ≤ b

namespace Declaration

def label (d : Declaration) : String := d.key.localName

def shownBefore (a b : Declaration) : Bool :=
  a.key.name < b.key.name ||
    (a.key.name == b.key.name && receiverLe a.key.receiver b.key.receiver)

end Declaration

def Package.shownBefore (a b : Package) : Bool :=
  a.key.name < b.key.name || (a.key.name == b.key.name && a.key.path ≤ b.key.path)

namespace CodeModel

def registry (m : CodeModel) : Registry := m.graph.registry

def ofGraph (rootName : String) (module : Option String) (g : CallGraph) (t : Tally) : CodeModel :=
  ⟨rootName, module, g, .ofGraph g t⟩

def entryPoints (m : CodeModel) : List EntryPoint := EntryPoint.all m.registry

def callables (m : CodeModel) : List Declaration :=
  m.registry.declarations.filter (·.kind.isCallable)

def packageNode (m : CodeModel) (p : Package) : PackageNode :=
  ⟨p, (p.declarations.filterMap m.registry.declaration?).mergeSort Declaration.shownBefore⟩

def packageTree (m : CodeModel) : List PackageNode :=
  (m.registry.packages.map m.packageNode).mergeSort fun a b => a.package.shownBefore b.package

end CodeModel

end CallAtlas
