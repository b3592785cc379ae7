import CallAtlas.CodeModel
import CallAtlas.Extraction
import CallAtlas.Resolution

/-!
The analysis of a list of units. All units are registered before any call is resolved, so a call may
reach a declaration of a later unit. A unit that cannot be read drops out and disturbs no other.
-/

namespace CallAtlas

structure UnitInput where
  path : String
  parsed : Except ParseFailure SourceUnit

namespace Analysis

structure Progress where
  tally : Tally
  registry : Registry
  units : List (PackageKey × SourceUnit)

def Progress.start : Progress := ⟨{}, .empty, []⟩

def Progress.extract (module : Option String) (p : Progress) (input : UnitInput) : Progress :=
  let tally := { p.tally with units := p.tally.units + 1 }
  match input.parsed with
  | .error _ => { p with tally := { tally with parseFailures := tally.parseFailures + 1 } }
  | .ok unit =>
    match Extraction.ofUnit input.path unit module with
    | none => { p with tally := { tally with skippedUnits := tally.skippedUnits + 1 } }
    | some e =>
      let (registry, done) := e.register p.registry
      let tally := tally.record e.counts
      { tally :=
          { tally with duplicateDeclarations := tally.duplicateDeclarations + done.duplicates }
        registry := registry
        units := p.units ++ [(e.package, unit)] }

def Progress.calls (p : Progress) : List Call :=
  p.units.flatMap fun (package, unit) =>
    Scope.calls ⟨p.registry, package, .ofImports unit.imports⟩ unit

def extractAll (module : Option String) (inputs : List UnitInput) : Progress :=
  inputs.foldl (Progress.extract module) .start

end Analysis

open Analysis in
def analyze (rootName : String) (module : Option String) (inputs : List UnitInput) : CodeModel :=
  let p := extractAll module inputs
  .ofGraph rootName module ((CallGraph.ofRegistry p.registry).linkAll p.calls) p.tally

end CallAtlas
