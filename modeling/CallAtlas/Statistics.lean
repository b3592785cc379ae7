/-!
Counts of what an analysis found.
-/

namespace CallAtlas

structure UnitCounts where
  functions : Nat := 0
  methods : Nat := 0
  structs : Nat := 0
  interfaces : Nat := 0
  otherTypes : Nat := 0
  lines : Nat := 0
  isTest : Bool := false
  deriving DecidableEq

structure Tally where
  units : Nat := 0
  parsedUnits : Nat := 0
  parseFailures : Nat := 0
  skippedUnits : Nat := 0
  testUnits : Nat := 0
  functions : Nat := 0
  methods : Nat := 0
  structs : Nat := 0
  interfaces : Nat := 0
  otherTypes : Nat := 0
  linesOfCode : Nat := 0
  duplicateDeclarations : Nat := 0
  deriving DecidableEq

def Tally.record (t : Tally) (c : UnitCounts) : Tally :=
  { t with
    parsedUnits := t.parsedUnits + 1
    testUnits := if c.isTest then t.testUnits + 1 else t.testUnits
    functions := t.functions + c.functions
    methods := t.methods + c.methods
    structs := t.structs + c.structs
    interfaces := t.interfaces + c.interfaces
    otherTypes := t.otherTypes + c.otherTypes
    linesOfCode := t.linesOfCode + c.lines }

structure Statistics where
  units : Nat
  parsedUnits : Nat
  parseFailures : Nat
  skippedUnits : Nat
  testUnits : Nat
  packages : Nat
  functions : Nat
  methods : Nat
  structs : Nat
  interfaces : Nat
  otherTypes : Nat
  linesOfCode : Nat
  declarations : Nat
  duplicateDeclarations : Nat
  callEdges : Nat
  callSites : Nat
  deriving DecidableEq

end CallAtlas
