/-!
Counts of the files of a project.
-/

namespace CallAtlas

structure Census where
  totalFiles : Nat := 0
  goFiles : Nat := 0
  testFiles : Nat := 0
  directories : Nat := 0
  nonGoFiles : Nat := 0
  deriving DecidableEq

end CallAtlas
