import CallAtlas.Census
import CallAtlas.CodeModel
import CallAtlas.DirTree

/-!
What a report is made of.
-/

namespace CallAtlas

structure Report where
  model : CodeModel
  census : Option Census
  tree : Option DirTree
  createdAt : String
  limit : Option Nat

end CallAtlas
