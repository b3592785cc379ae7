import CallAtlas.Registry
import CallAtlas.Resolution

/-!
Calls between registered functions and methods. An edge is kept on both of its ends.
-/

namespace CallAtlas

structure CallGraph where
  registry : Registry
  edgeCount : Nat
  callSiteCount : Nat

inductive EdgeOutcome where
  | added
  | alreadyPresent
  | missingEndpoint
  | notCallable
  deriving DecidableEq

namespace EdgeOutcome

def isPresent : EdgeOutcome → Bool
  | .added | .alreadyPresent => true
  | .missingEndpoint | .notCallable => false

end EdgeOutcome

structure Edge where
  caller : Declaration
  callee : Declaration

namespace CallGraph

def ofRegistry (r : Registry) : CallGraph := ⟨r, 0, 0⟩

def isCallable (g : CallGraph) (id : Nat) : Bool :=
  ((g.registry.declaration? id).map (·.kind.isCallable)).getD false

def hasEdge (g : CallGraph) (caller callee : Nat) : Bool :=
  ((g.registry.declaration? caller).map (·.calls.contains callee)).getD false

def connect (g : CallGraph) (caller callee : Nat) : CallGraph :=
  { g with
    registry :=
      (g.registry.modifyDeclaration caller fun d => { d with calls := d.calls ++ [callee] })
        |>.modifyDeclaration callee fun d => { d with calledBy := d.calledBy ++ [caller] }
    edgeCount := g.edgeCount + 1 }

def addEdge (g : CallGraph) (caller callee : SymbolKey) : CallGraph × EdgeOutcome :=
  match g.registry.declarationId? caller, g.registry.declarationId? callee with
  | some i, some j =>
    if !g.isCallable i || !g.isCallable j then (g, .notCallable)
    else if g.hasEdge i j then (g, .alreadyPresent)
    else (g.connect i j, .added)
  | _, _ => (g, .missingEndpoint)

def countAt (g : CallGraph) (callee : Nat) : CallGraph :=
  { g with
    registry := g.registry.modifyDeclaration callee fun d => { d with callSites := d.callSites + 1 }
    callSiteCount := g.callSiteCount + 1 }

def countSite (g : CallGraph) (callee : SymbolKey) : CallGraph :=
  match g.registry.declarationId? callee with
  | none => g
  | some j => g.countAt j

def link (g : CallGraph) (call : Call) : CallGraph × EdgeOutcome :=
  let (g, outcome) := g.addEdge call.caller call.callee
  (if outcome.isPresent then g.countSite call.callee else g, outcome)

def linkAll (g : CallGraph) (calls : List Call) : CallGraph :=
  calls.foldl (fun g call => (g.link call).1) g

def incomingCount (g : CallGraph) (key : SymbolKey) : Nat :=
  ((g.registry.lookup key).map (·.calledBy.length)).getD 0

def calleesOf (g : CallGraph) (key : SymbolKey) : List Declaration :=
  ((g.registry.lookup key).map (·.calls.filterMap g.registry.declaration?)).getD []

def callersOf (g : CallGraph) (key : SymbolKey) : List Declaration :=
  ((g.registry.lookup key).map (·.calledBy.filterMap g.registry.declaration?)).getD []

def edges (g : CallGraph) : List Edge :=
  g.registry.declarations.flatMap fun caller =>
    (caller.calls.filterMap g.registry.declaration?).map (⟨caller, ·⟩)

/-- The functions and methods, the most called first. Equally called ones stay in the order of the registry. -/
def ranked (g : CallGraph) (limit : Option Nat) : List (Declaration × Nat) :=
  let callable := g.registry.declarations.filter (·.kind.isCallable)
  let sorted := (callable.map fun d => (d, d.calledBy.length)).mergeSort fun a b => b.2 ≤ a.2
  match limit with
  | none => sorted
  | some n => sorted.take n

end CallGraph

end CallAtlas
