import CallAtlas.Proofs.CallSites
import CallAtlas.Unit.OfSource

/-! The expressions made of the syntax of a body hold each of its calls once, in source order. -/

namespace CallAtlas

namespace Expr

def isCall : Expr → Bool
  | .call _ _ => true
  | _ => false

def callNodes (e : Expr) : List Expr := e.nodes.filter isCall

def callNodesIn (es : List Expr) : List Expr := (nodesIn es).filter isCall

@[simp] lemma callNodes_name (text : String) : (name text).callNodes = [] := rfl

@[simp] lemma callNodes_selector (operand : Expr) (field : String) :
    (selector operand field).callNodes = operand.callNodes := rfl

@[simp] lemma callNodes_call (callee : Expr) (args : List Expr) :
    (call callee args).callNodes = call callee args :: (callee.callNodes ++ callNodesIn args) :=
  congrArg _ (List.filter_append _ _)

@[simp] lemma callNodes_enclosing (calls : List Expr) :
    (enclosing calls).callNodes = callNodesIn calls := rfl

@[simp] lemma callNodesIn_nil : callNodesIn [] = [] := rfl

@[simp] lemma callNodesIn_cons (e : Expr) (es : List Expr) :
    callNodesIn (e :: es) = e.callNodes ++ callNodesIn es :=
  List.filter_append _ _

@[simp] lemma callNodesIn_append (es fs : List Expr) :
    callNodesIn (es ++ fs) = callNodesIn es ++ callNodesIn fs := by
  induction es with
  | nil => rfl
  | cons e es ih => simp [ih]

end Expr

namespace Go.Node

mutual

def nodes : Node → List Node
  | .comment => [.comment]
  | .name text => [.name text]
  | .typeName text => [.typeName text]
  | .selector operand field => .selector operand field :: operand.nodes
  | .call function typeArgs args =>
    .call function typeArgs args :: (function.nodes ++ nodesIn typeArgs ++ nodesIn args)
  | .generic base typeArgs => .generic base typeArgs :: (base.nodes ++ nodesIn typeArgs)
  | .branch kind parts => .branch kind parts :: nodesIn parts

def nodesIn : List Node → List Node
  | [] => []
  | n :: ns => n.nodes ++ nodesIn ns

end

def isCall : Node → Bool
  | .call _ _ _ => true
  | _ => false

def callNodes (n : Node) : List Node := n.nodes.filter isCall

def callNodesIn (ns : List Node) : List Node := (nodesIn ns).filter isCall

@[simp] lemma callNodes_comment : comment.callNodes = [] := rfl

@[simp] lemma callNodes_name (text : String) : (name text).callNodes = [] := rfl

@[simp] lemma callNodes_typeName (text : String) : (typeName text).callNodes = [] := rfl

@[simp] lemma callNodes_selector (operand : Node) (field : String) :
    (selector operand field).callNodes = operand.callNodes := rfl

@[simp] lemma callNodes_call (function : Node) (typeArgs args : List Node) :
    (call function typeArgs args).callNodes =
      call function typeArgs args :: (function.callNodes ++ callNodesIn typeArgs ++ callNodesIn args) := by
  simp [callNodes, callNodesIn, nodes, List.filter_cons, isCall]

@[simp] lemma callNodes_generic (base : Node) (typeArgs : List Node) :
    (generic base typeArgs).callNodes = base.callNodes ++ callNodesIn typeArgs :=
  List.filter_append _ _

@[simp] lemma callNodes_branch (kind : Kind) (parts : List Node) :
    (branch kind parts).callNodes = callNodesIn parts := rfl

@[simp] lemma callNodesIn_nil : callNodesIn [] = [] := rfl

@[simp] lemma callNodesIn_cons (n : Node) (ns : List Node) :
    callNodesIn (n :: ns) = n.callNodes ++ callNodesIn ns :=
  List.filter_append _ _

-- A callee is made into an expression and an argument into its outermost calls, so that both ways of
-- going down the syntax have to be followed at once.
mutual

lemma callNodes_expr : ∀ n : Node, n.expr.callNodes = n.callNodes.map expr
  | .comment => rfl
  | .name _ => rfl
  | .typeName _ => rfl
  | .selector operand _ => by
    rw [expr, Expr.callNodes_selector, callNodes_selector, callNodes_expr operand]
  | .call function typeArgs args => by
    simp only [expr, Expr.callNodes_call, Expr.callNodesIn_append, callNodes_call, List.map_cons,
      List.map_append, callNodes_expr function, callNodesIn_callsIn typeArgs, callNodesIn_callsIn args,
      List.append_assoc]
  | .generic base typeArgs => by
    rw [expr, Expr.callNodes_enclosing, Expr.callNodesIn_append, callNodesIn_calls base,
      callNodesIn_callsIn typeArgs, callNodes_generic, List.map_append]
  | .branch kind parts => by
    rw [expr, Expr.callNodes_enclosing, callNodesIn_callsIn parts, callNodes_branch]

lemma callNodesIn_calls : ∀ n : Node, Expr.callNodesIn n.calls = n.callNodes.map expr
  | .comment => rfl
  | .name _ => rfl
  | .typeName _ => rfl
  | .selector operand _ => by rw [calls, callNodes_selector, callNodesIn_calls operand]
  | .call function typeArgs args => by
    have hexpr := callNodes_expr (.call function typeArgs args)
    rw [← hexpr, calls, expr, Expr.callNodesIn_cons, Expr.callNodesIn_nil, List.append_nil]
  | .generic base typeArgs => by
    rw [calls, Expr.callNodesIn_append, callNodesIn_calls base, callNodesIn_callsIn typeArgs,
      callNodes_generic, List.map_append]
  | .branch kind parts => by rw [calls, callNodesIn_callsIn parts, callNodes_branch]

lemma callNodesIn_callsIn : ∀ ns : List Node, Expr.callNodesIn (callsIn ns) = (callNodesIn ns).map expr
  | [] => rfl
  | n :: ns => by
    rw [callsIn, Expr.callNodesIn_append, callNodesIn_calls n, callNodesIn_callsIn ns, callNodesIn_cons,
      List.map_append]

end

lemma expr_eq_name_iff {n : Node} {x : String} : n.expr = .name x ↔ n = .name x := by
  cases n <;> simp [expr]

lemma expr_eq_selector_iff {n : Node} {x field : String} :
    n.expr = .selector (.name x) field ↔ n = .selector (.name x) field := by
  cases n <;> simp [expr, expr_eq_name_iff]

lemma expr_of_isCall {n : Node} (h : n.isCall = true) : ∃ function typeArgs args callee exprs,
    n = .call function typeArgs args ∧ n.expr = .call callee exprs ∧
      (∀ x, callee = .name x ↔ function = .name x) ∧
      ∀ x field, callee = .selector (.name x) field ↔ function = .selector (.name x) field := by
  cases n with
  | call function typeArgs args =>
    exact ⟨function, typeArgs, args, function.expr, _, rfl, rfl, fun x => expr_eq_name_iff,
      fun x field => expr_eq_selector_iff⟩
  | _ => cases h

end Go.Node

open Go in
theorem lowering_keeps_every_call (spec : FuncSpec) :
    ∃ f, SourceUnit.itemsOf (.func spec) = [.func f] ∧ f.body = Node.callsIn spec.body ∧
      List.Forall₂ (fun n e => n.expr = e ∧ ∃ function typeArgs args callee exprs,
          n = .call function typeArgs args ∧ e = .call callee exprs ∧
          (∀ x, callee = .name x ↔ function = .name x) ∧
          ∀ x field, callee = .selector (.name x) field ↔ function = .selector (.name x) field)
        ((Node.nodesIn spec.body).filter Node.isCall) ((Expr.nodesIn f.body).filter Expr.isCall) := by
  refine ⟨_, rfl, rfl, ?_⟩
  have hcalls : (Expr.nodesIn (Node.callsIn spec.body)).filter Expr.isCall =
      ((Node.nodesIn spec.body).filter Node.isCall).map Node.expr := Node.callNodesIn_callsIn spec.body
  rw [hcalls, List.forall₂_map_right_iff, List.forall₂_same]
  intro n hn
  exact ⟨rfl, Node.expr_of_isCall (List.mem_filter.mp hn).2⟩

end CallAtlas
