import CallAtlas.Proofs.CallWalk
import Mathlib.Data.List.Forall2

/-! The calls of a unit are the calls by name in its functions, one for one and in source order. -/

namespace CallAtlas

lemma forall₂_filter_filterMap {α β : Type} {R : α → β → Prop} {p : α → Bool} {f : α → Option β}
    (hyes : ∀ a, p a = true → ∃ b, f a = some b ∧ R a b) (hno : ∀ a, p a = false → f a = none)
    (l : List α) : List.Forall₂ R (l.filter p) (l.filterMap f) := by
  induction l with
  | nil => exact .nil
  | cons a l ih =>
    cases hp : p a with
    | true =>
      obtain ⟨b, hb, hr⟩ := hyes a hp
      rw [List.filter_cons_of_pos hp, List.filterMap_cons_some hb]
      exact .cons hr ih
    | false =>
      rw [List.filter_cons_of_neg (by simp [hp]), List.filterMap_cons_none (hno a hp)]
      exact ih

namespace Expr

mutual

def nodes : Expr → List Expr
  | .name text => [.name text]
  | .selector operand field => .selector operand field :: operand.nodes
  | .call callee args => .call callee args :: (callee.nodes ++ nodesIn args)
  | .enclosing calls => .enclosing calls :: nodesIn calls

def nodesIn : List Expr → List Expr
  | [] => []
  | e :: es => e.nodes ++ nodesIn es

end

def callee? : Expr → Option Expr
  | .call callee _ => some callee
  | _ => none

mutual

lemma callees_eq : ∀ e : Expr, e.callees = e.nodes.filterMap callee?
  | .name _ => rfl
  | .selector operand _ => by
    rw [callees, nodes, callees_eq operand]
    rfl
  | .call callee args => by
    rw [callees, nodes, callees_eq callee, calleesIn_eq args, ← List.filterMap_append]
    rfl
  | .enclosing calls => by
    rw [callees, nodes, calleesIn_eq calls]
    rfl

lemma calleesIn_eq : ∀ es : List Expr, calleesIn es = (nodesIn es).filterMap callee?
  | [] => rfl
  | e :: es => by rw [calleesIn, nodesIn, callees_eq e, calleesIn_eq es, List.filterMap_append]

end

def isNamedCall : Expr → Bool
  | .call (.name _) _ => true
  | .call (.selector (.name _) _) _ => true
  | _ => false

lemma isNamedCall_iff {e : Expr} : e.isNamedCall = true ↔ ∃ callee args, e = .call callee args ∧
    ((∃ x, callee = .name x) ∨ ∃ x member, callee = .selector (.name x) member) := by
  constructor
  · intro h
    match e with
    | .call (.name x) args => exact ⟨_, args, rfl, Or.inl ⟨x, rfl⟩⟩
    | .call (.selector (.name x) member) args => exact ⟨_, args, rfl, Or.inr ⟨x, member, rfl⟩⟩
  · rintro ⟨_, args, rfl, ⟨x, rfl⟩ | ⟨x, member, rfl⟩⟩ <;> rfl

end Expr

namespace Func

/-- Whether a function has a key: it is no method, or its receiver has a base name. -/
def isNamed (f : Func) : Bool := f.receiver.all (·.base.isSome)

variable {f : Func}

lemma isNamed_iff : f.isNamed = true ↔ f.receiver = none ∨ ∃ base, f.receiver = some ⟨some base⟩ := by
  obtain ⟨name, _ | ⟨_ | base⟩, line, body⟩ := f <;> simp [isNamed]

lemma key?_of_isNamed (h : f.isNamed = true) (package : PackageKey) :
    f.key? package = some ⟨package, f.receiver.bind (·.base), f.name⟩ := by
  rcases isNamed_iff.mp h with hr | ⟨base, hr⟩
  · simp [key?, hr, SymbolKey.function]
  · simp [key?, hr, SymbolKey.method]

lemma key?_of_unnamed (h : f.isNamed = false) (package : PackageKey) : f.key? package = none := by
  obtain ⟨name, _ | ⟨_ | base⟩, line, body⟩ := f
  · cases h
  · rfl
  · cases h

end Func

structure BodyNode where
  func : Func
  node : Expr

namespace SourceUnit

def bodyNodes (unit : SourceUnit) : List BodyNode :=
  unit.funcs.flatMap fun f => (Expr.nodesIn f.body).map (⟨f, ·⟩)

/-- The calls by name in the functions that have a key, in source order. -/
def namedCalls (unit : SourceUnit) : List BodyNode :=
  unit.bodyNodes.filter fun b => b.func.isNamed && b.node.isNamedCall

lemma mem_funcs {unit : SourceUnit} {f : Func} : f ∈ unit.funcs ↔ .func f ∈ unit.items := by
  rw [funcs, List.mem_filterMap]
  constructor
  · rintro ⟨item, hitem, hf⟩
    cases item with
    | func g => exact Option.some.inj hf ▸ hitem
    | type _ _ _ => cases hf
    | value _ => cases hf
  · intro hf
    exact ⟨_, hf, rfl⟩

lemma mem_namedCalls {unit : SourceUnit} {b : BodyNode} : b ∈ unit.namedCalls ↔
    .func b.func ∈ unit.items ∧ b.node ∈ Expr.nodesIn b.func.body ∧ b.func.isNamed = true ∧
      b.node.isNamedCall = true := by
  simp only [namedCalls, bodyNodes, List.mem_filter, List.mem_flatMap, List.mem_map, mem_funcs,
    Bool.and_eq_true]
  constructor
  · rintro ⟨⟨f, hf, e, he, rfl⟩, hb⟩
    exact ⟨hf, he, hb⟩
  · rintro ⟨hf, he, hb⟩
    exact ⟨⟨b.func, hf, b.node, he, rfl⟩, hb⟩

end SourceUnit

namespace Scope

variable {s : Scope}

/-- What a call by name makes of itself: a call from the key of its function to what its callee means. -/
structure Makes (s : Scope) (b : BodyNode) (call : Call) : Prop where
  caller_key : call.caller = ⟨s.package, b.func.receiver.bind (·.base), b.func.name⟩
  callee_key : ∃ callee args, b.node = .call callee args ∧ s.resolve callee = some call.callee

def callOf? (s : Scope) (b : BodyNode) : Option Call :=
  (b.func.key? s.package).bind fun caller =>
    (b.node.callee?.bind s.resolve).map (⟨caller, ·⟩)

lemma callsOf_eq_filterMap (s : Scope) (f : Func) :
    s.callsOf f = ((Expr.nodesIn f.body).map (BodyNode.mk f)).filterMap s.callOf? := by
  rw [List.filterMap_map]
  cases hk : f.key? s.package with
  | none => simp [callsOf, callOf?, hk]
  | some caller =>
    simp only [callsOf, hk, targetsIn_eq, Expr.calleesIn_eq, List.map_filterMap, List.filterMap_filterMap]
    congr 1
    funext e
    cases he : e.callee? <;> simp [callOf?, hk, he]

lemma calls_eq_filterMap (s : Scope) (unit : SourceUnit) :
    s.calls unit = unit.bodyNodes.filterMap s.callOf? := by
  rw [calls, SourceUnit.bodyNodes, List.filterMap_flatMap]
  congr 1
  funext f
  exact callsOf_eq_filterMap s f

lemma isSome_resolve (s : Scope) (e : Expr) : (e.callee?.bind s.resolve).isSome = e.isNamedCall := by
  match e with
  | .call (.name x) args => rfl
  | .call (.selector (.name x) member) args =>
    -- What is imported decides where the callee is looked for, not whether it has a meaning.
    simp only [Expr.callee?, Option.bind_some, resolve, Expr.calleeShape]
    cases s.imports.get? x <;> rfl
  | .call (.selector (.selector _ _) _) _ => rfl
  | .call (.selector (.call _ _) _) _ => rfl
  | .call (.selector (.enclosing _) _) _ => rfl
  | .call (.call _ _) _ => rfl
  | .call (.enclosing _) _ => rfl
  | .name _ => rfl
  | .selector _ _ => rfl
  | .enclosing _ => rfl

lemma callOf?_of_isNamedCall {b : BodyNode} (hf : b.func.isNamed = true) (hb : b.node.isNamedCall = true) :
    ∃ call, s.callOf? b = some call ∧ s.Makes b call := by
  obtain ⟨callee, args, he, _⟩ := Expr.isNamedCall_iff.mp hb
  rw [← isSome_resolve s, he] at hb
  obtain ⟨key, hkey⟩ := Option.isSome_iff_exists.mp hb
  refine ⟨⟨_, key⟩, ?_, rfl, callee, args, he, hkey⟩
  rw [callOf?, b.func.key?_of_isNamed hf, he, hkey]
  rfl

lemma callOf?_eq_none {b : BodyNode} (h : (b.func.isNamed && b.node.isNamedCall) = false) :
    s.callOf? b = none := by
  rcases Bool.and_eq_false_iff.mp h with hf | hb
  · rw [callOf?, b.func.key?_of_unnamed hf]
    rfl
  · rw [← isSome_resolve s, Option.isSome_eq_false_iff, Option.isNone_iff_eq_none] at hb
    simp [callOf?, hb]

theorem calls_match_named_calls (r : Registry) (package : PackageKey) (imports : ImportMap)
    (unit : SourceUnit) :
    let s : Scope := ⟨r, package, imports⟩
    List.Forall₂ s.Makes unit.namedCalls (s.calls unit) ∧
    (s.calls unit).length = unit.namedCalls.length ∧
    ∀ f e, ⟨f, e⟩ ∈ unit.namedCalls ↔ .func f ∈ unit.items ∧ e ∈ Expr.nodesIn f.body ∧
      (f.receiver = none ∨ ∃ base, f.receiver = some ⟨some base⟩) ∧
      ∃ callee args, e = .call callee args ∧
        ((∃ x, callee = .name x) ∨ ∃ x member, callee = .selector (.name x) member) := by
  intro s
  have hmakes : List.Forall₂ s.Makes unit.namedCalls (s.calls unit) := by
    rw [calls_eq_filterMap, SourceUnit.namedCalls]
    apply forall₂_filter_filterMap
    · intro b hb
      obtain ⟨hf, hn⟩ := (Bool.and_eq_true _ _).mp hb
      exact callOf?_of_isNamedCall hf hn
    · intro b hb
      exact callOf?_eq_none hb
  refine ⟨hmakes, hmakes.length_eq.symm, ?_⟩
  intro f e
  rw [SourceUnit.mem_namedCalls, Func.isNamed_iff, Expr.isNamedCall_iff]

end Scope

end CallAtlas
