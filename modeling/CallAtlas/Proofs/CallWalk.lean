import CallAtlas.Resolution
import Mathlib.Tactic.Lemma

/-! The walk over a body meets every call in it once, and resolves it by the form of its callee. -/

namespace CallAtlas

namespace Expr

inductive Within (e : Expr) : Expr → Prop
  | here : Within e e
  | operand {operand field} : Within e operand → Within e (.selector operand field)
  | callee {callee args} : Within e callee → Within e (.call callee args)
  | argument {callee args a} : a ∈ args → Within e a → Within e (.call callee args)
  | enclosed {calls c} : c ∈ calls → Within e c → Within e (.enclosing calls)

mutual

/-- The callees of the calls in an expression, one for each call, outer calls first. -/
def callees : Expr → List Expr
  | .name _ => []
  | .selector operand _ => callees operand
  | .call callee args => callee :: (callees callee ++ calleesIn args)
  | .enclosing calls => calleesIn calls

def calleesIn : List Expr → List Expr
  | [] => []
  | e :: es => callees e ++ calleesIn es

end

mutual

lemma mem_callees {c : Expr} : ∀ e : Expr, c ∈ e.callees ↔ ∃ args, Within (.call c args) e
  | .name text => by
    simp only [callees, List.not_mem_nil, false_iff, not_exists]
    rintro args ⟨⟩
  | .selector operand field => by
    rw [callees, mem_callees operand]
    constructor
    · rintro ⟨args, h⟩
      exact ⟨args, .operand h⟩
    · rintro ⟨args, h⟩
      cases h with
      | operand h => exact ⟨args, h⟩
  | .call callee args => by
    simp only [callees, List.mem_cons, List.mem_append, mem_callees callee, mem_calleesIn args]
    constructor
    · rintro (rfl | ⟨as, h⟩ | ⟨a, ha, as, h⟩)
      · exact ⟨args, .here⟩
      · exact ⟨as, .callee h⟩
      · exact ⟨as, .argument ha h⟩
    · rintro ⟨as, h⟩
      cases h with
      | here => exact Or.inl rfl
      | callee h => exact Or.inr (Or.inl ⟨as, h⟩)
      | argument ha h => exact Or.inr (Or.inr ⟨_, ha, as, h⟩)
  | .enclosing calls => by
    rw [callees, mem_calleesIn calls]
    constructor
    · rintro ⟨e, he, args, h⟩
      exact ⟨args, .enclosed he h⟩
    · rintro ⟨args, h⟩
      cases h with
      | enclosed he h => exact ⟨_, he, args, h⟩

lemma mem_calleesIn {c : Expr} :
    ∀ es : List Expr, c ∈ calleesIn es ↔ ∃ e ∈ es, ∃ args, Within (.call c args) e
  | [] => by simp [calleesIn]
  | e :: es => by simp [calleesIn, mem_callees e, mem_calleesIn es]

end

end Expr

namespace Scope

variable {s : Scope}

mutual

lemma targets_eq (s : Scope) : ∀ e : Expr, s.targets e = e.callees.filterMap s.resolve
  | .name _ => rfl
  | .selector operand _ => by rw [targets, Expr.callees, targets_eq s operand]
  | .call callee args => by
    rw [targets, Expr.callees, targets_eq s callee, targetsIn_eq s args, List.filterMap_cons]
    cases s.resolve callee <;> simp
  | .enclosing calls => by rw [targets, Expr.callees, targetsIn_eq s calls]

lemma targetsIn_eq (s : Scope) : ∀ es : List Expr, s.targetsIn es = (Expr.calleesIn es).filterMap s.resolve
  | [] => rfl
  | e :: es => by rw [targetsIn, Expr.calleesIn, targets_eq s e, targetsIn_eq s es, List.filterMap_append]

end

/-- What a callee means: a name stands for a function of the package, a member of an imported package for
a function of the package at that path, and a member of any other name for a method. -/
inductive Resolves (s : Scope) : Expr → SymbolKey → Prop
  | bare (name : String) : Resolves s (.name name) (.function s.package name)
  | imported {base path : String} {p : Package} (member : String) : s.imports.get? base = some path →
      s.registry.owner? path = some p →
      Resolves s (.selector (.name base) member) (.function p.key member)
  | member {base : String} (member : String) : s.imports.get? base = none →
      Resolves s (.selector (.name base) member) (.method s.package base member)

lemma Resolves.resolve_eq {callee : Expr} {key : SymbolKey} (h : s.Resolves callee key) :
    s.resolve callee = some key := by
  cases h with
  | bare name => rfl
  | imported member hi ho => simp [resolve, Expr.calleeShape, hi, importedPackage, ho]
  | member member hi => simp [resolve, Expr.calleeShape, hi]

lemma resolve_cases {callee : Expr} {key : SymbolKey} (h : s.resolve callee = some key) :
    s.Resolves callee key ∨ s.registry.owner? key.package.path = none := by
  match callee with
  | .name name =>
    obtain rfl := Option.some.inj h
    exact Or.inl (.bare name)
  | .selector (.name base) member =>
    cases hi : s.imports.get? base with
    | none =>
      simp only [resolve, Expr.calleeShape, hi, Option.some.injEq] at h
      subst h
      exact Or.inl (.member member hi)
    | some path =>
      simp only [resolve, Expr.calleeShape, hi, Option.some.injEq] at h
      subst h
      cases ho : s.registry.owner? path with
      | some p =>
        simp only [importedPackage, ho]
        exact Or.inl (.imported member hi ho)
      | none =>
        simp only [importedPackage, ho]
        exact Or.inr ho
  | .selector (.selector _ _) _ => cases h
  | .selector (.call _ _) _ => cases h
  | .selector (.enclosing _) _ => cases h
  | .call _ _ => cases h
  | .enclosing _ => cases h

end Scope

end CallAtlas
