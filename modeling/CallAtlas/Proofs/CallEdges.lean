import CallAtlas.Proofs.CallWalk
import CallAtlas.Proofs.Extracting
import CallAtlas.Proofs.Linking

/-! An analysis has an edge for exactly the calls that resolve to a function or method, and counts each of
them at its callee. -/

namespace CallAtlas

/-- Whether the declaration that comes first under a key is a function or method. -/
def seenCallable (us : List PackagedUnit) (key : SymbolKey) : Bool :=
  ((declared us).find? (·.1 = key)).any (·.2.kind.isCallable)

structure Site where
  packaged : PackagedUnit
  func : Func
  callee : Expr

def sites (us : List PackagedUnit) : List Site :=
  us.flatMap fun u => u.unit.items.flatMap fun
    | .func f => (Expr.calleesIn f.body).map (⟨u, f, ·⟩)
    | .type _ _ _ | .value _ => []

namespace Site

structure Links (r : Registry) (us : List PackagedUnit) (x : Site) (a b : SymbolKey) : Prop where
  caller_key : x.func.key? x.packaged.package = some a
  callee_key : (x.packaged.scope r).Resolves x.callee b
  caller_callable : seenCallable us a = true
  callee_callable : seenCallable us b = true

def call? (r : Registry) (x : Site) : Option Call :=
  (x.func.key? x.packaged.package).bind fun caller =>
    ((x.packaged.scope r).resolve x.callee).map (⟨caller, ·⟩)

end Site

lemma mem_sites {us : List PackagedUnit} {x : Site} : x ∈ sites us ↔
    x.packaged ∈ us ∧ .func x.func ∈ x.packaged.unit.items ∧
      ∃ e ∈ x.func.body, ∃ args, (Expr.call x.callee args).Within e := by
  simp only [sites, List.mem_flatMap]
  constructor
  · rintro ⟨u, hu, item, hitem, hx⟩
    cases item with
    | func f =>
      obtain ⟨c, hc, rfl⟩ := List.mem_map.mp hx
      exact ⟨hu, hitem, (Expr.mem_calleesIn _).mp hc⟩
    | type _ _ _ | value _ => cases hx
  · rintro ⟨hu, hf, hc⟩
    exact ⟨x.packaged, hu, _, hf, List.mem_map.mpr ⟨x.callee, (Expr.mem_calleesIn _).mpr hc, rfl⟩⟩

lemma callsOf_eq (r : Registry) (u : PackagedUnit) (f : Func) : (u.scope r).callsOf f =
    ((Expr.calleesIn f.body).map fun c => (⟨u, f, c⟩ : Site)).filterMap (·.call? r) := by
  rw [List.filterMap_map]
  cases hk : f.key? u.package with
  | none =>
    have hk' : f.key? (u.scope r).package = none := hk
    simp [Scope.callsOf, hk', Site.call?, hk]
  | some caller =>
    have hk' : f.key? (u.scope r).package = some caller := hk
    simp only [Scope.callsOf, hk', Scope.targetsIn_eq, List.map_filterMap]
    congr 1
    funext c
    simp [Site.call?, hk]

lemma Scope.calls_eq (s : Scope) (unit : SourceUnit) : s.calls unit = unit.items.flatMap fun
    | .func f => s.callsOf f
    | .type _ _ _ | .value _ => [] := by
  rw [calls, SourceUnit.funcs]
  induction unit.items with
  | nil => rfl
  | cons item items ih =>
    rw [List.flatMap_cons, ← ih]
    cases item <;> rfl

lemma calls_eq_sites (r : Registry) (us : List PackagedUnit) :
    (us.flatMap fun u => (u.scope r).calls u.unit) = (sites us).filterMap (·.call? r) := by
  simp only [sites, List.filterMap_flatMap, Scope.calls_eq]
  congr 1
  funext u
  congr 1
  funext item
  cases item with
  | func f => exact callsOf_eq r u f
  | type _ _ _ | value _ => rfl

/-- A callee keeps its meaning in a registry where every path that has an owner keeps it. -/
lemma Scope.Resolves.mono {r r' : Registry}
    (ho : ∀ {path k}, r.ownerKey? path = some k → r'.ownerKey? path = some k) {u : PackagedUnit}
    {callee : Expr} {key : SymbolKey} (h : (u.scope r).Resolves callee key) :
    (u.scope r').Resolves callee key := by
  cases h with
  | bare name => exact .bare name
  | @imported base path p member hi hp =>
    have hk : r.ownerKey? path = some p.key := Option.map_eq_some_iff.mpr ⟨p, hp, rfl⟩
    obtain ⟨q, hq, hqk⟩ := Option.map_eq_some_iff.mp (ho hk)
    rw [← hqk]
    exact .imported member hi hq
  | member member hi => exact .member member hi

def linked (us : List PackagedUnit) : CallGraph :=
  (CallGraph.ofRegistry (registryOf us)).linkAll ((sites us).filterMap (·.call? (registryOf us)))

lemma analyze_graph (rootName : String) (module : Option String) (inputs : List UnitInput) :
    (analyze rootName module inputs).graph = linked (packagedUnits module inputs) := by
  have hcalls : (Analysis.extractAll module inputs).calls = (sites (packagedUnits module inputs)).filterMap
      (·.call? (registryOf (packagedUnits module inputs))) := by
    rw [← calls_eq_sites, Analysis.Progress.calls, Analysis.extractAll_registry,
      Analysis.extractAll_units, List.flatMap_map]
    rfl
  rw [linked, ← hcalls, ← Analysis.extractAll_registry]
  rfl

lemma analyze_statistics (rootName : String) (module : Option String) (inputs : List UnitInput) :
    (analyze rootName module inputs).statistics =
      .ofGraph (linked (packagedUnits module inputs)) (Analysis.extractAll module inputs).tally := by
  rw [← analyze_graph rootName]
  rfl

lemma registryOf_callable (us : List PackagedUnit) (key : SymbolKey) :
    (registryOf us).callable key = seenCallable us key := by
  have hseen := registryOf_seen? us key
  rw [Registry.seen?] at hseen
  rw [Registry.callable, seenCallable]
  have hany : ∀ o : Option Declaration,
      o.any (·.kind.isCallable) = (o.map (·.candidate)).any (·.kind.isCallable) := by
    rintro (_ | d) <;> rfl
  rw [hany, hseen]
  cases (declared us).find? (·.1 = key) <;> rfl

lemma owner?_of_contains {us : List PackagedUnit} {key : SymbolKey}
    (h : (registryOf us).contains key = true) : (registryOf us).owner? key.package.path ≠ none := by
  have hwf := registryOf_wellFormed us
  obtain ⟨i, hi⟩ := Option.isSome_iff_exists.mp h
  obtain ⟨d, hd, rfl⟩ := hwf.declarationId_iff.mp hi
  obtain ⟨q, hq, hk⟩ := hwf.declaration_package hd
  have hmem : d.key.package ∈ (registryOf us).packageKeys :=
    List.mem_map.mpr ⟨q, List.mem_of_getElem? hq, hk⟩
  intro hn
  have hfirst := registryOf_ownerKey? us d.key.package.path
  rw [Registry.ownerKey?, hn, Option.map_none, eq_comm, firstAt_eq_none_iff] at hfirst
  exact hfirst _ hmem rfl

lemma owner?_of_seenCallable {us : List PackagedUnit} {key : SymbolKey} (h : seenCallable us key = true) :
    (registryOf us).owner? key.package.path ≠ none := by
  rw [← registryOf_callable, Registry.callable_iff] at h
  obtain ⟨i, hi, _⟩ := h
  exact owner?_of_contains (Option.isSome_iff_exists.mpr ⟨i, hi⟩)

lemma Site.links_iff {us : List PackagedUnit} {x : Site} {a b : SymbolKey} :
    x.Links (registryOf us) us a b ↔
      x.call? (registryOf us) = some ⟨a, b⟩ ∧ seenCallable us a = true ∧ seenCallable us b = true := by
  simp only [call?, Option.bind_eq_some_iff, Option.map_eq_some_iff, Call.mk.injEq]
  constructor
  · rintro ⟨ha, hb, hca, hcb⟩
    exact ⟨⟨a, ha, b, hb.resolve_eq, rfl, rfl⟩, hca, hcb⟩
  · rintro ⟨⟨_, ha, _, hb, rfl, rfl⟩, hca, hcb⟩
    refine ⟨ha, ?_, hca, hcb⟩
    -- a callee at a path without a package is a guess, and never registered
    rcases Scope.resolve_cases hb with hr | hn
    · exact hr
    · exact absurd hn (owner?_of_seenCallable hcb)

lemma linked_bare (us : List PackagedUnit) : (linked us).registry.bare = (registryOf us).bare :=
  CallGraph.linkAll_bare _ _

lemma linked_packageKeys (us : List PackagedUnit) :
    (linked us).registry.packageKeys = (registryOf us).packageKeys :=
  Registry.packageKeys_of_bare_eq (linked_bare us)

lemma linked_declarationKeys (us : List PackagedUnit) :
    (linked us).registry.declarationKeys = (registryOf us).declarationKeys :=
  Registry.declarationKeys_of_bare_eq (linked_bare us)

lemma linked_packages_length (us : List PackagedUnit) :
    (linked us).registry.packages.length = (registryOf us).packageKeys.length := by
  rw [← linked_packageKeys, Registry.packageKeys, List.length_map]

lemma linked_declarations_length (us : List PackagedUnit) :
    (linked us).registry.declarations.length = (registryOf us).declarationKeys.length := by
  rw [← linked_declarationKeys, Registry.declarationKeys, List.length_map]

lemma mem_declared_of_linked {us : List PackagedUnit} {d : Declaration}
    (hd : d ∈ (linked us).registry.declarations) : (d.key, d.candidate) ∈ declared us := by
  obtain ⟨i, hi⟩ := List.mem_iff_getElem?.mp hd
  have hi' : (linked us).registry.declaration? i = some d := hi
  have hmap := Registry.map_declaration?_of_bare_eq (linked_bare us) i (fun d => (d.key, d.candidate))
    fun _ => rfl
  rw [hi', Option.map_some, eq_comm, Option.map_eq_some_iff] at hmap
  obtain ⟨e, he, heq⟩ := hmap
  exact heq ▸ mem_declared_of_registryOf he

lemma linked_consistent (us : List PackagedUnit) : (linked us).Consistent :=
  (CallGraph.consistent_ofRegistry (registryOf_bare us) (registryOf_wellFormed us)).linkAll _

lemma mem_linked_edgeKeys {us : List PackagedUnit} {a b : SymbolKey} :
    (a, b) ∈ (linked us).edgeKeys ↔ ∃ x ∈ sites us, x.Links (registryOf us) us a b := by
  rw [linked, CallGraph.mem_edgeKeys_linkAll (registryOf_bare us) (registryOf_wellFormed us)]
  simp only [registryOf_callable, List.mem_filterMap, Site.links_iff]
  constructor
  · rintro ⟨⟨x, hx, hc⟩, hab⟩
    exact ⟨x, hx, hc, hab⟩
  · rintro ⟨x, hx, hc, hab⟩
    exact ⟨⟨x, hx, hc⟩, hab⟩

open scoped Classical in
lemma linked_callSitesOf (us : List PackagedUnit) (b : SymbolKey) :
    (linked us).callSitesOf b = (sites us).countP fun x => ∃ a, x.Links (registryOf us) us a b := by
  rw [linked, CallGraph.callSitesOf_linkAll (registryOf_bare us) (registryOf_wellFormed us),
    List.countP_filterMap]
  apply List.countP_congr
  intro x _
  simp only [registryOf_callable, Site.links_iff, decide_eq_true_eq]
  cases hc : x.call? (registryOf us) with
  | none => simp
  | some c =>
    simp only [Option.map_some, Option.getD_some, decide_eq_true_eq, Option.some.injEq]
    constructor
    · rintro ⟨rfl, hca, hcb⟩
      exact ⟨c.caller, rfl, hca, hcb⟩
    · rintro ⟨a, rfl, hca, hcb⟩
      exact ⟨rfl, hca, hcb⟩

end CallAtlas
