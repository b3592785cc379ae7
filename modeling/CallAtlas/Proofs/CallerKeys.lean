import CallAtlas.Proofs.CallEdges
import CallAtlas.Proofs.CallSites

/-! The two passes of an analysis give a function the same key, so that every call that is found has a
registered caller. A callee that is guessed from an import path is never registered. -/

namespace CallAtlas

namespace Item

lemma candidate?_key (file : String) (package : PackageKey) (f : Func) :
    ((Item.func f).candidate? file).map (·.key package) = f.key? package := by
  obtain ⟨name, _ | ⟨_ | base⟩, line, body⟩ := f <;> rfl

lemma candidate?_eq_none_iff (file : String) (f : Func) :
    (Item.func f).candidate? file = none ↔ f.receiver = some ⟨none⟩ := by
  obtain ⟨name, _ | ⟨_ | base⟩, line, body⟩ := f <;> simp [candidate?]

end Item

namespace UnitInput

/-- The unit was read from the input, and the extraction is what it gives to the registry. -/
structure Extracts (module : Option String) (input : UnitInput) (unit : SourceUnit) (e : Extraction) :
    Prop where
  parsed_eq : input.parsed = .ok unit
  extraction_eq : Extraction.ofUnit input.path unit module = some e

variable {module : Option String} {input : UnitInput} {unit : SourceUnit}

lemma extracts_iff {e : Extraction} : input.Extracts module unit e ↔
    ∃ u, input.packaged? module = some u ∧ u.unit = unit ∧ u.extraction = e := by
  constructor
  · rintro ⟨hp, he⟩
    rw [ofUnit_eq hp, Option.map_eq_some_iff] at he
    obtain ⟨u, hu, rfl⟩ := he
    exact ⟨u, hu, Except.ok.inj ((of_packaged? hu).2.1.symm.trans hp), rfl⟩
  · rintro ⟨u, hu, rfl, rfl⟩
    have hp := (of_packaged? hu).2.1
    exact ⟨hp, by rw [ofUnit_eq hp, hu, Option.map_some]⟩

lemma Extracts.declarations_eq {e : Extraction} (h : input.Extracts module unit e) :
    e.declarations = unit.items.filterMap (Item.candidate? input.path) := by
  obtain ⟨u, hu, rfl, rfl⟩ := extracts_iff.mp h
  rw [← (of_packaged? hu).1]
  rfl

end UnitInput

namespace Scope

variable {s : Scope} {f : Func}

lemma key?_of_mem_callsOf {call : Call} (h : call ∈ s.callsOf f) : f.key? s.package = some call.caller := by
  rw [callsOf] at h
  split at h
  next => cases h
  next caller hk =>
    obtain ⟨_, _, rfl⟩ := List.mem_map.mp h
    exact hk

lemma callsOf_of_key?_eq_none (h : f.key? s.package = none) : s.callsOf f = [] := by
  simp [callsOf, h]

lemma resolve_of_no_owner {base path : String} (member : String) (hi : s.imports.get? base = some path)
    (ho : s.registry.owner? path = none) :
    s.resolve (.selector (.name base) member) = some (.function ⟨path, Path.lastSegment path⟩ member) := by
  simp [resolve, Expr.calleeShape, hi, importedPackage, ho]

end Scope

namespace CallGraph

lemma link_missingEndpoint_iff (g : CallGraph) (call : Call) : (g.link call).2 = .missingEndpoint ↔
    g.registry.contains call.caller = false ∨ g.registry.contains call.callee = false := by
  cases hi : g.registry.declarationId? call.caller with
  | none => simp [link, addEdge, Registry.contains, hi]
  | some i =>
    cases hj : g.registry.declarationId? call.callee with
    | none => simp [link, addEdge, Registry.contains, hi, hj]
    | some j =>
      simp only [link, addEdge, Registry.contains, hi, hj]
      split
      · simp
      · split <;> simp

lemma contains_linkAll (g : CallGraph) (calls : List Call) (key : SymbolKey) :
    (g.linkAll calls).registry.contains key = g.registry.contains key := by
  rw [Registry.contains, declarationId?_of_bare_eq (linkAll_bare g calls), Registry.contains]

end CallGraph

section Units

variable {us : List PackagedUnit} {u : PackagedUnit}

lemma contains_registryOf_iff {key : SymbolKey} : (registryOf us).contains key = true ↔
    ∃ u ∈ us, ∃ c ∈ u.candidates, c.key u.package = key := by
  rw [(registryOf_wellFormed us).contains_iff, mem_registryOf_declarationKeys]
  simp only [declared, PackagedUnit.declared, List.mem_flatMap, List.mem_map]
  constructor
  · rintro ⟨x, ⟨u, hu, c, hc, rfl⟩, rfl⟩
    exact ⟨u, hu, c, hc, rfl⟩
  · rintro ⟨u, hu, c, hc, rfl⟩
    exact ⟨_, ⟨u, hu, c, hc, rfl⟩, rfl⟩

lemma contains_caller (hu : u ∈ us) {r : Registry} {call : Call}
    (hcall : call ∈ (u.scope r).calls u.unit) : (registryOf us).contains call.caller = true := by
  obtain ⟨f, hf, hcall⟩ := List.mem_flatMap.mp hcall
  have hkey := Scope.key?_of_mem_callsOf hcall
  rw [← Item.candidate?_key u.path, Option.map_eq_some_iff] at hkey
  obtain ⟨c, hc, hkey⟩ := hkey
  have hmem : c ∈ u.candidates := List.mem_filterMap.mpr ⟨_, SourceUnit.mem_funcs.mp hf, hc⟩
  exact contains_registryOf_iff.mpr ⟨u, hu, c, hmem, hkey⟩

lemma owner?_eq_none_of_forall {path : String} (h : ∀ q ∈ (registryOf us).packages, q.key.path ≠ path) :
    (registryOf us).owner? path = none := by
  have hfirst := registryOf_ownerKey? us path
  rw [Registry.packageKeys, firstAt_eq_none_iff.mpr (List.forall_mem_map.mpr h)] at hfirst
  exact Option.map_eq_none_iff.mp hfirst

end Units

namespace Analysis

variable {module : Option String} {inputs : List UnitInput}

lemma contains_caller_of_mem_calls {call : Call} (h : call ∈ (extractAll module inputs).calls) :
    (extractAll module inputs).registry.contains call.caller = true := by
  rw [Progress.calls, extractAll_registry, extractAll_units, List.flatMap_map, List.mem_flatMap] at h
  obtain ⟨u, hu, hcall⟩ := h
  rw [extractAll_registry]
  exact contains_caller hu hcall

lemma contains_extractAll_iff {key : SymbolKey} : (extractAll module inputs).registry.contains key = true ↔
    ∃ input ∈ inputs, ∃ unit e, input.Extracts module unit e ∧
      ∃ c ∈ e.declarations, c.key e.package = key := by
  rw [extractAll_registry, contains_registryOf_iff]
  constructor
  · rintro ⟨u, hu, c, hc, hkey⟩
    obtain ⟨input, hinput, hu⟩ := List.mem_filterMap.mp hu
    exact ⟨input, hinput, u.unit, u.extraction, UnitInput.extracts_iff.mpr ⟨u, hu, rfl, rfl⟩, c, hc, hkey⟩
  · rintro ⟨input, hinput, unit, e, he, c, hc, hkey⟩
    obtain ⟨u, hu, rfl, rfl⟩ := UnitInput.extracts_iff.mp he
    exact ⟨u, List.mem_filterMap.mpr ⟨input, hinput, hu⟩, c, hc, hkey⟩

lemma mem_units_of_extracts {input : UnitInput} (hinput : input ∈ inputs) {unit : SourceUnit}
    {e : Extraction} (he : input.Extracts module unit e) :
    (e.package, unit) ∈ (extractAll module inputs).units := by
  obtain ⟨u, hu, rfl, rfl⟩ := UnitInput.extracts_iff.mp he
  rw [extractAll_units]
  exact List.mem_map.mpr ⟨u, List.mem_filterMap.mpr ⟨input, hinput, hu⟩, rfl⟩

end Analysis

open Analysis in
theorem callers_are_registered (module : Option String) (inputs : List UnitInput) :
    let p := extractAll module inputs
    (∀ call ∈ p.calls, p.registry.contains call.caller = true) ∧
    (∀ before call after, p.calls = before ++ call :: after →
      ((((CallGraph.ofRegistry p.registry).linkAll before).link call).2 = .missingEndpoint ↔
        p.registry.contains call.callee = false)) ∧
    (∀ key, p.registry.contains key = true ↔ ∃ input ∈ inputs, ∃ unit e, input.Extracts module unit e ∧
      ∃ c ∈ e.declarations, c.key e.package = key) ∧
    (∀ input ∈ inputs, ∀ unit e, input.Extracts module unit e → (e.package, unit) ∈ p.units ∧
      e.declarations = unit.items.filterMap (Item.candidate? input.path) ∧
      ∀ f : Func,
        ((Item.func f).candidate? input.path).map (·.key e.package) = f.key? e.package ∧
        ((Item.func f).candidate? input.path = none ↔ f.receiver = some ⟨none⟩) ∧
        (f.key? e.package = none → ∀ imports, Scope.callsOf ⟨p.registry, e.package, imports⟩ f = [])) ∧
    ∀ (package : PackageKey) (imports : ImportMap) (base path member : String),
      imports.get? base = some path → (∀ q ∈ p.registry.packages, q.key.path ≠ path) →
      let guess := SymbolKey.function ⟨path, Path.lastSegment path⟩ member
      Scope.resolve ⟨p.registry, package, imports⟩ (.selector (.name base) member) = some guess ∧
      p.registry.contains guess = false := by
  intro p
  refine ⟨fun call => contains_caller_of_mem_calls, ?_, fun key => contains_extractAll_iff, ?_, ?_⟩
  · intro before call after hcalls
    have hcaller : p.registry.contains call.caller = true :=
      contains_caller_of_mem_calls (hcalls ▸ List.mem_append_right before List.mem_cons_self)
    rw [CallGraph.link_missingEndpoint_iff, CallGraph.contains_linkAll, CallGraph.contains_linkAll]
    simp [CallGraph.ofRegistry, hcaller]
  · intro input hinput unit e he
    refine ⟨mem_units_of_extracts hinput he, he.declarations_eq, ?_⟩
    intro f
    exact ⟨Item.candidate?_key _ _ f, Item.candidate?_eq_none_iff _ f,
      fun hkey imports => Scope.callsOf_of_key?_eq_none hkey⟩
  · intro package imports base path member hbase hpath guess
    have hr : p.registry = registryOf (packagedUnits module inputs) := extractAll_registry module inputs
    rw [hr] at hpath ⊢
    have ho := owner?_eq_none_of_forall hpath
    refine ⟨Scope.resolve_of_no_owner member hbase ho, ?_⟩
    rw [← Bool.not_eq_true]
    intro hguess
    exact owner?_of_contains hguess ho

end CallAtlas
