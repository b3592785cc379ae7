import CallAtlas.Proofs.CallEdges
import Mathlib.Algebra.Order.BigOperators.Group.List
import Mathlib.Algebra.Order.Group.Nat
import Mathlib.Data.List.Dedup

/-! The counters of an analysis balance: every unit and every declaration is counted in exactly one place. -/

namespace CallAtlas

def UnitCounts.total (c : UnitCounts) : Nat :=
  c.functions + c.methods + c.structs + c.interfaces + c.otherTypes

/-- A method that is counted but cannot be declared. -/
def Func.isUnkeyed (f : Func) : Bool := f.receiver.any (·.base.isNone)

namespace Item

def isUnkeyed : Item → Bool
  | .func f => f.isUnkeyed
  | _ => false

lemma total_count (file : String) (c : UnitCounts) (item : Item) : (item.count c).total =
    c.total + (item.candidate? file).toList.length + if item.isUnkeyed then 1 else 0 := by
  cases item with
  | func f =>
    obtain ⟨name, _ | ⟨_ | base⟩, line, body⟩ := f <;>
      simp [count, candidate?, isUnkeyed, Func.isUnkeyed, UnitCounts.total] <;> omega
  | type name shape line =>
    cases shape <;> simp [count, candidate?, isUnkeyed, UnitCounts.total] <;> omega
  | value calls => simp [count, candidate?, isUnkeyed]

lemma total_foldl_count (file : String) (items : List Item) (c : UnitCounts) :
    (items.foldl count c).total =
      c.total + (items.filterMap (candidate? file)).length + items.countP isUnkeyed := by
  induction items generalizing c with
  | nil => rfl
  | cons item items ih =>
    have hitem := total_count file c item
    rw [List.foldl_cons, ih, hitem, List.countP_cons, List.filterMap_cons]
    cases item.candidate? file with
    | none =>
      simp only [Option.toList_none, List.length_nil]
      omega
    | some d =>
      simp only [Option.toList_some, List.length_cons, List.length_nil]
      omega

end Item

lemma SourceUnit.countP_funcs (unit : SourceUnit) :
    unit.funcs.countP (·.isUnkeyed) = unit.items.countP Item.isUnkeyed := by
  rw [funcs, List.countP_filterMap]
  congr 1
  funext item
  cases item <;> rfl

lemma PackagedUnit.total_counts (u : PackagedUnit) :
    u.counts.total = u.declared.length + u.unit.funcs.countP (·.isUnkeyed) := by
  rw [counts, Item.total_foldl_count u.path, SourceUnit.countP_funcs, declared, List.length_map]
  simp [UnitCounts.total, candidates]

lemma sum_total_counts (us : List PackagedUnit) : (us.map (·.counts.total)).sum =
    (declared us).length + (us.flatMap (·.unit.funcs)).countP (·.isUnkeyed) := by
  induction us with
  | nil => rfl
  | cons u us ih =>
    have hdeclared : declared (u :: us) = u.declared ++ declared us := List.flatMap_cons
    rw [List.map_cons, List.sum_cons, ih, u.total_counts, hdeclared, List.length_append, List.flatMap_cons,
      List.countP_append]
    omega

lemma tallied_total (module : Option String) (inputs : List UnitInput) :
    let t := tallied module inputs
    t.functions + t.methods + t.structs + t.interfaces + t.otherTypes =
      ((packagedUnits module inputs).map (·.counts.total)).sum := by
  simp only [tallied, UnitCounts.total, List.sum_map_add]

lemma tallied_units (module : Option String) (inputs : List UnitInput) :
    let t := tallied module inputs
    t.units = t.parsedUnits + t.parseFailures + t.skippedUnits := by
  simp only [tallied]
  induction inputs using List.reverseRecOn with
  | nil => rfl
  | append_singleton inputs input ih =>
    rw [List.length_append, List.length_singleton, Analysis.packagedUnits_snoc, List.length_append,
      List.countP_append, List.countP_append, List.countP_singleton, List.countP_singleton, ih]
    cases hu : input.packaged? module with
    | none =>
      cases input.parsed.isOk <;> simp <;> omega
    | some u =>
      have hok : input.parsed.isOk = true := by
        apply UnitInput.isOk_of_hasPackage
        rw [← input.packaged?_isSome module, hu]
        rfl
      simp [hok]
      omega

lemma length_eq_dedup_length {α : Type} [DecidableEq α] {keys all : List α} (hn : keys.Nodup)
    (h : ∀ k, k ∈ keys ↔ k ∈ all) : keys.length = all.dedup.length := by
  refine ((List.perm_ext_iff_of_nodup hn all.nodup_dedup).mpr ?_).length_eq
  intro k
  rw [List.mem_dedup, h]

lemma packageKeys_length (us : List PackagedUnit) :
    (registryOf us).packageKeys.length = (us.map (·.package)).dedup.length := by
  have hn : (registryOf us).packageKeys.Nodup := (registryOf_wellFormed us).package_keys_nodup
  apply length_eq_dedup_length hn
  intro k
  rw [mem_registryOf_packageKeys, List.mem_map]

lemma declarationKeys_length (us : List PackagedUnit) :
    (registryOf us).declarationKeys.length = ((declared us).map (·.1)).dedup.length := by
  have hn : (registryOf us).declarationKeys.Nodup := (registryOf_wellFormed us).declaration_keys_nodup
  apply length_eq_dedup_length hn
  intro key
  rw [mem_registryOf_declarationKeys, List.mem_map]

namespace CallGraph

variable {g : CallGraph}

lemma Counted.edgeCount_le (h : g.Counted) (hg : g.Consistent) : g.edgeCount ≤ g.callSiteCount := by
  rw [hg.edgeCount_calledBy, hg.callSiteCount_eq]
  apply List.sum_le_sum
  intro d hd
  obtain ⟨i, hi⟩ := List.mem_iff_getElem?.mp hd
  have hi' : g.registry.declaration? i = some d := hi
  have hle := h i
  rwa [calledByAt_eq hi', callSitesAt, hi'] at hle

end CallGraph

lemma linked_counted (us : List PackagedUnit) : (linked us).Counted := by
  apply CallGraph.Counted.linkAll
  intro i
  rw [CallGraph.calledByAt_ofRegistry (registryOf_bare us), List.length_nil]
  exact Nat.zero_le _

theorem statistics_balance (rootName : String) (module : Option String) (inputs : List UnitInput) :
    let us := packagedUnits module inputs
    let m := analyze rootName module inputs
    let s := m.statistics
    s.units = inputs.length ∧ s.units = s.parsedUnits + s.parseFailures + s.skippedUnits ∧
    s.functions + s.methods + s.structs + s.interfaces + s.otherTypes =
      s.declarations + s.duplicateDeclarations + (us.flatMap (·.unit.funcs)).countP (·.isUnkeyed) ∧
    s.packages = (us.map (·.package)).dedup.length ∧
    s.declarations = ((declared us).map (·.1)).dedup.length ∧
    s.testUnits ≤ s.parsedUnits ∧
    s.callEdges = m.graph.edges.length ∧
    s.callSites = (m.registry.declarations.map (·.callSites)).sum ∧
    s.callEdges ≤ s.callSites := by
  intro us m s
  obtain ⟨d, htally, hd⟩ := Analysis.extractAll_tally module inputs
  have hs : s = .ofGraph (linked us) { tallied module inputs with duplicateDeclarations := d } := by
    rw [← htally]
    exact analyze_statistics rootName module inputs
  have hg : m.graph = linked us := analyze_graph rootName module inputs
  have hn : (linked us).registry.declarations.length = (registryOf us).declarations.length := by
    rw [linked_declarations_length, Registry.declarationKeys, List.length_map]
  have hc := linked_consistent us
  rw [CodeModel.registry, hg, hs]
  refine ⟨rfl, tallied_units module inputs, ?_,
    (linked_packages_length us).trans (packageKeys_length us),
    (linked_declarations_length us).trans (declarationKeys_length us),
    List.countP_le_length, hc.edges_length.symm, hc.callSiteCount_eq, (linked_counted us).edgeCount_le hc⟩
  calc _ = (us.map (·.counts.total)).sum := tallied_total module inputs
    _ = (declared us).length + (us.flatMap (·.unit.funcs)).countP (·.isUnkeyed) := sum_total_counts us
    _ = (linked us).registry.declarations.length + d + _ := by rw [hn, ← hd, Nat.add_comm d]

end CallAtlas
