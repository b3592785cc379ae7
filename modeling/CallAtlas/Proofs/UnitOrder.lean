import CallAtlas.Proofs.CallEdges
import Mathlib.Tactic.MkIffOfInductiveProp

/-! The order of the units changes how packages and declarations are numbered, and nothing else, unless it
decides which of two packages a path means or which of two sorts a key has. -/

namespace CallAtlas

/-- At every path there is at most one regular package, and where there is none, at most one external test
package. -/
@[mk_iff]
structure OnePackageEach (us : List PackagedUnit) : Prop where
  regular : ∀ u ∈ us, ∀ v ∈ us, u.package.path = v.package.path →
    u.package.isExternalTest = false → v.package.isExternalTest = false → u.package = v.package
  test : ∀ u ∈ us, ∀ v ∈ us, u.package.path = v.package.path →
    (∀ w ∈ us, w.package.path = u.package.path → w.package.isExternalTest = true) → u.package = v.package

instance (us : List PackagedUnit) : Decidable (OnePackageEach us) :=
  decidable_of_iff' _ (onePackageEach_iff us)

/-- Declarations with one key are all callable or all not. -/
def OneSortEach (us : List PackagedUnit) : Prop :=
  ∀ x ∈ declared us, ∀ y ∈ declared us, x.1 = y.1 → x.2.kind.isCallable = y.2.kind.isCallable

instance (us : List PackagedUnit) : Decidable (OneSortEach us) :=
  inferInstanceAs (Decidable (∀ x ∈ declared us, ∀ y ∈ declared us, _ → _))

section Permuted

variable {us vs : List PackagedUnit} (hp : us.Perm vs)

include hp

lemma declared_perm : (declared us).Perm (declared vs) := hp.flatMap_right _

lemma sites_perm : (sites us).Perm (sites vs) := hp.flatMap_right _

lemma packageKeys_perm : (registryOf us).packageKeys.Perm (registryOf vs).packageKeys := by
  refine (List.perm_ext_iff_of_nodup (registryOf_wellFormed us).package_keys_nodup
    (registryOf_wellFormed vs).package_keys_nodup).mpr ?_
  intro k
  change k ∈ (registryOf us).packageKeys ↔ k ∈ (registryOf vs).packageKeys
  simp only [mem_registryOf_packageKeys, hp.mem_iff]

lemma declarationKeys_perm : (registryOf us).declarationKeys.Perm (registryOf vs).declarationKeys := by
  refine (List.perm_ext_iff_of_nodup (registryOf_wellFormed us).declaration_keys_nodup
    (registryOf_wellFormed vs).declaration_keys_nodup).mpr ?_
  intro key
  change key ∈ (registryOf us).declarationKeys ↔ key ∈ (registryOf vs).declarationKeys
  simp only [mem_registryOf_declarationKeys, (declared_perm hp).mem_iff]

end Permuted

variable {us vs : List PackagedUnit}

lemma OneSortEach.perm (h : OneSortEach us) (hp : us.Perm vs) : OneSortEach vs := by
  intro x hx y hy
  have hd := fun z => (declared_perm hp).mem_iff (a := z)
  exact h x ((hd x).mpr hx) y ((hd y).mpr hy)

lemma seenCallable_iff (h : OneSortEach us) {key : SymbolKey} : seenCallable us key = true ↔
    ∃ x ∈ declared us, x.1 = key ∧ x.2.kind.isCallable = true := by
  rw [seenCallable, Option.any_eq_true]
  constructor
  · rintro ⟨x, hx, hc⟩
    exact ⟨x, List.mem_of_find?_eq_some hx, by simpa using List.find?_some hx, hc⟩
  · rintro ⟨x, hx, rfl, hc⟩
    -- another declaration may come before this one, but it is callable too
    obtain ⟨y, hy⟩ : ∃ y, (declared us).find? (·.1 = x.1) = some y :=
      Option.isSome_iff_exists.mp (List.find?_isSome.mpr ⟨x, hx, by simp⟩)
    have hk : y.1 = x.1 := by simpa using List.find?_some hy
    exact ⟨y, hy, (h y (List.mem_of_find?_eq_some hy) x hx hk).trans hc⟩

lemma seenCallable_perm (h : OneSortEach us) (hp : us.Perm vs) (key : SymbolKey) :
    seenCallable us key = seenCallable vs key := by
  rw [Bool.eq_iff_iff, seenCallable_iff h, seenCallable_iff (h.perm hp)]
  simp only [(declared_perm hp).mem_iff]

lemma OnePackageEach.unique (h : OnePackageEach us) {k l : PackageKey}
    (hk : k ∈ (registryOf us).packageKeys) (hl : l ∈ (registryOf us).packageKeys) (hpath : k.path = l.path)
    (hkt : k.isExternalTest = true →
      ∀ m ∈ (registryOf us).packageKeys, m.path = k.path → m.isExternalTest = true)
    (hlt : l.isExternalTest = true →
      ∀ m ∈ (registryOf us).packageKeys, m.path = l.path → m.isExternalTest = true) : k = l := by
  obtain ⟨u, hu, rfl⟩ := (mem_registryOf_packageKeys us k).mp hk
  obtain ⟨v, hv, rfl⟩ := (mem_registryOf_packageKeys us l).mp hl
  cases hut : u.package.isExternalTest with
  | true =>
    apply h.test u hu v hv hpath
    intro w hw
    exact hkt hut w.package ((mem_registryOf_packageKeys us _).mpr ⟨w, hw, rfl⟩)
  | false =>
    apply h.regular u hu v hv hpath hut
    by_contra hvt
    have hut' := hlt (by simpa using hvt) u.package hk hpath
    rw [hut] at hut'
    cases hut'

lemma ownerKey?_perm (h : OnePackageEach us) (hp : us.Perm vs) (path : String) :
    (registryOf us).ownerKey? path = (registryOf vs).ownerKey? path := by
  have hmem := fun k => (packageKeys_perm hp).mem_iff (a := k)
  rw [registryOf_ownerKey?, registryOf_ownerKey?]
  cases hu : firstAt path (registryOf us).packageKeys with
  | none =>
    rw [firstAt_eq_none_iff] at hu
    rw [eq_comm, firstAt_eq_none_iff]
    exact fun k hk => hu k ((hmem k).mpr hk)
  | some k =>
    obtain ⟨hk, rfl, hkt⟩ := firstAt_eq_some hu
    cases hv : firstAt k.path (registryOf vs).packageKeys with
    | none => exact absurd rfl (firstAt_eq_none_iff.mp hv k ((hmem k).mp hk))
    | some l =>
      obtain ⟨hl, hpath, hlt⟩ := firstAt_eq_some hv
      congr 1
      refine h.unique hk ((hmem l).mpr hl) hpath.symm hkt ?_
      intro ht m hm hmp
      exact hlt ht m ((hmem m).mp hm) (hmp.trans hpath)

lemma CallGraph.Consistent.callSiteCount_eq_sum {g : CallGraph} (h : g.Consistent) :
    g.callSiteCount = (g.registry.declarationKeys.map g.callSitesOf).sum := by
  rw [h.callSiteCount_eq, Registry.declarationKeys, List.map_map]
  congr 1
  apply List.map_congr_left
  intro d hd
  have hl : g.registry.lookup d.key = some d := h.wellFormed.lookup_eq_some_iff.mpr ⟨hd, rfl⟩
  simp [callSitesOf, hl]

section Ordered

variable (hs : OneSortEach us) (ho : OnePackageEach us) (hp : us.Perm vs)

include hs ho hp

lemma links_perm (x : Site) (a b : SymbolKey) :
    x.Links (registryOf us) us a b ↔ x.Links (registryOf vs) vs a b := by
  have howner := ownerKey?_perm ho hp
  have hseen := seenCallable_perm hs hp
  constructor
  · rintro ⟨ha, hb, hca, hcb⟩
    exact ⟨ha, hb.mono fun ho => (howner _).symm.trans ho, hseen a ▸ hca, hseen b ▸ hcb⟩
  · rintro ⟨ha, hb, hca, hcb⟩
    exact ⟨ha, hb.mono fun ho => (howner _).trans ho, hseen a ▸ hca, hseen b ▸ hcb⟩

lemma edgeKeys_perm : (linked us).edgeKeys.Perm (linked vs).edgeKeys := by
  refine (List.perm_ext_iff_of_nodup (linked_consistent us).edgeKeys_nodup
    (linked_consistent vs).edgeKeys_nodup).mpr ?_
  rintro ⟨a, b⟩
  simp only [mem_linked_edgeKeys, (sites_perm hp).mem_iff, links_perm hs ho hp]

lemma edgeCount_perm : (linked us).edgeCount = (linked vs).edgeCount := by
  have hlen : ∀ ws, (linked ws).edgeCount = (linked ws).edgeKeys.length := by
    intro ws
    rw [← (linked_consistent ws).edges_length, CallGraph.edgeKeys, List.length_map]
  rw [hlen, hlen, (edgeKeys_perm hs ho hp).length_eq]

lemma incomingCount_perm (key : SymbolKey) :
    (linked us).incomingCount key = (linked vs).incomingCount key := by
  rw [(linked_consistent us).incomingCount_eq_countP, (linked_consistent vs).incomingCount_eq_countP,
    (edgeKeys_perm hs ho hp).countP_eq]

lemma callSitesOf_perm (key : SymbolKey) : (linked us).callSitesOf key = (linked vs).callSitesOf key := by
  classical
  rw [linked_callSitesOf, linked_callSitesOf, (sites_perm hp).countP_eq]
  simp only [links_perm hs ho hp]

lemma callSiteCount_perm : (linked us).callSiteCount = (linked vs).callSiteCount := by
  have hsum : ∀ ws,
      (linked ws).callSiteCount = ((registryOf ws).declarationKeys.map (linked ws).callSitesOf).sum := by
    intro ws
    rw [(linked_consistent ws).callSiteCount_eq_sum, Registry.declarationKeys_of_bare_eq (linked_bare ws)]
  rw [hsum, hsum, funext (callSitesOf_perm hs ho hp)]
  exact ((declarationKeys_perm hp).map _).sum_nat

end Ordered

section Inputs

variable {inputs inputs' : List UnitInput} (hp : inputs.Perm inputs') (module : Option String)

include hp

lemma packagedUnits_perm : (packagedUnits module inputs).Perm (packagedUnits module inputs') :=
  hp.filterMap _

lemma tallied_perm : tallied module inputs = tallied module inputs' := by
  have hu := packagedUnits_perm hp module
  simp only [tallied, hp.length_eq, hu.length_eq, hp.countP_eq, hu.countP_eq, (hu.map _).sum_nat]

lemma tally_perm : (Analysis.extractAll module inputs).tally = (Analysis.extractAll module inputs').tally := by
  have hu := packagedUnits_perm hp module
  obtain ⟨d, htally, hsum⟩ := Analysis.extractAll_tally module inputs
  obtain ⟨d', htally', hsum'⟩ := Analysis.extractAll_tally module inputs'
  -- what is no duplicate is registered, so the duplicates are what is left over
  have hd : d = d' := by
    have hkeys := (declarationKeys_perm hu).length_eq
    have hdeclared := (declared_perm hu).length_eq
    simp only [Registry.declarationKeys, List.length_map] at hkeys
    omega
  rw [htally, htally', tallied_perm hp, hd]

lemma statistics_perm {module : Option String} (hs : OneSortEach (packagedUnits module inputs))
    (ho : OnePackageEach (packagedUnits module inputs)) (rootName rootName' : String) :
    (analyze rootName module inputs).statistics = (analyze rootName' module inputs').statistics := by
  have hu := packagedUnits_perm hp module
  rw [analyze_statistics, analyze_statistics]
  simp only [Statistics.ofGraph, linked_packages_length, linked_declarations_length, tally_perm hp,
    (packageKeys_perm hu).length_eq, (declarationKeys_perm hu).length_eq, edgeCount_perm hs ho hu,
    callSiteCount_perm hs ho hu]

end Inputs

theorem unit_order_is_immaterial (rootName rootName' : String) (module : Option String)
    {inputs inputs' : List UnitInput} (hp : inputs.Perm inputs')
    (hs : OneSortEach (packagedUnits module inputs)) (ho : OnePackageEach (packagedUnits module inputs)) :
    let m := analyze rootName module inputs
    let m' := analyze rootName' module inputs'
    m.graph.edgeKeys.Perm m'.graph.edgeKeys ∧
    m.registry.declarationKeys.Perm m'.registry.declarationKeys ∧
    m.registry.packageKeys.Perm m'.registry.packageKeys ∧
    (∀ key, m.graph.incomingCount key = m'.graph.incomingCount key ∧
      m.graph.callSitesOf key = m'.graph.callSitesOf key) ∧
    m.statistics = m'.statistics := by
  have hu := packagedUnits_perm hp module
  have hkeys : ∀ ws, (linked ws).registry.declarationKeys = (registryOf ws).declarationKeys ∧
      (linked ws).registry.packageKeys = (registryOf ws).packageKeys :=
    fun ws => ⟨Registry.declarationKeys_of_bare_eq (linked_bare ws),
      Registry.packageKeys_of_bare_eq (linked_bare ws)⟩
  refine ⟨?_, ?_, ?_, ?_, statistics_perm hp hs ho rootName rootName'⟩
  · rw [analyze_graph, analyze_graph]
    exact edgeKeys_perm hs ho hu
  · rw [CodeModel.registry, CodeModel.registry, analyze_graph, analyze_graph, (hkeys _).1, (hkeys _).1]
    exact declarationKeys_perm hu
  · rw [CodeModel.registry, CodeModel.registry, analyze_graph, analyze_graph, (hkeys _).2, (hkeys _).2]
    exact packageKeys_perm hu
  · intro key
    rw [analyze_graph, analyze_graph]
    exact ⟨incomingCount_perm hs ho hu key, callSitesOf_perm hs ho hu key⟩

/-- A package with one `F` too many, its external test, and a unit that cannot be read. -/
def testedPackage : List UnitInput :=
  [⟨"x/f.go", .ok ⟨some "p", [], [.func ⟨"F", none, 3, [.call (.name "G") []]⟩], 4⟩⟩,
   ⟨"x/broken.go", .error (.malformed 1 1)⟩,
   ⟨"x/g.go", .ok ⟨some "p", [], [.func ⟨"G", none, 3, []⟩, .func ⟨"F", none, 7, []⟩], 8⟩⟩,
   ⟨"x/f_test.go", .ok ⟨some "p_test", [⟨none, "m/x"⟩],
      [.func ⟨"TestF", none, 5, [.call (.selector (.name "x") "F") []]⟩], 7⟩⟩]

theorem testedPackage_reversed :
    let us := packagedUnits (some "m") testedPackage
    let m := analyze "r" (some "m") testedPackage
    let m' := analyze "r" (some "m") testedPackage.reverse
    OneSortEach us ∧ OnePackageEach us ∧ m.statistics.callEdges = 2 ∧
    m.graph.edgeKeys.Perm m'.graph.edgeKeys ∧
    m.registry.declarationKeys.Perm m'.registry.declarationKeys ∧
    m.registry.packageKeys.Perm m'.registry.packageKeys ∧
    (∀ key, m.graph.incomingCount key = m'.graph.incomingCount key ∧
      m.graph.callSitesOf key = m'.graph.callSitesOf key) ∧
    m.statistics = m'.statistics := by
  have hs : OneSortEach (packagedUnits (some "m") testedPackage) := by decide +kernel
  have ho : OnePackageEach (packagedUnits (some "m") testedPackage) := by decide +kernel
  exact ⟨hs, ho, by decide +kernel,
    unit_order_is_immaterial "r" "r" (some "m") (List.reverse_perm testedPackage).symm hs ho⟩

end CallAtlas
