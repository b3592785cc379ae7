import CallAtlas.Proofs.CallEdges
import Mathlib.Data.List.Perm.Subperm

/-! Further units add packages, declarations and edges and take none away, unless a regular package comes to a
path that an external test package owned. -/

namespace CallAtlas

namespace Registry

structure Extends (r r' : Registry) : Prop where
  packages : r.packages.map (·.bare) <+: r'.packages.map (·.bare)
  declarations : r.declarations <+: r'.declarations

variable {r r' r'' : Registry}

lemma Extends.refl (r : Registry) : r.Extends r := ⟨List.prefix_rfl, List.prefix_rfl⟩

lemma Extends.trans (h : r.Extends r') (h' : r'.Extends r'') : r.Extends r'' :=
  ⟨h.packages.trans h'.packages, h.declarations.trans h'.declarations⟩

lemma extends_register (r : Registry) (key : PackageKey) (dir : String) :
    r.Extends (r.register key dir).1 := by
  obtain ⟨p, _, he⟩ | ⟨_, he⟩ := register_cases r key dir
  · rw [he]
    exact .refl r
  · rw [he]
    refine ⟨?_, List.prefix_rfl⟩
    rw [addPackage, List.map_append]
    exact List.prefix_append _ _

lemma extends_insert (r : Registry) (package : Nat) (c : Candidate) : r.Extends (r.insert package c).1 := by
  refine ⟨(packages_insert r package c).symm ▸ List.prefix_rfl, ?_⟩
  obtain ⟨_, he⟩ | ⟨p, _, ⟨i, _, he⟩ | ⟨_, he⟩⟩ := insert_cases r package c
  · exact he ▸ List.prefix_rfl
  · exact he ▸ List.prefix_rfl
  · exact he ▸ List.prefix_append _ _

lemma extends_run (r : Registry) (ops : List Op) : r.Extends (r.run ops) := by
  induction ops generalizing r with
  | nil => exact .refl r
  | cons op ops ih =>
    refine Extends.trans ?_ (ih (r.apply op))
    cases op with
    | register key dir => exact extends_register r key dir
    | insert package c => exact extends_insert r package c

lemma Extends.packageKeys (h : r.Extends r') : r.packageKeys <+: r'.packageKeys := by
  rw [packageKeys_eq, packageKeys_eq]
  exact h.packages.map _

end Registry

variable {us vs : List PackagedUnit}

lemma registryOf_extends (us vs : List PackagedUnit) : (registryOf us).Extends (registryOf (us ++ vs)) := by
  obtain ⟨ops, hops⟩ := registryOf_append_eq_run us vs
  rw [hops]
  exact Registry.extends_run _ ops

lemma declared_append (us vs : List PackagedUnit) : declared (us ++ vs) = declared us ++ declared vs :=
  List.flatMap_append

lemma sites_append (us vs : List PackagedUnit) : sites (us ++ vs) = sites us ++ sites vs :=
  List.flatMap_append

lemma seenCallable_append (vs : List PackagedUnit) {key : SymbolKey} (h : seenCallable us key = true) :
    seenCallable (us ++ vs) key = true := by
  rw [seenCallable, Option.any_eq_true] at h ⊢
  obtain ⟨x, hx, hc⟩ := h
  exact ⟨x, by rw [declared_append, List.find?_append, hx, Option.some_or], hc⟩

/-- Whether a unit would bring a regular package to a path that an external test package owns. -/
def PackagedUnit.takesOver (r : Registry) (u : PackagedUnit) : Bool :=
  !u.package.isExternalTest && (r.ownerKey? u.package.path).any (·.isExternalTest)

section Grown

variable (h : ∀ v ∈ vs, v.takesOver (registryOf us) = false)

include h

lemma ownerKey?_append {path : String} {k : PackageKey} (hk : (registryOf us).ownerKey? path = some k) :
    (registryOf (us ++ vs)).ownerKey? path = some k := by
  obtain ⟨more, hmore⟩ := (registryOf_extends us vs).packageKeys
  have hnodup : (registryOf (us ++ vs)).packageKeys.Nodup :=
    (registryOf_wellFormed (us ++ vs)).package_keys_nodup
  rw [registryOf_ownerKey?, ← hmore]
  refine firstAt_append ((registryOf_ownerKey? us path).symm.trans hk) ?_
  intro ht l hl hpath
  -- a package that is new comes from one of the further units
  have hnew : l ∉ (registryOf us).packageKeys := by
    intro hold
    rw [← hmore] at hnodup
    exact (List.nodup_append.mp hnodup).2.2 l hold l hl rfl
  have hmem : l ∈ (registryOf (us ++ vs)).packageKeys := by
    rw [← hmore]
    exact List.mem_append_right _ hl
  obtain ⟨v, hv, rfl⟩ := (mem_registryOf_packageKeys _ _).mp hmem
  rcases List.mem_append.mp hv with hv | hv
  · exact absurd ((mem_registryOf_packageKeys us _).mpr ⟨v, hv, rfl⟩) hnew
  · have hstays := h v hv
    rw [PackagedUnit.takesOver, hpath, hk, Option.any_some, ht, Bool.and_true] at hstays
    simpa using hstays

lemma links_append {x : Site} {a b : SymbolKey} (hx : x.Links (registryOf us) us a b) :
    x.Links (registryOf (us ++ vs)) (us ++ vs) a b :=
  ⟨hx.caller_key, hx.callee_key.mono (ownerKey?_append h), seenCallable_append vs hx.caller_callable,
    seenCallable_append vs hx.callee_callable⟩

lemma edgeKeys_append : (linked us).edgeKeys ⊆ (linked (us ++ vs)).edgeKeys := by
  rintro ⟨a, b⟩ hab
  obtain ⟨x, hx, hl⟩ := mem_linked_edgeKeys.mp hab
  refine mem_linked_edgeKeys.mpr ⟨x, ?_, links_append h hl⟩
  rw [sites_append]
  exact List.mem_append_left _ hx

lemma incomingCount_append (key : SymbolKey) :
    (linked us).incomingCount key ≤ (linked (us ++ vs)).incomingCount key := by
  rw [(linked_consistent us).incomingCount_eq_countP, (linked_consistent (us ++ vs)).incomingCount_eq_countP]
  exact ((linked_consistent us).edgeKeys_nodup.subperm (edgeKeys_append h)).countP_le _

lemma callSitesOf_append (key : SymbolKey) :
    (linked us).callSitesOf key ≤ (linked (us ++ vs)).callSitesOf key := by
  classical
  rw [linked_callSitesOf, linked_callSitesOf, sites_append, List.countP_append]
  refine Nat.le_add_right_of_le (List.countP_mono_left ?_)
  intro x _ hx
  obtain ⟨a, ha⟩ := of_decide_eq_true hx
  exact decide_eq_true ⟨a, links_append h ha⟩

end Grown

lemma linked_ownerKey? (us : List PackagedUnit) (path : String) :
    (linked us).registry.ownerKey? path = (registryOf us).ownerKey? path := by
  obtain ⟨hpackages, _, _, howners, _⟩ := Registry.bare_eq_iff.mp (linked_bare us)
  have hpackage : (linked us).registry.package? = (registryOf us).package? := by
    funext p
    rw [Registry.package?, hpackages, Registry.package?]
  rw [Registry.ownerKey?, Registry.owner?, Registry.ownerId?, howners, hpackage]
  rfl

lemma linked_takesOver (us : List PackagedUnit) (v : PackagedUnit) :
    v.takesOver (linked us).registry = v.takesOver (registryOf us) := by
  rw [PackagedUnit.takesOver, linked_ownerKey?, PackagedUnit.takesOver]

theorem further_units_only_add (rootName : String) (module : Option String) (inputs more : List UnitInput)
    (h : ∀ v ∈ packagedUnits module more, v.takesOver (analyze rootName module inputs).registry = false) :
    let m := analyze rootName module inputs
    let m' := analyze rootName module (inputs ++ more)
    m.registry.declarations.map (·.bare) <+: m'.registry.declarations.map (·.bare) ∧
    m.registry.packages.map (·.bare) <+: m'.registry.packages.map (·.bare) ∧
    m.graph.edgeKeys ⊆ m'.graph.edgeKeys ∧
    ∀ key, m.graph.incomingCount key ≤ m'.graph.incomingCount key ∧
      m.graph.callSitesOf key ≤ m'.graph.callSitesOf key := by
  simp only [CodeModel.registry, analyze_graph, linked_takesOver] at h
  have happend : packagedUnits module (inputs ++ more) =
      packagedUnits module inputs ++ packagedUnits module more := List.filterMap_append
  have hextends := registryOf_extends (packagedUnits module inputs) (packagedUnits module more)
  simp only [CodeModel.registry, analyze_graph, happend]
  refine ⟨?_, ?_, edgeKeys_append h, fun key => ⟨incomingCount_append h key, callSitesOf_append h key⟩⟩
  · rw [(Registry.bare_eq_iff.mp (linked_bare _)).2.1, (Registry.bare_eq_iff.mp (linked_bare _)).2.1]
    exact hextends.declarations.map _
  · rw [(Registry.bare_eq_iff.mp (linked_bare _)).1, (Registry.bare_eq_iff.mp (linked_bare _)).1]
    exact hextends.packages

/-- Tests of a package that is not there yet, and a program that already imports it and another one. -/
def testsFirst : List UnitInput :=
  [⟨"x/a_test.go", .ok ⟨some "x_test", [],
      [.func ⟨"TestF", none, 3, [.call (.name "check") []]⟩, .func ⟨"check", none, 7, []⟩], 8⟩⟩,
   ⟨"main.go", .ok ⟨some "main", [⟨none, "m/x"⟩, ⟨none, "m/y"⟩],
      [.func ⟨"main", none, 5, [.call (.selector (.name "x") "check") [],
        .call (.selector (.name "y") "G") []]⟩], 8⟩⟩]

def laterUnits : List UnitInput :=
  [⟨"x/b_test.go", .ok ⟨some "x_test", [], [.func ⟨"TestG", none, 3, [.call (.name "check") []]⟩], 4⟩⟩,
   ⟨"y/g.go", .ok ⟨some "y", [], [.func ⟨"G", none, 3, []⟩], 3⟩⟩]

theorem testsFirst_grown :
    let m := analyze "r" (some "m") testsFirst
    let m' := analyze "r" (some "m") (testsFirst ++ laterUnits)
    (∀ v ∈ packagedUnits (some "m") laterUnits, v.takesOver m.registry = false) ∧
    m.statistics.callEdges = 2 ∧ m'.statistics.callEdges = 4 ∧
    m.registry.declarations.map (·.bare) <+: m'.registry.declarations.map (·.bare) ∧
    m.registry.packages.map (·.bare) <+: m'.registry.packages.map (·.bare) ∧
    m.graph.edgeKeys ⊆ m'.graph.edgeKeys ∧
    ∀ key, m.graph.incomingCount key ≤ m'.graph.incomingCount key ∧
      m.graph.callSitesOf key ≤ m'.graph.callSitesOf key := by
  have h : ∀ v ∈ packagedUnits (some "m") laterUnits,
      v.takesOver (analyze "r" (some "m") testsFirst).registry = false := by decide +kernel
  exact ⟨h, by decide +kernel, by decide +kernel,
    further_units_only_add "r" (some "m") testsFirst laterUnits h⟩

-- once the package itself comes, the import means it and no longer its tests
example :
    let package : UnitInput := ⟨"x/x.go", .ok ⟨some "x", [], [], 1⟩⟩
    (analyze "r" (some "m") (testsFirst ++ [package])).statistics.callEdges = 1 := by
  decide +kernel

end CallAtlas
