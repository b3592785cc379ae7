import CallAtlas.Proofs.CallEdges

/-! Of the packages at one path, an import means the first regular one, whatever external test packages and
later regular packages share the path. A regular package that comes later can be hidden. -/

namespace CallAtlas

/-- The function `caller` calls `member` of what an import of its unit binds to `path`. -/
def CallsImported (us : List PackagedUnit) (caller : SymbolKey) (path member : String) : Prop :=
  ∃ u ∈ us, ∃ f, .func f ∈ u.unit.items ∧ f.key? u.package = some caller ∧
    ∃ base, (ImportMap.ofImports u.unit.imports).get? base = some path ∧
      ∃ e ∈ f.body, ∃ args, (Expr.call (.selector (.name base) member) args).Within e

namespace Registry

def declaresFunction (r : Registry) (package : PackageKey) (name : String) : Bool :=
  (r.lookup (.function package name)).any (·.kind = .function)

variable {r r' : Registry}

lemma callable_of_declaresFunction {package : PackageKey} {name : String}
    (h : r.declaresFunction package name = true) : r.callable (.function package name) = true := by
  rw [declaresFunction, Option.any_eq_true] at h
  rw [callable, Option.any_eq_true]
  obtain ⟨d, hd, hk⟩ := h
  refine ⟨d, hd, ?_⟩
  rw [of_decide_eq_true hk]
  rfl

lemma callable_of_bare_eq (hb : r'.bare = r.bare) (key : SymbolKey) : r'.callable key = r.callable key := by
  have hg : (CallGraph.ofRegistry r').registry.bare = (CallGraph.ofRegistry r).registry.bare := hb
  have hid : r'.declarationId? key = r.declarationId? key := CallGraph.declarationId?_of_bare_eq hg key
  rw [Bool.eq_iff_iff, callable_iff, callable_iff, hid]
  simp only [CallGraph.isCallable_of_bare_eq hg]

end Registry

lemma linked_callable (us : List PackagedUnit) (key : SymbolKey) :
    (linked us).registry.callable key = seenCallable us key := by
  rw [Registry.callable_of_bare_eq (linked_bare us), registryOf_callable]

lemma owner?_of_first_regular {us : List PackagedUnit} {path : String} {k : PackageKey}
    (h : (us.map (·.package)).find? (fun l => decide (l.path = path) && !l.isExternalTest) = some k) :
    ∃ p, (registryOf us).owner? path = some p ∧ p.key = k := by
  have hfirst := registryOf_ownerKey? us path
  rw [firstAt, find?_packageKeys, h, Option.some_or] at hfirst
  exact Option.map_eq_some_iff.mp hfirst

theorem first_regular_package_is_imported (rootName : String) (module : Option String)
    (inputs : List UnitInput) {caller : SymbolKey} {path member : String} {k : PackageKey}
    (hcall : CallsImported (packagedUnits module inputs) caller path member)
    (hcaller : (analyze rootName module inputs).registry.callable caller = true)
    (hmember : (analyze rootName module inputs).registry.declaresFunction k member = true)
    (hfirst : ((packagedUnits module inputs).map (·.package)).find?
      (fun l => decide (l.path = path) && !l.isExternalTest) = some k) :
    (caller, .function k member) ∈ (analyze rootName module inputs).graph.edgeKeys := by
  have hcallee := Registry.callable_of_declaresFunction hmember
  rw [CodeModel.registry, analyze_graph, linked_callable] at hcaller hcallee
  rw [analyze_graph, mem_linked_edgeKeys]
  obtain ⟨u, hu, f, hf, hkey, base, hbase, hcall⟩ := hcall
  obtain ⟨p, hp, rfl⟩ := owner?_of_first_regular hfirst
  exact ⟨⟨u, f, _⟩, mem_sites.mpr ⟨hu, hf, hcall⟩, hkey, .imported member hbase hp, hcaller, hcallee⟩

def importingUnit : SourceUnit :=
  ⟨some "main", [⟨none, "m/lib"⟩], [.func ⟨"main", none, 5, [.call (.selector (.name "lib") "Do") []]⟩], 5⟩

/-- A directory that holds a generator, a library and an external test of it, and a program that imports
the library. -/
def sharedDirectory : List UnitInput :=
  [⟨"lib/gen.go", .ok ⟨some "main", [], [.func ⟨"main", none, 3, []⟩], 3⟩⟩,
   ⟨"lib/lib.go", .ok ⟨some "lib", [], [.func ⟨"Do", none, 3, []⟩], 3⟩⟩,
   ⟨"main.go", .ok importingUnit⟩,
   ⟨"lib/a_test.go", .ok ⟨some "lib_test", [], [.func ⟨"TestDo", none, 3, []⟩], 3⟩⟩]

lemma importingUnit_calls {inputs : List UnitInput} (h : ⟨"main.go", .ok importingUnit⟩ ∈ inputs) :
    CallsImported (packagedUnits (some "m") inputs) (.function ⟨"m", "main"⟩ "main") "m/lib" "Do" := by
  have hpath : Path.package (some "m") (Path.unitDir "main.go") = "m" := by decide +kernel
  have hpackaged : UnitInput.packaged? (some "m") ⟨"main.go", .ok importingUnit⟩ =
      some ⟨"main.go", ⟨"m", "main"⟩, importingUnit⟩ := by
    simp [UnitInput.packaged?, importingUnit, hpath]
  exact ⟨_, List.mem_filterMap.mpr ⟨_, h, hpackaged⟩, _, List.mem_singleton.mpr rfl, rfl, "lib",
    by decide +kernel, _, List.mem_singleton.mpr rfl, [], .here⟩

theorem sharedDirectory_reversed :
    let m := analyze "repo" (some "m") sharedDirectory.reverse
    m.registry.callable (.function ⟨"m", "main"⟩ "main") = true ∧
    m.registry.declaresFunction ⟨"m/lib", "lib"⟩ "Do" = true ∧
    ((packagedUnits (some "m") sharedDirectory.reverse).map (·.package)).find?
      (fun l => decide (l.path = "m/lib") && !l.isExternalTest) = some ⟨"m/lib", "lib"⟩ ∧
    (.function ⟨"m", "main"⟩ "main", .function ⟨"m/lib", "lib"⟩ "Do") ∈ m.graph.edgeKeys := by
  have hcaller : (analyze "repo" (some "m") sharedDirectory.reverse).registry.callable
      (.function ⟨"m", "main"⟩ "main") = true := by decide +kernel
  have hmember : (analyze "repo" (some "m") sharedDirectory.reverse).registry.declaresFunction
      ⟨"m/lib", "lib"⟩ "Do" = true := by decide +kernel
  have hfirst : ((packagedUnits (some "m") sharedDirectory.reverse).map (·.package)).find?
      (fun l => decide (l.path = "m/lib") && !l.isExternalTest) = some ⟨"m/lib", "lib"⟩ := by decide +kernel
  exact ⟨hcaller, hmember, hfirst, first_regular_package_is_imported "repo" (some "m")
    sharedDirectory.reverse (importingUnit_calls (by simp [sharedDirectory])) hcaller hmember hfirst⟩

theorem generator_hides_library :
    ¬ ∀ (rootName : String) (module : Option String) (inputs : List UnitInput) (caller : SymbolKey)
        (path member : String) (k : PackageKey),
      let r := (analyze rootName module inputs).registry
      CallsImported (packagedUnits module inputs) caller path member → r.callable caller = true →
      k ∈ r.packageKeys → k.path = path → k.isExternalTest = false →
      r.declaresFunction k member = true →
      (∀ l ∈ r.packageKeys, l.path = path → r.declaresFunction l member = true → l = k) →
      (caller, .function k member) ∈ (analyze rootName module inputs).graph.edgeKeys := by
  intro h
  have hedge := h "repo" (some "m") sharedDirectory (.function ⟨"m", "main"⟩ "main") "m/lib" "Do"
    ⟨"m/lib", "lib"⟩ (importingUnit_calls (by simp [sharedDirectory])) (by decide +kernel)
    (by decide +kernel) rfl (by decide +kernel) (by decide +kernel) (by decide +kernel)
  -- the generator owns the path, and declares no such function
  have hnone : (analyze "repo" (some "m") sharedDirectory).graph.edgeKeys = [] := by decide +kernel
  rw [hnone] at hedge
  cases hedge

end CallAtlas
