import CallAtlas.Proofs.CallEdges

/-! A unit that cannot be read, or has no package name, changes three counters and nothing else. -/

namespace CallAtlas

lemma packagedUnits_filter (module : Option String) (inputs : List UnitInput) :
    packagedUnits module (inputs.filter (·.hasPackage)) = packagedUnits module inputs := by
  rw [packagedUnits, List.filterMap_filter, packagedUnits]
  congr 1
  funext input
  cases hu : input.packaged? module with
  | none => simp
  | some u =>
    have hp := input.packaged?_isSome module
    rw [hu, Option.isSome_some] at hp
    rw [← hp, if_pos rfl]

lemma tallied_filter (module : Option String) (inputs : List UnitInput) :
    tallied module (inputs.filter (·.hasPackage)) =
      { tallied module inputs with
        units := (inputs.filter (·.hasPackage)).length
        parseFailures := 0
        skippedUnits := 0 } := by
  have hfailed : (inputs.filter (·.hasPackage)).countP (!·.parsed.isOk) = 0 := by
    rw [List.countP_eq_zero]
    intro input hi
    simp [UnitInput.isOk_of_hasPackage (List.mem_filter.mp hi).2]
  have hskipped : (inputs.filter (·.hasPackage)).countP
      (fun input => input.parsed.isOk && (input.packaged? module).isNone) = 0 := by
    rw [List.countP_eq_zero]
    intro input hi
    have hp := (input.packaged?_isSome module).trans (List.mem_filter.mp hi).2
    simp [← Option.not_isSome, hp]
  simp only [tallied, packagedUnits_filter, hfailed, hskipped]

lemma tally_filter (module : Option String) (inputs : List UnitInput) :
    (Analysis.extractAll module (inputs.filter (·.hasPackage))).tally =
      { (Analysis.extractAll module inputs).tally with
        units := (inputs.filter (·.hasPackage)).length
        parseFailures := 0
        skippedUnits := 0 } := by
  obtain ⟨d, htally, hsum⟩ := Analysis.extractAll_tally module inputs
  obtain ⟨d', htally', hsum'⟩ := Analysis.extractAll_tally module (inputs.filter (·.hasPackage))
  -- the same declarations come to the same registry, so as many of them are duplicates
  have hd : d' = d := by
    rw [packagedUnits_filter] at hsum'
    omega
  rw [htally, htally', hd, tallied_filter]

lemma skippedUnits_eq (module : Option String) (inputs : List UnitInput) :
    (tallied module inputs).skippedUnits =
      inputs.countP fun input => input.parsed.isOk && !input.hasPackage := by
  simp only [tallied, ← UnitInput.packaged?_isSome module, Option.not_isSome]

theorem broken_units_are_isolated (rootName : String) (module : Option String) (inputs : List UnitInput) :
    let good := inputs.filter (·.hasPackage)
    let m := analyze rootName module inputs
    let m' := analyze rootName module good
    m.graph = m'.graph ∧ m.entryPoints = m'.entryPoints ∧ m.packageTree = m'.packageTree ∧
    (∀ limit, m.graph.ranked limit = m'.graph.ranked limit) ∧
    m.statistics =
      { m'.statistics with
        units := inputs.length
        parseFailures := inputs.countP (!·.parsed.isOk)
        skippedUnits := inputs.countP fun input => input.parsed.isOk && !input.hasPackage } ∧
    m'.statistics.units = good.length ∧ m'.statistics.parseFailures = 0 ∧
    m'.statistics.skippedUnits = 0 := by
  intro good m m'
  have hgraph : m.graph = m'.graph := by
    rw [analyze_graph, analyze_graph, packagedUnits_filter]
  have hstatistics : m'.statistics =
      { m.statistics with units := good.length, parseFailures := 0, skippedUnits := 0 } := by
    rw [analyze_statistics, analyze_statistics, packagedUnits_filter, tally_filter]
    rfl
  have hregistry : m.registry = m'.registry := congrArg CallGraph.registry hgraph
  refine ⟨hgraph, ?_, ?_, fun limit => by rw [hgraph], ?_, ?_⟩
  · rw [CodeModel.entryPoints, hregistry, CodeModel.entryPoints]
  · have hnode : m.packageNode = m'.packageNode := by
      funext p
      rw [CodeModel.packageNode, hregistry, CodeModel.packageNode]
    rw [CodeModel.packageTree, hregistry, hnode, CodeModel.packageTree]
  · obtain ⟨d, htally, _⟩ := Analysis.extractAll_tally module inputs
    rw [hstatistics, analyze_statistics, htally, ← skippedUnits_eq module]
    rfl
  · rw [hstatistics]
    exact ⟨rfl, rfl, rfl⟩

end CallAtlas
