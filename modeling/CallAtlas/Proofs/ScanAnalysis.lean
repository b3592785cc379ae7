import CallAtlas.Proofs.CallEdges
import CallAtlas.Proofs.ProjectScan

/-! What a scan counts and what the analysis of its sources counts agree. -/

namespace CallAtlas

lemma Item.count_isTest (c : UnitCounts) (item : Item) : (item.count c).isTest = c.isTest := by
  cases item with
  | func f => obtain ⟨name, _ | receiver, line, body⟩ := f <;> rfl
  | type name shape line => cases shape <;> rfl
  | value calls => rfl

lemma Item.foldl_count_isTest (items : List Item) (c : UnitCounts) :
    (items.foldl count c).isTest = c.isTest := by
  induction items generalizing c with
  | nil => rfl
  | cons item items ih => rw [List.foldl_cons, ih, count_isTest]

lemma PackagedUnit.counts_isTest (u : PackagedUnit) : u.counts.isTest = isTestPath u.path :=
  Item.foldl_count_isTest _ _

lemma UnitInput.hasPackage_eq (input : UnitInput) :
    input.hasPackage = input.parsed.toOption.any (·.package.any (· ≠ "")) := by
  rw [hasPackage]
  cases input.parsed <;> rfl

lemma tallied_testUnits (module : Option String) (inputs : List UnitInput) :
    (tallied module inputs).testUnits =
      inputs.countP fun input => isTestPath input.path && input.hasPackage := by
  simp only [tallied, packagedUnits, List.countP_filterMap]
  apply List.countP_congr
  intro input _
  rw [← input.packaged?_isSome module]
  cases hu : input.packaged? module with
  | none => simp
  | some u => simp [u.counts_isTest, (UnitInput.of_packaged? hu).1]

namespace Project

/-- The unit of a source that can be read and is accepted. -/
def SourceText.unit? (reader : UnitReader) (x : SourceText) : Option SourceUnit :=
  match x.contents with
  | .ok text => (reader x.path text).toOption
  | .error _ => none

lemma SourceText.input_parsed (reader : UnitReader) (x : SourceText) :
    (x.input reader).parsed.toOption = x.unit? reader := by
  rw [input, unit?]
  cases x.contents <;> rfl

lemma countP_sourcePaths (includesTests : Bool) (found : List Found) (q : String → Bool) :
    (sourcePaths includesTests found).countP q =
      found.countP fun f => q f.path && (f.isGo && (includesTests || !f.isTest)) := by
  rw [sourcePaths, List.countP_map, List.countP_filter]
  rfl

lemma sourcePaths_length (includesTests : Bool) (found : List Found) :
    (sourcePaths includesTests found).length + (if includesTests then 0 else (Census.ofFound found).testFiles) =
      (Census.ofFound found).goFiles := by
  rw [← List.countP_true, countP_sourcePaths]
  cases includesTests with
  | true => simp [Census.ofFound]
  | false =>
    have hgo := List.countP_eq_countP_filter_add found Found.isGo Found.isTest
    have htest : found.countP (fun f => f.isGo && f.isTest) = found.countP Found.isTest := by
      congr 1
      funext f
      simp [f.isTest_eq]
    rw [List.countP_filter, List.countP_filter, htest] at hgo
    simpa [Census.ofFound, Nat.add_comm] using hgo.symm

lemma countP_isTestPath_sourcePaths (includesTests : Bool) (found : List Found) :
    (sourcePaths includesTests found).countP isTestPath =
      if includesTests then (Census.ofFound found).testFiles else 0 := by
  rw [countP_sourcePaths]
  cases includesTests with
  | true => simp [Census.ofFound, ← Found.isTest_eq]
  | false => simp +contextual [Found.isTest_eq]

lemma sources_length_of_scan {disk : Disk Id} {settings : Settings} {path : String} {s : Scan}
    (hs : (scan disk settings path).run.run = .ok s) :
    s.sources.length + (if settings.includesTests then 0 else s.census.testFiles) = s.census.goFiles := by
  obtain ⟨listing, module, _, rfl⟩ := ofListing_of_scan hs
  rw [← List.length_map (f := SourceText.path), paths_ofListing]
  exact sourcePaths_length _ _

lemma countP_isTestPath_of_scan {disk : Disk Id} {settings : Settings} {path : String} {s : Scan}
    (hs : (scan disk settings path).run.run = .ok s) :
    s.sources.countP (isTestPath ·.path) = if settings.includesTests then s.census.testFiles else 0 := by
  obtain ⟨listing, module, _, rfl⟩ := ofListing_of_scan hs
  have hcount := countP_isTestPath_sourcePaths settings.includesTests
    (Found.all settings.skippedDirs listing.entries)
  rwa [← paths_ofListing disk settings path listing module, List.countP_map] at hcount

namespace Scan

variable (reader : UnitReader) (s : Scan)

lemma analyze_tally : ∃ d, (s.analyze reader).statistics =
    .ofGraph (linked (packagedUnits s.module (s.sources.map (SourceText.input reader))))
      { tallied s.module (s.sources.map (SourceText.input reader)) with duplicateDeclarations := d } := by
  obtain ⟨d, htally, _⟩ := Analysis.extractAll_tally s.module (s.sources.map (SourceText.input reader))
  refine ⟨d, ?_⟩
  rw [← htally]
  exact analyze_statistics s.rootName s.module _

lemma analyze_units : (s.analyze reader).statistics.units = s.sources.length := by
  obtain ⟨d, hstats⟩ := s.analyze_tally reader
  rw [hstats]
  exact List.length_map ..

lemma analyze_testUnits : (s.analyze reader).statistics.testUnits = s.sources.countP fun x =>
    isTestPath x.path && (x.unit? reader).any (·.package.any (· ≠ "")) := by
  obtain ⟨d, hstats⟩ := s.analyze_tally reader
  rw [hstats]
  refine (tallied_testUnits _ _).trans ?_
  rw [List.countP_map]
  congr 1
  funext x
  rw [Function.comp_apply, UnitInput.hasPackage_eq, SourceText.input_parsed]
  rfl

lemma analyze_parseFailures : (s.analyze reader).statistics.parseFailures =
    s.sources.countP fun x => (x.unit? reader).isNone := by
  obtain ⟨d, hstats⟩ := s.analyze_tally reader
  rw [hstats]
  refine List.countP_map.trans ?_
  congr 1
  funext x
  rw [← SourceText.input_parsed, Function.comp_apply]
  cases (x.input reader).parsed <;> rfl

lemma analyze_declaration_source {d : Declaration} (hd : d ∈ (s.analyze reader).registry.declarations) :
    ∃ x ∈ s.sources, x.path = d.file ∧ (x.unit? reader).isSome = true := by
  rw [CodeModel.registry, analyze, analyze_graph] at hd
  obtain ⟨u, hu, _, hfile⟩ := of_mem_declared (mem_declared_of_linked hd)
  obtain ⟨input, hinput, hpackaged⟩ := List.mem_filterMap.mp hu
  obtain ⟨x, hx, rfl⟩ := List.mem_map.mp hinput
  obtain ⟨hpath, hparsed, _⟩ := UnitInput.of_packaged? hpackaged
  refine ⟨x, hx, hpath.symm.trans hfile.symm, ?_⟩
  rw [← x.input_parsed reader, hparsed]
  rfl

end Scan

theorem scan_and_analysis_agree (disk : Disk Id) (settings : Settings) (path : String)
    (reader : UnitReader) {s : Scan} (hs : (scan disk settings path).run.run = .ok s) :
    let m := s.analyze reader
    m.statistics.units = s.sources.length ∧
    (settings.includesTests = true → s.sources.length = s.census.goFiles) ∧
    (settings.includesTests = false → s.sources.length + s.census.testFiles = s.census.goFiles) ∧
    m.statistics.testUnits ≤ s.census.testFiles ∧
    (settings.includesTests = false → m.statistics.testUnits = 0) ∧
    m.statistics.testUnits = s.sources.countP (fun x =>
      Text.endsWith x.path "_test.go" && (x.unit? reader).any (·.package.any (· ≠ ""))) ∧
    m.statistics.parseFailures = s.sources.countP (fun x => (x.unit? reader).isNone) ∧
    ∀ d ∈ m.registry.declarations, ∃ x ∈ s.sources, x.path = d.file ∧ (x.unit? reader).isSome = true := by
  intro m
  have hlength := sources_length_of_scan hs
  have htests := countP_isTestPath_of_scan hs
  have hle : m.statistics.testUnits ≤ s.sources.countP (isTestPath ·.path) := by
    rw [s.analyze_testUnits]
    apply List.countP_mono_left
    intro x _ hx
    exact ((Bool.and_eq_true _ _).mp hx).1
  refine ⟨s.analyze_units reader, ?_, ?_, ?_, ?_, s.analyze_testUnits reader,
    s.analyze_parseFailures reader, fun d hd => s.analyze_declaration_source reader hd⟩
  · intro hwith
    simpa [hwith] using hlength
  · intro hwithout
    simpa [hwithout] using hlength
  · refine hle.trans ?_
    rw [htests]
    split
    · exact le_refl _
    · exact Nat.zero_le _
  · intro hwithout
    simpa [htests, hwithout] using hle

theorem vendoring_analyzed :
    let s := vendoringScan "package lib" { includesTests := false }
    let m := s.analyze fun _ => SourceUnit.ofSource
    (scan (vendoringFiles "package lib").still { includesTests := false } "p").run.run = .ok s ∧
    s.census.goFiles = 4 ∧ s.census.testFiles = 1 ∧ m.statistics.units = 3 ∧ m.statistics.testUnits = 0 := by
  intro s m
  have hs := scan_vendoring "package lib" { includesTests := false }
  obtain ⟨hunits, -, hlength, -, htests, -⟩ :=
    scan_and_analysis_agree _ { includesTests := false } "p" (fun _ => SourceUnit.ofSource) hs
  have hgo : s.census.goFiles = 4 := (Found.countP_unsorted _ _ _).trans (by decide +kernel)
  have htest : s.census.testFiles = 1 := (Found.countP_unsorted _ _ _).trans (by decide +kernel)
  refine ⟨hs, hgo, htest, hunits.trans ?_, htests rfl⟩
  have hsum : s.sources.length + s.census.testFiles = s.census.goFiles := hlength rfl
  rw [hgo, htest] at hsum
  exact Nat.succ.inj hsum

end Project

end CallAtlas
