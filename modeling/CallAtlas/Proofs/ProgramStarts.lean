import CallAtlas.Proofs.CallEdges
import CallAtlas.Proofs.DotStyles

/-! The entry points are the main functions of the packages `main`, and the DOT graph marks just these, though
it goes by the paths and files of its nodes. -/

namespace CallAtlas

namespace Registry

variable {r : Registry}

def main? (r : Registry) (p : Package) : Option Declaration :=
  (r.lookup (.function p.key "main")).filter fun d => p.key.name = "main" ∧ d.kind = .function

/-- The packages that are programs, in the order of the registry, each with its main function. -/
def programs (r : Registry) : List (Package × Declaration) :=
  r.packages.filterMap fun p => (r.main? p).map (p, ·)

lemma WellFormed.main?_eq_some_iff (h : r.WellFormed) {p : Package} {d : Declaration} :
    r.main? p = some d ↔ d ∈ r.declarations ∧ p.key.name = "main" ∧ d.key = .function p.key "main" ∧
      d.kind = .function := by
  rw [main?, Option.filter_eq_some_iff, h.lookup_eq_some_iff, decide_eq_true_eq]
  constructor
  · rintro ⟨⟨hd, hkey⟩, hname, hkind⟩
    exact ⟨hd, hname, hkey, hkind⟩
  · rintro ⟨hd, hname, hkey, hkind⟩
    exact ⟨⟨hd, hkey⟩, hname, hkind⟩

lemma WellFormed.mem_programs (h : r.WellFormed) {p : Package} {d : Declaration} :
    (p, d) ∈ r.programs ↔ p ∈ r.packages ∧ d ∈ r.declarations ∧ p.key.name = "main" ∧
      d.key = .function p.key "main" ∧ d.kind = .function := by
  rw [← h.main?_eq_some_iff, programs, List.mem_filterMap]
  constructor
  · rintro ⟨q, hq, he⟩
    obtain ⟨e, hmain, he⟩ := Option.map_eq_some_iff.mp he
    obtain ⟨rfl, rfl⟩ := Prod.mk.inj he
    exact ⟨hq, hmain⟩
  · rintro ⟨hp, hmain⟩
    exact ⟨p, hp, by rw [hmain, Option.map_some]⟩

lemma programs_sublist (r : Registry) : (r.programs.map (·.1)).Sublist r.packages := by
  rw [programs]
  induction r.packages with
  | nil => exact List.Sublist.refl _
  | cons p ps ih =>
    cases hmain : r.main? p with
    | none =>
      rw [List.filterMap_cons_none (by rw [hmain, Option.map_none])]
      exact ih.cons p
    | some d =>
      rw [List.filterMap_cons_some (by rw [hmain, Option.map_some])]
      exact ih.cons_cons p

lemma WellFormed.programKeys_nodup (h : r.WellFormed) : (r.programs.map (·.1.key)).Nodup := by
  have hkeys := (r.programs_sublist.map (·.key)).nodup h.package_keys_nodup
  rwa [List.map_map] at hkeys

lemma WellFormed.programPaths_nodup (h : r.WellFormed) : (r.programs.map (·.1.key.path)).Nodup := by
  refine List.Nodup.map_on ?_ (h.programKeys_nodup.of_map _)
  rintro ⟨p, d⟩ hp ⟨q, e⟩ hq hpath
  -- both packages are called `main`
  have hname : p.key.name = q.key.name := (h.mem_programs.mp hp).2.2.1.trans (h.mem_programs.mp hq).2.2.1.symm
  have hkey : p.key = q.key := by
    rw [PackageKey.mk.injEq]
    exact ⟨hpath, hname⟩
  exact List.inj_on_of_nodup_map h.programKeys_nodup hp hq hkey

lemma WellFormed.programMains_nodup (h : r.WellFormed) : (r.programs.map (·.2)).Nodup := by
  refine List.Nodup.map_on ?_ (h.programKeys_nodup.of_map _)
  rintro ⟨p, d⟩ hp ⟨q, e⟩ hq rfl
  obtain ⟨_, _, _, hp', _⟩ := h.mem_programs.mp hp
  obtain ⟨_, _, _, hq', _⟩ := h.mem_programs.mp hq
  exact List.inj_on_of_nodup_map h.programKeys_nodup hp hq (congrArg (·.package) (hp'.symm.trans hq'))

end Registry

namespace EntryPoint

def ofProgram (x : Package × Declaration) : EntryPoint := ⟨x.1.key.path, x.1.dir, x.2.file, x.2.line⟩

lemma ofPackage?_eq (r : Registry) (p : Package) :
    ofPackage? r p = (r.main? p).map fun d => ofProgram (p, d) := by
  rw [ofPackage?, Registry.main?]
  cases r.lookup (.function p.key "main") with
  | none => simp
  | some d =>
    by_cases hname : p.key.name = "main" <;> by_cases hkind : d.kind = .function <;>
      simp [hname, hkind, Option.filter_some, ofProgram]

lemma all_eq (r : Registry) : all r = r.programs.map ofProgram := by
  rw [all, Registry.programs, List.map_filterMap]
  congr 1
  funext p
  rw [ofPackage?_eq, Option.map_map]
  rfl

end EntryPoint

lemma packagedUnits_paths_nodup {inputs : List UnitInput} (hn : (inputs.map (·.path)).Nodup)
    (module : Option String) : ((packagedUnits module inputs).map (·.path)).Nodup := by
  rw [List.Nodup, List.pairwise_map] at hn ⊢
  rw [packagedUnits, List.pairwise_filterMap]
  refine hn.imp ?_
  intro x y hxy u hu v hv heq
  rw [(UnitInput.of_packaged? hu).1, (UnitInput.of_packaged? hv).1] at heq
  exact hxy heq

section Linked

variable {us : List PackagedUnit} (hn : (us.map (·.path)).Nodup)

include hn

/-- A file belongs to one unit, and so to one package. -/
lemma package_of_file {d e : Declaration} (hd : d ∈ (linked us).registry.declarations)
    (he : e ∈ (linked us).registry.declarations) (hfile : d.file = e.file) : d.key.package = e.key.package := by
  obtain ⟨u, hu, hpackage, hpath⟩ := of_mem_declared (mem_declared_of_linked hd)
  obtain ⟨v, hv, hpackage', hpath'⟩ := of_mem_declared (mem_declared_of_linked he)
  have huv : u = v := List.inj_on_of_nodup_map hn hu hv (hpath.symm.trans (hfile.trans hpath'))
  subst huv
  exact hpackage.trans hpackage'.symm

lemma isEntry_iff {d : Declaration} (hd : d ∈ (linked us).registry.declarations) :
    Report.Dot.isEntry (EntryPoint.all (linked us).registry) d = true ↔
      ∃ p, (p, d) ∈ (linked us).registry.programs := by
  have h := (linked_consistent us).wellFormed
  simp only [Report.Dot.isEntry, Bool.and_eq_true, Option.isNone_iff_eq_none, beq_iff_eq, List.any_eq_true,
    EntryPoint.all_eq, List.mem_map]
  constructor
  · rintro ⟨⟨hreceiver, hname⟩, _, ⟨⟨p, e⟩, hprogram, rfl⟩, _, hfile⟩
    obtain ⟨_, he, _, hkey, _⟩ := h.mem_programs.mp hprogram
    have hpackage : e.key.package = d.key.package := package_of_file hn he hd hfile
    have hsame : e.key = d.key := by
      rw [hkey] at hpackage ⊢
      rw [SymbolKey.mk.injEq]
      exact ⟨hpackage, hreceiver.symm, hname.symm⟩
    obtain rfl := List.inj_on_of_nodup_map h.declaration_keys_nodup he hd hsame
    exact ⟨p, hprogram⟩
  · rintro ⟨p, hprogram⟩
    obtain ⟨_, _, _, hkey, _⟩ := h.mem_programs.mp hprogram
    refine ⟨⟨by rw [hkey]; rfl, by rw [hkey]; rfl⟩, _, ⟨(p, d), hprogram, rfl⟩, ?_, rfl⟩
    rw [hkey]
    rfl

end Linked

lemma Registry.WellFormed.exists_program_iff {r : Registry} (h : r.WellFormed) {d : Declaration}
    (hd : d ∈ r.declarations) : (∃ p, (p, d) ∈ r.programs) ↔
      d.key = .function ⟨d.key.package.path, "main"⟩ "main" ∧ d.kind = .function := by
  constructor
  · rintro ⟨p, hprogram⟩
    obtain ⟨_, _, hname, hkey, hkind⟩ := h.mem_programs.mp hprogram
    refine ⟨?_, hkind⟩
    rw [hkey, ← hname]
    rfl
  · rintro ⟨hkey, hkind⟩
    obtain ⟨i, hi⟩ := List.mem_iff_getElem?.mp hd
    obtain ⟨p, hp, hpackage⟩ := h.declaration_package hi
    have hname : p.key.name = "main" := by rw [hpackage, hkey]; rfl
    refine ⟨p, h.mem_programs.mpr ⟨List.mem_of_getElem? hp, hd, hname, ?_, hkind⟩⟩
    rw [hpackage, hkey]
    rfl

lemma Report.Dot.styleOf_eq_entry_iff {entries : List EntryPoint} {d : Declaration} :
    styleOf entries d = .entry ↔ isEntry entries d = true := by
  rw [styleOf]
  split
  next h => exact iff_of_true rfl h
  next h =>
    refine iff_of_false ?_ h
    split <;> decide

lemma Registry.WellFormed.entries_perm_programs {r : Registry} (h : r.WellFormed) {entries : List EntryPoint}
    (hstyle : ∀ d ∈ r.declarations, (Report.Dot.isEntry entries d = true ↔ ∃ p, (p, d) ∈ r.programs)) :
    ((r.declarations.filter (·.kind.isCallable)).filter
      fun d => Report.Dot.styleOf entries d = .entry).Perm (r.programs.map (·.2)) := by
  have hnodup := ((h.declaration_keys_nodup.of_map _).filter (·.kind.isCallable)).filter
    fun d => Report.Dot.styleOf entries d = .entry
  refine (List.perm_ext_iff_of_nodup hnodup h.programMains_nodup).mpr ?_
  intro d
  rw [List.mem_filter, decide_eq_true_eq, Report.Dot.styleOf_eq_entry_iff, List.mem_map]
  constructor
  · rintro ⟨hd, hentry⟩
    obtain ⟨p, hprogram⟩ := (hstyle d (List.mem_filter.mp hd).1).mp hentry
    exact ⟨(p, d), hprogram, rfl⟩
  · rintro ⟨⟨p, e⟩, hprogram, rfl⟩
    obtain ⟨_, hd, _, _, hkind⟩ := h.mem_programs.mp hprogram
    refine ⟨List.mem_filter.mpr ⟨hd, ?_⟩, (hstyle e hd).mpr ⟨p, hprogram⟩⟩
    rw [hkind]
    rfl

namespace Report

theorem entry_points_match_styles (rootName : String) (module : Option String) (inputs : List UnitInput)
    (hn : (inputs.map (·.path)).Nodup) :
    let m := analyze rootName module inputs
    let programs := m.registry.programs
    (programs.map (·.1)).Sublist m.registry.packages ∧
    (∀ p d, (p, d) ∈ programs ↔ p ∈ m.registry.packages ∧ d ∈ m.registry.declarations ∧
      p.key.name = "main" ∧ d.key = .function p.key "main" ∧ d.kind = .function) ∧
    m.entryPoints = programs.map (fun x => ⟨x.1.key.path, x.1.dir, x.2.file, x.2.line⟩) ∧
    (m.entryPoints.map (·.packagePath)).Nodup ∧
    (m.callables.filter fun d => Dot.styleOf m.entryPoints d = .entry).Perm (programs.map (·.2)) ∧
    (Dot.nodes m = m.callables.map fun d => .node d.key.text d.label d.file d.line
      (if d.key = .function ⟨d.key.package.path, "main"⟩ "main" ∧ d.kind = .function then .entry
        else if d.kind = .method then .method else .function)) ∧
    ∀ (census : Option Census) (tree : Option DirTree) (createdAt : String) (limit : Option Nat),
      let styles := Dot.readStyles (Report.mk m census tree createdAt limit).dot
      (styles = m.callables.map fun d => (Dot.escape d.key.text,
        if d.key = .function ⟨d.key.package.path, "main"⟩ "main" ∧ d.kind = .function then .entry
        else if d.kind = .method then .method else .function)) ∧
      ((styles.filter (·.2 = .entry)).map (·.1)).Perm (programs.map fun x => Dot.escape x.2.key.text) := by
  intro m programs
  have hg : m.graph = linked (packagedUnits module inputs) := analyze_graph rootName module inputs
  have h : m.registry.WellFormed := (hg ▸ linked_consistent _ : m.graph.Consistent).wellFormed
  have hstyle : ∀ d ∈ m.registry.declarations,
      (Dot.isEntry m.entryPoints d = true ↔ ∃ p, (p, d) ∈ programs) := by
    intro d hd
    have hiff := isEntry_iff (packagedUnits_paths_nodup hn module) (d := d)
    rw [← hg] at hiff
    exact hiff hd
  have hcallable : ∀ d ∈ m.callables, d ∈ m.registry.declarations := fun d hd => (List.mem_filter.mp hd).1
  have hstyleOf : ∀ d ∈ m.callables, Dot.styleOf m.entryPoints d =
      if d.key = .function ⟨d.key.package.path, "main"⟩ "main" ∧ d.kind = .function then .entry
      else if d.kind = .method then .method else .function := by
    intro d hd
    simp only [Dot.styleOf, hstyle d (hcallable d hd), programs, h.exists_program_iff (hcallable d hd)]
  have hentries := h.entries_perm_programs hstyle
  refine ⟨m.registry.programs_sublist, fun p d => h.mem_programs, EntryPoint.all_eq _, ?_, hentries, ?_, ?_⟩
  · rw [CodeModel.entryPoints, EntryPoint.all_eq, List.map_map]
    exact h.programPaths_nodup
  · rw [Dot.nodes]
    apply List.map_congr_left
    intro d hd
    rw [Dot.nodeOf, hstyleOf d hd]
  · intro census tree createdAt limit styles
    have hread : styles = m.callables.map fun d => (Dot.escape d.key.text, Dot.styleOf m.entryPoints d) :=
      Dot.readStyles_dot _
    refine ⟨hread.trans (List.map_congr_left fun d hd => by rw [hstyleOf d hd]), ?_⟩
    rw [hread, List.filter_map, List.map_map]
    have hids := hentries.map fun d => Dot.escape d.key.text
    rw [List.map_map] at hids
    exact hids

/-- A command whose directory also holds a library and an external test package, each with a function `main`. -/
def sharedCommand : List UnitInput :=
  [⟨"cmd/lib.go", .ok ⟨some "tool", [], [.func ⟨"main", none, 3, []⟩], 4⟩⟩,
   ⟨"cmd/main.go", .ok ⟨some "main", [], [.func ⟨"main", some ⟨some "App"⟩, 4, []⟩,
    .func ⟨"main", none, 9, []⟩], 12⟩⟩,
   ⟨"cmd/main_test.go", .ok ⟨some "main_test", [], [.func ⟨"main", none, 7, []⟩], 8⟩⟩,
   ⟨"gen/main.go", .ok ⟨some "main", [], [.type "main" .struct 3], 3⟩⟩]

theorem sharedCommand_entry :
    let m := analyze "r" (some "m") sharedCommand
    (sharedCommand.map (·.path)).Nodup ∧ m.callables.length = 4 ∧
    m.entryPoints = [⟨"m/cmd", "cmd", "cmd/main.go", 9⟩] ∧
    (m.callables.filter fun d => Dot.styleOf m.entryPoints d = .entry).Perm (m.registry.programs.map (·.2)) ∧
    ((Dot.readStyles (Report.mk m none none "" none).dot).filter (·.2 = .entry)).map (·.1) =
      ["m/cmd:main:main"] := by
  intro m
  have hn : (sharedCommand.map (·.path)).Nodup := by decide
  obtain ⟨-, -, -, -, hstyled, -, hread⟩ := entry_points_match_styles "r" (some "m") sharedCommand hn
  have hids := (hread none none "" none).2
  have hprogram : m.registry.programs.map (fun x => Dot.escape x.2.key.text) = ["m/cmd:main:main"] := by
    decide +kernel
  rw [hprogram, List.perm_singleton] at hids
  exact ⟨hn, by decide +kernel, by decide +kernel, hstyled, hids⟩

end Report

end CallAtlas
