import CallAtlas.Proofs.PackagedUnits
import Mathlib.Algebra.Ring.Nat

/-! The first pass of an analysis in closed form: the registry of the packaged units, and sums over
the inputs. -/

namespace CallAtlas

namespace Extraction

lemma registerOne_counts {package : Nat} {r : Registry} (hp : ∃ q, r.package? package = some q)
    (done : Registration) (c : Candidate) :
    ∃ n m, n + m = 1 ∧
      (registerOne package (r, done) c).1.declarations.length = r.declarations.length + n ∧
      (registerOne package (r, done) c).2 = ⟨done.inserted + n, done.duplicates + m⟩ := by
  obtain ⟨q, hq⟩ := hp
  obtain ⟨hn, _⟩ | ⟨_, _, ⟨_, _, he⟩ | ⟨_, he⟩⟩ := Registry.insert_cases r package c
  · cases hn.symm.trans hq
  · exact ⟨0, 1, rfl, by simp [registerOne, he], by simp [registerOne, he]⟩
  · exact ⟨1, 0, rfl, by simp [registerOne, he, Registry.addDeclaration], by simp [registerOne, he]⟩

lemma foldl_registerOne_counts {package : Nat} (cs : List Candidate) {r : Registry}
    (hp : ∃ q, r.package? package = some q) (done : Registration) :
    ∃ n m, n + m = cs.length ∧
      (cs.foldl (registerOne package) (r, done)).1.declarations.length = r.declarations.length + n ∧
      (cs.foldl (registerOne package) (r, done)).2 = ⟨done.inserted + n, done.duplicates + m⟩ := by
  induction cs generalizing r done with
  | nil => exact ⟨0, 0, rfl, rfl, rfl⟩
  | cons c cs ih =>
    obtain ⟨n, m, hsum, hlen, hdone⟩ := registerOne_counts hp done c
    have hp' : ∃ q, (registerOne package (r, done) c).1.package? package = some q := by
      obtain ⟨q, hq⟩ := hp
      obtain ⟨q', hq', _⟩ : ∃ q', (r.insert package c).1.package? package = some q' ∧ q'.key = q.key :=
        Registry.package?_insert_key ⟨q, hq, rfl⟩
      refine ⟨q', ?_⟩
      rw [← hq']
      simp only [registerOne]
      split <;> simp_all
    obtain ⟨n', m', hsum', hlen', hdone'⟩ := ih hp' (registerOne package (r, done) c).2
    refine ⟨n + n', m + m', by simp only [List.length_cons]; omega, ?_, ?_⟩
    · rw [List.foldl_cons, ← Nat.add_assoc, ← hlen]
      exact hlen'
    · rw [List.foldl_cons]
      rw [hdone] at hdone'
      simpa only [Nat.add_assoc, ← hdone] using hdone'

lemma register_counts {r : Registry} (h : r.WellFormed) (e : Extraction) :
    ∃ n m, n + m = e.declarations.length ∧
      (e.register r).1.declarations.length = r.declarations.length + n ∧ (e.register r).2 = ⟨n, m⟩ := by
  obtain ⟨q, hq, _⟩ := h.package?_register e.package e.dir
  obtain ⟨n, m, hsum, hlen, hdone⟩ := foldl_registerOne_counts e.declarations ⟨q, hq⟩ {}
  simp only [Nat.zero_add] at hdone
  refine ⟨n, m, hsum, ?_, hdone⟩
  have hr : (r.register e.package e.dir).1.declarations = r.declarations := by
    obtain ⟨_, _, he⟩ | ⟨_, he⟩ := Registry.register_cases r e.package e.dir <;> rw [he]
    rfl
  rw [← hr]
  exact hlen

end Extraction

/-- What the tally of the inputs comes to, but for the duplicates. -/
def tallied (module : Option String) (inputs : List UnitInput) : Tally :=
  let us := packagedUnits module inputs
  { units := inputs.length
    parsedUnits := us.length
    parseFailures := inputs.countP (!·.parsed.isOk)
    skippedUnits := inputs.countP fun input => input.parsed.isOk && (input.packaged? module).isNone
    testUnits := us.countP (·.counts.isTest)
    functions := (us.map (·.counts.functions)).sum
    methods := (us.map (·.counts.methods)).sum
    structs := (us.map (·.counts.structs)).sum
    interfaces := (us.map (·.counts.interfaces)).sum
    otherTypes := (us.map (·.counts.otherTypes)).sum
    linesOfCode := (us.map (·.counts.lines)).sum }

namespace Analysis

variable {module : Option String} {input : UnitInput}

lemma extract_packaged {u : PackagedUnit} (hu : input.packaged? module = some u) (p : Progress) :
    input.parsed.isOk = true ∧ p.extract module input =
      { tally := { { p.tally with units := p.tally.units + 1 }.record u.counts with
          duplicateDeclarations :=
            p.tally.duplicateDeclarations + (u.extraction.register p.registry).2.duplicates }
        registry := (u.extraction.register p.registry).1
        units := p.units ++ [(u.package, u.unit)] } := by
  obtain ⟨_, hp, _⟩ := UnitInput.of_packaged? hu
  have he : Extraction.ofUnit input.path u.unit module = some u.extraction := by
    rw [UnitInput.ofUnit_eq hp, hu, Option.map_some]
  refine ⟨by rw [hp]; rfl, ?_⟩
  simp only [Progress.extract, hp, he]
  rfl

lemma extract_unpackaged (hu : input.packaged? module = none) (p : Progress) :
    p.extract module input =
      { p with tally := { p.tally with
          units := p.tally.units + 1
          parseFailures := p.tally.parseFailures + if input.parsed.isOk then 0 else 1
          skippedUnits := p.tally.skippedUnits + if input.parsed.isOk then 1 else 0 } } := by
  rcases hp : input.parsed with _ | unit
  · simp [Progress.extract, hp, Except.isOk, Except.toBool]
  · have he : Extraction.ofUnit input.path unit module = none := by
      rw [UnitInput.ofUnit_eq hp, hu, Option.map_none]
    simp [Progress.extract, hp, he, Except.isOk, Except.toBool]

lemma extractAll_snoc (module : Option String) (inputs : List UnitInput) (input : UnitInput) :
    extractAll module (inputs ++ [input]) = (extractAll module inputs).extract module input := by
  simp [extractAll]

lemma packagedUnits_snoc (module : Option String) (inputs : List UnitInput) (input : UnitInput) :
    packagedUnits module (inputs ++ [input]) =
      packagedUnits module inputs ++ (input.packaged? module).toList := by
  rw [packagedUnits, List.filterMap_append]
  cases h : input.packaged? module <;> simp [packagedUnits, h]

lemma extractAll_registry (module : Option String) (inputs : List UnitInput) :
    (extractAll module inputs).registry = registryOf (packagedUnits module inputs) := by
  induction inputs using List.reverseRecOn with
  | nil => rfl
  | append_singleton inputs input ih =>
    rw [extractAll_snoc, packagedUnits_snoc]
    cases hu : input.packaged? module with
    | none =>
      rw [extract_unpackaged hu, Option.toList_none, List.append_nil]
      exact ih
    | some u => rw [(extract_packaged hu _).2, Option.toList_some, registryOf_snoc, ih]

lemma extractAll_units (module : Option String) (inputs : List UnitInput) :
    (extractAll module inputs).units = (packagedUnits module inputs).map fun u => (u.package, u.unit) := by
  induction inputs using List.reverseRecOn with
  | nil => rfl
  | append_singleton inputs input ih =>
    rw [extractAll_snoc, packagedUnits_snoc]
    cases hu : input.packaged? module with
    | none =>
      rw [extract_unpackaged hu, Option.toList_none, List.append_nil]
      exact ih
    | some u => simp [(extract_packaged hu _).2, ih]

lemma extractAll_tally (module : Option String) (inputs : List UnitInput) :
    ∃ d, (extractAll module inputs).tally = { tallied module inputs with duplicateDeclarations := d } ∧
      d + (registryOf (packagedUnits module inputs)).declarations.length =
        (declared (packagedUnits module inputs)).length := by
  induction inputs using List.reverseRecOn with
  | nil => exact ⟨0, rfl, rfl⟩
  | append_singleton inputs input ih =>
    obtain ⟨d, htally, hd⟩ := ih
    rw [extractAll_snoc, packagedUnits_snoc]
    cases hu : input.packaged? module with
    | none =>
      rw [extract_unpackaged hu, Option.toList_none, List.append_nil]
      refine ⟨d, ?_, hd⟩
      rw [htally]
      cases hok : input.parsed.isOk <;> simp [tallied, packagedUnits_snoc, hu, hok]
    | some u =>
      obtain ⟨hok, he⟩ := extract_packaged hu (extractAll module inputs)
      rw [he, Option.toList_some, registryOf_snoc, declared_snoc, extractAll_registry, htally]
      obtain ⟨n, m, hsum, hlen, hdone⟩ := Extraction.register_counts
        (registryOf_wellFormed (packagedUnits module inputs)) u.extraction
      refine ⟨d + m, ?_, ?_⟩
      · simp only [hdone, tallied, packagedUnits_snoc, hu, Tally.record]
        by_cases ht : u.counts.isTest = true <;> simp [hok, hu, ht]
      · have hdeclared : u.declared.length = u.extraction.declarations.length := List.length_map ..
        rw [hlen, List.length_append, hdeclared]
        omega

end Analysis

end CallAtlas
