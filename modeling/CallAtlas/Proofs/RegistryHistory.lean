import CallAtlas.Proofs.Extracting
import CallAtlas.Proofs.FirstOfEach

/-! A registry is its history with only the first registration of each package and the first declaration
under each key. -/

namespace CallAtlas

namespace Registry

def Op.registration? : Op → Option (PackageKey × String)
  | .register key dir => some (key, dir)
  | .insert _ _ => none

def registrations (ops : List Op) : List (PackageKey × String) := ops.filterMap Op.registration?

def firstRegistrations (ops : List Op) : List (PackageKey × String) :=
  (registrations ops).eraseDupsBy (·.1 == ·.1)

/-- The declaration that an operation brings after others, under its key in the package that it names. -/
def offer? (before : List Op) : Op → Option (SymbolKey × Candidate)
  | .register _ _ => none
  | .insert package c => (firstRegistrations before)[package]?.map fun p => (c.key p.1, c)

def offersAfter (before : List Op) : List Op → List (SymbolKey × Candidate)
  | [] => []
  | op :: ops => (offer? before op).toList ++ offersAfter (before ++ [op]) ops

def offers (ops : List Op) : List (SymbolKey × Candidate) := offersAfter [] ops

lemma registrations_snoc (ops : List Op) (op : Op) :
    registrations (ops ++ [op]) = registrations ops ++ op.registration?.toList := by
  cases op <;> simp [registrations, Op.registration?]

lemma offersAfter_snoc (before ops : List Op) (op : Op) :
    offersAfter before (ops ++ [op]) = offersAfter before ops ++ (offer? (before ++ ops) op).toList := by
  induction ops generalizing before with
  | nil => simp [offersAfter]
  | cons op' ops ih => simp [offersAfter, ih]

lemma offers_snoc (ops : List Op) (op : Op) : offers (ops ++ [op]) = offers ops ++ (offer? ops op).toList :=
  offersAfter_snoc [] ops op

lemma run_snoc (r : Registry) (ops : List Op) (op : Op) : r.run (ops ++ [op]) = (r.run ops).apply op := by
  simp [run]

end Registry

def Package.registration (p : Package) : PackageKey × String := (p.key, p.dir)

namespace Registry

variable {r : Registry}

lemma registrations_eq (r : Registry) :
    r.packages.map (·.registration) = (r.packages.map (·.bare)).map (·.registration) := by
  rw [List.map_map]
  rfl

lemma WellFormed.registrations_register (h : r.WellFormed) (k : PackageKey) (dir : String) :
    (r.register k dir).1.packages.map (·.registration) =
      if k ∈ r.packageKeys then r.packages.map (·.registration)
      else r.packages.map (·.registration) ++ [(k, dir)] := by
  rw [registrations_eq, h.packages_register]
  split
  · rw [← registrations_eq]
  · rw [List.map_append, ← registrations_eq]
    rfl

lemma registrations_insert (r : Registry) (package : Nat) (c : Candidate) :
    (r.insert package c).1.packages.map (·.registration) = r.packages.map (·.registration) := by
  rw [registrations_eq, packages_insert, ← registrations_eq]

lemma packageKeys_eq_registrations (r : Registry) :
    r.packageKeys = (r.packages.map (·.registration)).map (·.1) := by
  rw [List.map_map]
  rfl

lemma packages_run (ops : List Op) :
    (empty.run ops).packages.map (·.registration) = firstRegistrations ops := by
  induction ops using List.reverseRecOn with
  | nil => rfl
  | append_singleton ops op ih =>
    rw [run_snoc, firstRegistrations, registrations_snoc]
    cases op with
    | register k dir =>
      have h := wellFormed_empty.run ops
      change ((empty.run ops).register k dir).1.packages.map _ =
        ((registrations ops ++ [(k, dir)]).eraseDupsBy _)
      rw [h.registrations_register, packageKeys_eq_registrations, ih, eraseDupsBy_snoc Prod.fst]
      simp only [firstRegistrations, mem_map_eraseDupsBy]
    | insert package c =>
      change ((empty.run ops).insert package c).1.packages.map _ = ((registrations ops ++ []).eraseDupsBy _)
      rw [registrations_insert, ih, List.append_nil, firstRegistrations]

lemma package?_run (ops : List Op) (package : Nat) :
    ((empty.run ops).package? package).map (·.registration) = (firstRegistrations ops)[package]? := by
  rw [← packages_run, List.getElem?_map, package?]

def entries (r : Registry) : List (SymbolKey × Candidate) := r.declarations.map fun d => (d.key, d.candidate)

lemma declarationKeys_eq_entries (r : Registry) : r.declarationKeys = r.entries.map (·.1) := by
  rw [entries, List.map_map]
  rfl

lemma entries_register (r : Registry) (k : PackageKey) (dir : String) :
    (r.register k dir).1.entries = r.entries := by
  obtain ⟨_, _, he⟩ | ⟨_, he⟩ := register_cases r k dir <;> rw [he]
  rfl

lemma WellFormed.insert_answers (h : r.WellFormed) {package : Nat} {p : Package}
    (hp : r.package? package = some p) (c : Candidate) :
    (c.key p.key ∉ r.declarationKeys ∧
      r.insert package c = (r.addDeclaration package (c.key p.key) c, .inserted r.declarations.length)) ∨
    (c.key p.key ∈ r.declarationKeys ∧
      ∃ d, r.lookup (c.key p.key) = some d ∧ r.insert package c = (r, .duplicate d.id)) := by
  rw [← h.contains_iff]
  obtain ⟨hn, _⟩ | ⟨q, hq, ⟨i, hi, he⟩ | ⟨hnew, he⟩⟩ := insert_cases r package c
  · cases hn.symm.trans hp
  · obtain rfl := Option.some.inj (hp.symm.trans hq)
    obtain ⟨d, hd, _⟩ := h.declarationId_iff.mp hi
    refine Or.inr ⟨by simp [contains, hi], d, by simp [lookup, hi, hd], ?_⟩
    rw [he, h.declaration_id hd]
  · obtain rfl := Option.some.inj (hp.symm.trans hq)
    exact Or.inl ⟨by simp [contains, hnew], he⟩

lemma WellFormed.entries_insert (h : r.WellFormed) {package : Nat} {p : Package}
    (hp : r.package? package = some p) (c : Candidate) : (r.insert package c).1.entries =
      if c.key p.key ∈ r.declarationKeys then r.entries else r.entries ++ [(c.key p.key, c)] := by
  obtain ⟨hnew, he⟩ | ⟨hold, d, _, he⟩ := h.insert_answers hp c
  · rw [he, if_neg hnew, entries, Registry.addDeclaration, List.map_append]
    rfl
  · rw [he, if_pos hold]

lemma entries_insert_of_unknown {package : Nat} (hp : r.package? package = none) (c : Candidate) :
    (r.insert package c).1.entries = r.entries := by
  simp [Registry.insert, hp]

lemma entries_run (ops : List Op) :
    (empty.run ops).entries = (offers ops).eraseDupsBy (·.1 == ·.1) := by
  induction ops using List.reverseRecOn with
  | nil => rfl
  | append_singleton ops op ih =>
    rw [run_snoc, offers_snoc]
    cases op with
    | register k dir =>
      change ((empty.run ops).register k dir).1.entries = _
      rw [entries_register, ih]
      simp [offer?]
    | insert package c =>
      change ((empty.run ops).insert package c).1.entries = _
      have hp := package?_run ops package
      cases hq : (empty.run ops).package? package with
      | none =>
        rw [hq, Option.map_none] at hp
        rw [entries_insert_of_unknown hq, ih]
        simp [offer?, ← hp]
      | some q =>
        rw [hq, Option.map_some] at hp
        have hoffer : offer? ops (.insert package c) = some (c.key q.key, c) := by
          rw [offer?, ← hp]
          rfl
        rw [(wellFormed_empty.run ops).entries_insert hq, declarationKeys_eq_entries, ih, hoffer,
          Option.toList_some, eraseDupsBy_snoc Prod.fst]
        simp only [mem_map_eraseDupsBy]

lemma mem_declarationKeys_run (ops : List Op) (key : SymbolKey) :
    key ∈ (empty.run ops).declarationKeys ↔ key ∈ (offers ops).map (·.1) := by
  rw [declarationKeys_eq_entries, entries_run, mem_map_eraseDupsBy]

theorem first_seen_wins (ops : List Op) :
    let r := empty.run ops
    (r.declarations.map fun d => (d.key, d.candidate)) = (offers ops).eraseDupsBy (·.1 == ·.1) ∧
    (r.packages.map fun p => (p.key, p.dir)) = (registrations ops).eraseDupsBy (·.1 == ·.1) ∧
    (∀ package p c, r.package? package = some p →
      (c.key p.key ∉ (offers ops).map (·.1) ↔ (r.insert package c).2 = .inserted r.declarations.length) ∧
      (c.key p.key ∈ (offers ops).map (·.1) →
        ∃ d, r.lookup (c.key p.key) = some d ∧ r.insert package c = (r, .duplicate d.id))) ∧
    ∀ e : Extraction, (e.register r).2.inserted + (e.register r).2.duplicates = e.declarations.length ∧
      (e.register r).1.declarations.length = r.declarations.length + (e.register r).2.inserted := by
  intro r
  have h : r.WellFormed := wellFormed_empty.run ops
  refine ⟨entries_run ops, packages_run ops, ?_, ?_⟩
  · intro package p c hp
    simp only [← mem_declarationKeys_run]
    obtain ⟨hnew, he⟩ | ⟨hold, d, hd, he⟩ := h.insert_answers hp c
    · exact ⟨⟨fun _ => by rw [he], fun _ => hnew⟩, fun hold => absurd hold hnew⟩
    · refine ⟨⟨fun hnew => absurd hold hnew, ?_⟩, fun _ => ⟨d, hd, he⟩⟩
      rw [he]
      rintro ⟨⟩
  · intro e
    obtain ⟨n, m, hsum, hlen, hdone⟩ := Extraction.register_counts h e
    rw [hdone]
    exact ⟨hsum, hlen⟩

end Registry

end CallAtlas
