import CallAtlas.Proofs.RegistryHistory
import Mathlib.Data.List.Infix

/-! The package at a path is told by the whole history of registrations, though each step looks at the
current owner only. -/

namespace CallAtlas

/-- The first registration of a regular package at `path`, or else the first registration there. -/
def firstRegistrationAt (path : String) (regs : List (PackageKey × String)) : Option (PackageKey × String) :=
  (regs.find? fun x => decide (x.1.path = path) && !x.1.isExternalTest).or (regs.find? (·.1.path = path))

lemma firstRegistrationAt_key (path : String) (regs : List (PackageKey × String)) :
    (firstRegistrationAt path regs).map (·.1) = firstAt path (regs.map (·.1)) := by
  rw [firstRegistrationAt, firstAt, Option.map_or, List.find?_map, List.find?_map]
  rfl

lemma firstRegistrationAt_mem {path : String} {regs : List (PackageKey × String)} {x : PackageKey × String}
    (h : firstRegistrationAt path regs = some x) : x ∈ regs := by
  rcases Option.or_eq_some_iff.mp h with hx | ⟨_, hx⟩
  · exact List.mem_of_find?_eq_some hx
  · exact List.mem_of_find?_eq_some hx

namespace Registry

lemma firstRegistrationAt_firstRegistrations (ops : List Op) (path : String) :
    firstRegistrationAt path (firstRegistrations ops) = firstRegistrationAt path (registrations ops) := by
  have hregular := find?_eraseDupsBy Prod.fst
    (fun k : PackageKey => decide (k.path = path) && !k.isExternalTest) (registrations ops)
  have hany := find?_eraseDupsBy Prod.fst (fun k : PackageKey => decide (k.path = path)) (registrations ops)
  rw [firstRegistrationAt, firstRegistrations, hregular, hany, firstRegistrationAt]

lemma ownerKey?_run (ops : List Op) (path : String) :
    (empty.run ops).ownerKey? path = firstAt path ((registrations ops).map (·.1)) := by
  rw [← firstRegistrationAt_key, ← firstRegistrationAt_firstRegistrations, firstRegistrationAt_key,
    ← packages_run, ← packageKeys_eq_registrations]
  exact ownersFirst_empty.run wellFormed_empty ops path

lemma owner?_run (ops : List Op) (path : String) :
    ((empty.run ops).owner? path).map (·.registration) = firstRegistrationAt path (registrations ops) := by
  have hnodup : ((firstRegistrations ops).map (·.1)).Nodup := by
    rw [← packages_run, ← packageKeys_eq_registrations]
    exact (wellFormed_empty.run ops).package_keys_nodup
  have hkey : (((empty.run ops).owner? path).map (·.registration)).map (·.1) =
      (firstRegistrationAt path (firstRegistrations ops)).map (·.1) := by
    rw [firstRegistrationAt_firstRegistrations, firstRegistrationAt_key, ← ownerKey?_run, Option.map_map]
    rfl
  rw [← firstRegistrationAt_firstRegistrations]
  cases ho : (empty.run ops).owner? path with
  | none =>
    rw [ho] at hkey
    exact (Option.map_eq_none_iff.mp hkey.symm).symm
  | some p =>
    rw [ho, Option.map_some, Option.map_some, eq_comm, Option.map_eq_some_iff] at hkey
    obtain ⟨x, hx, hk⟩ := hkey
    have hp : p.registration ∈ firstRegistrations ops := by
      obtain ⟨i, _, hi⟩ := Option.bind_eq_some_iff.mp ho
      rw [← packages_run]
      exact List.mem_map_of_mem (List.mem_of_getElem? hi)
    rw [hx, Option.map_some, List.inj_on_of_nodup_map hnodup hp (firstRegistrationAt_mem hx) hk.symm]

lemma ownerKey?_snoc (ops : List Op) (op : Op) (path : String) :
    (empty.run (ops ++ [op])).ownerKey? path = (empty.run ops).ownerKey? path ∨
      ∃ k, (empty.run (ops ++ [op])).ownerKey? path = some k ∧
        ∀ a, (empty.run ops).ownerKey? path = some a → a.isExternalTest = true ∧ k.isExternalTest = false := by
  simp only [ownerKey?_run, registrations_snoc, List.map_append]
  cases op with
  | insert package c => simp [Op.registration?]
  | register k dir =>
    simp only [Op.registration?, Option.toList_some, List.map_singleton, firstAt_snoc]
    split
    next hk =>
      refine Or.inr ⟨k, rfl, ?_⟩
      intro a ha
      simpa [ha] using hk.2
    next => exact Or.inl rfl

def ownersDuring (ops : List Op) (path : String) : List (Option PackageKey) :=
  ops.inits.map fun before => (empty.run before).ownerKey? path

lemma ownersDuring_snoc (ops : List Op) (op : Op) (path : String) :
    ownersDuring (ops ++ [op]) path =
      ownersDuring ops path ++ [(empty.run (ops ++ [op])).ownerKey? path] := by
  simp [ownersDuring, List.inits_append]

lemma ownersDuring_eq (ops : List Op) (path : String) : ∃ k m n a b,
    ownersDuring ops path =
      List.replicate k none ++ List.replicate m (some a) ++ List.replicate n (some b) ∧
    ((empty.run ops).ownerKey? path = none ∧ m = 0 ∧ n = 0 ∨
      (empty.run ops).ownerKey? path = some a ∧ n = 0 ∨
      (empty.run ops).ownerKey? path = some b ∧ a.isExternalTest = true ∧ b.isExternalTest = false) := by
  induction ops using List.reverseRecOn with
  | nil => exact ⟨1, 0, 0, ⟨path, ""⟩, ⟨path, ""⟩, rfl, Or.inl ⟨rfl, rfl, rfl⟩⟩
  | append_singleton ops op ih =>
    obtain ⟨k, m, n, a, b, hduring, hlast⟩ := ih
    rw [ownersDuring_snoc, hduring]
    have hstep := ownerKey?_snoc ops op path
    rcases hlast with ⟨ho, rfl, rfl⟩ | ⟨ho, rfl⟩ | ⟨ho, ha, hb⟩
    · rcases hstep with he | ⟨c, hc, _⟩
      · rw [he, ho]
        exact ⟨k + 1, 0, 0, a, b, by simp [List.replicate_succ'], Or.inl ⟨rfl, rfl, rfl⟩⟩
      · rw [hc]
        exact ⟨k, 1, 0, c, b, by simp, Or.inr (Or.inl ⟨rfl, rfl⟩)⟩
    · rcases hstep with he | ⟨c, hc, hover⟩
      · rw [he, ho]
        exact ⟨k, m + 1, 0, a, b, by simp [List.replicate_succ'], Or.inr (Or.inl ⟨rfl, rfl⟩)⟩
      · rw [hc]
        exact ⟨k, m, 1, a, c, by simp, Or.inr (Or.inr ⟨rfl, hover a ho⟩)⟩
    · rcases hstep with he | ⟨c, hc, hover⟩
      · rw [he, ho]
        exact ⟨k, m, n + 1, a, b, by simp [List.replicate_succ'], Or.inr (Or.inr ⟨rfl, ha, hb⟩)⟩
      · -- a regular owner is never replaced
        cases hb.symm.trans (hover b ho).1

example : ownersDuring [.register ⟨"m/lib", "lib_test"⟩ "lib", .register ⟨"m/lib", "lib"⟩ "lib",
      .register ⟨"m/lib", "other"⟩ "lib"] "m/lib" =
    [none, some ⟨"m/lib", "lib_test"⟩, some ⟨"m/lib", "lib"⟩, some ⟨"m/lib", "lib"⟩] := by
  decide +kernel

theorem first_regular_package_owns_path (ops : List Op) (path : String) :
    let regs := registrations ops
    let r := empty.run ops
    ((r.owner? path).map fun p => (p.key, p.dir)) =
      (regs.find? fun x => decide (x.1.path = path) && !x.1.isExternalTest).or
        (regs.find? (·.1.path = path)) ∧
    (r.owner? path = none ↔ ∀ x ∈ regs, x.1.path ≠ path) ∧
    ∃ k m n a b,
      (ops.inits.map fun before => (empty.run before).ownerKey? path) =
        List.replicate k none ++ List.replicate m (some a) ++ List.replicate n (some b) ∧
      (0 < n → a.isExternalTest = true ∧ b.isExternalTest = false) := by
  intro regs r
  refine ⟨owner?_run ops path, ?_, ?_⟩
  · have hnone : r.owner? path = none ↔ r.ownerKey? path = none := by simp [ownerKey?]
    rw [hnone, ownerKey?_run, firstAt_eq_none_iff, List.forall_mem_map]
  · obtain ⟨k, m, n, a, b, hduring, hlast⟩ := ownersDuring_eq ops path
    refine ⟨k, m, n, a, b, hduring, ?_⟩
    intro hn
    rcases hlast with ⟨_, _, rfl⟩ | ⟨_, rfl⟩ | ⟨_, hab⟩
    · cases hn
    · cases hn
    · exact hab

end Registry

end CallAtlas
