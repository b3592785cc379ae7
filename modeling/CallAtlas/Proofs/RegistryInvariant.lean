import CallAtlas.Registry
import Mathlib.Data.List.Nodup
import Mathlib.Data.List.Perm.Lattice
import Mathlib.Tactic.Lemma

/-! Any run of the registry keeps its two arenas, its three maps and the lists of the packages in step. -/

namespace CallAtlas

lemma getElem?_snoc_eq_some {α : Type} {l : List α} {a b : α} {i : Nat} :
    (l ++ [a])[i]? = some b ↔ l[i]? = some b ∨ (i = l.length ∧ a = b) := by
  rcases Nat.lt_trichotomy i l.length with h | h | h
  · rw [List.getElem?_append_left h]
    simp [Nat.ne_of_lt h]
  · subst h
    simp
  · have hout : (l ++ [a])[i]? = none := by simp; omega
    have hl : l[i]? = none := by simp; omega
    simp [hout, hl, Nat.ne_of_gt h]

lemma nodup_map_of_getElem? {α β : Type} {l : List α} {f : α → β}
    (h : ∀ {i j : Nat} {a b : α}, l[i]? = some a → l[j]? = some b → f a = f b → i = j) : (l.map f).Nodup := by
  rw [List.nodup_iff_getElem?_ne_getElem?]
  intro i j hij hj heq
  rw [List.length_map] at hj
  have hb := List.getElem?_eq_getElem hj
  have ha := List.getElem?_eq_getElem (Nat.lt_trans hij hj)
  simp only [List.getElem?_map, ha, hb, Option.map_some, Option.some.injEq] at heq
  exact Nat.ne_of_lt hij (h ha hb heq)

namespace Registry

inductive Op where
  | register (key : PackageKey) (dir : String)
  | insert (package : Nat) (c : Candidate)

def apply (r : Registry) : Op → Registry
  | .register key dir => (r.register key dir).1
  | .insert package c => (r.insert package c).1

def run (r : Registry) (ops : List Op) : Registry := ops.foldl apply r

structure WellFormed (r : Registry) : Prop where
  declaration_id : ∀ {i d}, r.declaration? i = some d → d.id = i
  package_id : ∀ {p q}, r.package? p = some q → q.id = p
  declarationId_iff : ∀ {k i}, r.declarationId? k = some i ↔ ∃ d, r.declaration? i = some d ∧ d.key = k
  packageId_iff : ∀ {k p}, r.packageIds.get? k = some p ↔ ∃ q, r.package? p = some q ∧ q.key = k
  declaration_package : ∀ {i d}, r.declaration? i = some d →
    ∃ q, r.package? d.package = some q ∧ q.key = d.key.package
  declarations_increasing : ∀ {p q}, r.package? p = some q → q.declarations.Pairwise (· < ·)
  mem_declarations : ∀ {p q}, r.package? p = some q →
    ∀ i, i ∈ q.declarations ↔ ∃ d, r.declaration? i = some d ∧ d.package = p
  owner_path : ∀ {path p}, r.ownerId? path = some p → ∃ q, r.package? p = some q ∧ q.key.path = path

variable {r : Registry}

lemma wellFormed_empty : empty.WellFormed := by
  constructor <;> simp [empty, declaration?, package?, declarationId?, ownerId?]

lemma package?_lt {p : Nat} {q : Package} (h : r.package? p = some q) : p < r.packages.length :=
  (List.getElem?_eq_some_iff.mp h).1

lemma declaration?_lt {i : Nat} {d : Declaration} (h : r.declaration? i = some d) :
    i < r.declarations.length :=
  (List.getElem?_eq_some_iff.mp h).1

lemma package?_addPackage {key : PackageKey} {dir : String} {p : Nat} {q : Package} :
    (r.addPackage key dir).package? p = some q ↔
      r.package? p = some q ∨ (p = r.packages.length ∧ ⟨r.packages.length, key, dir, []⟩ = q) :=
  getElem?_snoc_eq_some

lemma WellFormed.addPackage (h : r.WellFormed) {key : PackageKey} (dir : String)
    (hnew : r.packageIds.get? key = none) : (r.addPackage key dir).WellFormed where
  declaration_id := h.declaration_id
  package_id hq := by
    rcases package?_addPackage.mp hq with hq | ⟨rfl, rfl⟩
    · exact h.package_id hq
    · rfl
  declarationId_iff := h.declarationId_iff
  packageId_iff {k p} := by
    simp only [Registry.addPackage, Bindings.get?_insert]
    constructor
    · intro hk
      split at hk
      next heq =>
        subst heq
        obtain rfl := Option.some.inj hk
        exact ⟨_, package?_addPackage.mpr (Or.inr ⟨rfl, rfl⟩), rfl⟩
      next hne =>
        obtain ⟨q, hq, hkey⟩ := h.packageId_iff.mp hk
        exact ⟨q, package?_addPackage.mpr (Or.inl hq), hkey⟩
    · rintro ⟨q, hq, rfl⟩
      rcases package?_addPackage.mp hq with hq | ⟨rfl, rfl⟩
      · have hold := h.packageId_iff.mpr ⟨q, hq, rfl⟩
        have hne : key ≠ q.key := by
          rintro rfl
          rw [hnew] at hold
          cases hold
        rw [if_neg hne, hold]
      · simp
  declaration_package hd := by
    obtain ⟨q, hq, hkey⟩ := h.declaration_package hd
    exact ⟨q, package?_addPackage.mpr (Or.inl hq), hkey⟩
  declarations_increasing hq := by
    rcases package?_addPackage.mp hq with hq | ⟨rfl, rfl⟩
    · exact h.declarations_increasing hq
    · exact List.Pairwise.nil
  mem_declarations hq i := by
    rcases package?_addPackage.mp hq with hq | ⟨rfl, rfl⟩
    · exact h.mem_declarations hq i
    · simp only [List.not_mem_nil, false_iff, not_exists, not_and]
      -- no declaration names a package that was not there yet
      intro d hd hp
      obtain ⟨q, hq, _⟩ := h.declaration_package hd
      have := package?_lt hq
      omega
  owner_path {path p} hp := by
    have hold : r.ownerId? path = some p →
        ∃ q, (r.addPackage key dir).package? p = some q ∧ q.key.path = path := by
      intro hp
      obtain ⟨q, hq, hpath⟩ := h.owner_path hp
      exact ⟨q, package?_addPackage.mpr (Or.inl hq), hpath⟩
    simp only [ownerId?, Registry.addPackage] at hp
    split at hp
    next =>
      rw [Bindings.get?_insert] at hp
      split at hp
      next heq =>
        obtain rfl := Option.some.inj hp
        exact ⟨_, package?_addPackage.mpr (Or.inr ⟨rfl, rfl⟩), heq⟩
      next => exact hold hp
    next => exact hold hp

lemma declaration?_addDeclaration {package i : Nat} {key : SymbolKey} {c : Candidate} {d : Declaration} :
    (r.addDeclaration package key c).declaration? i = some d ↔
      r.declaration? i = some d ∨ (i = r.declarations.length ∧
        ⟨r.declarations.length, key, c.kind, package, c.file, c.line, [], [], 0⟩ = d) :=
  getElem?_snoc_eq_some

lemma package?_addDeclaration {package p : Nat} {key : SymbolKey} {c : Candidate} {q : Package} :
    (r.addDeclaration package key c).package? p = some q ↔ ∃ q₀, r.package? p = some q₀ ∧
      (if package = p then q₀.withDeclaration r.declarations.length else q₀) = q := by
  simp only [package?, Registry.addDeclaration, List.getElem?_modify, Option.map_eq_map,
    Option.map_eq_some_iff]

@[simp] lemma withDeclaration_key (i : Nat) (q : Package) : (q.withDeclaration i).key = q.key := rfl

lemma package?_addDeclaration_key {package p : Nat} {key : SymbolKey} {c : Candidate} {k : PackageKey} :
    (∃ q, (r.addDeclaration package key c).package? p = some q ∧ q.key = k) ↔
      ∃ q, r.package? p = some q ∧ q.key = k := by
  simp only [package?_addDeclaration]
  constructor
  · rintro ⟨_, ⟨q, hq, rfl⟩, rfl⟩
    exact ⟨q, hq, by split <;> rfl⟩
  · rintro ⟨q, hq, rfl⟩
    exact ⟨_, ⟨q, hq, rfl⟩, by split <;> rfl⟩

lemma WellFormed.addDeclaration (h : r.WellFormed) {package : Nat} {p : Package} {key : SymbolKey}
    (c : Candidate) (hp : r.package? package = some p) (hkey : p.key = key.package)
    (hnew : r.declarationId? key = none) : (r.addDeclaration package key c).WellFormed where
  declaration_id hd := by
    rcases declaration?_addDeclaration.mp hd with hd | ⟨rfl, rfl⟩
    · exact h.declaration_id hd
    · rfl
  package_id hq' := by
    obtain ⟨q, hq, rfl⟩ := package?_addDeclaration.mp hq'
    rw [← h.package_id hq]
    split <;> rfl
  declarationId_iff {k i} := by
    simp only [declarationId?, Registry.addDeclaration, Bindings.get?_insert]
    constructor
    · intro hk
      split at hk
      next heq =>
        obtain rfl := Option.some.inj hk
        exact ⟨_, declaration?_addDeclaration.mpr (Or.inr ⟨rfl, rfl⟩), heq⟩
      next =>
        obtain ⟨d, hd, hdk⟩ := h.declarationId_iff.mp hk
        exact ⟨d, declaration?_addDeclaration.mpr (Or.inl hd), hdk⟩
    · rintro ⟨d, hd, rfl⟩
      rcases declaration?_addDeclaration.mp hd with hd | ⟨rfl, rfl⟩
      · have hold := h.declarationId_iff.mpr ⟨d, hd, rfl⟩
        have hne : key ≠ d.key := by
          rintro rfl
          rw [hnew] at hold
          cases hold
        rw [if_neg hne]
        exact hold
      · simp
  packageId_iff := h.packageId_iff.trans package?_addDeclaration_key.symm
  declaration_package hd := by
    rw [package?_addDeclaration_key]
    rcases declaration?_addDeclaration.mp hd with hd | ⟨rfl, rfl⟩
    · exact h.declaration_package hd
    · exact ⟨p, hp, hkey⟩
  declarations_increasing hq' := by
    obtain ⟨q, hq, rfl⟩ := package?_addDeclaration.mp hq'
    have hinc := h.declarations_increasing hq
    split
    · -- the new number is above all the numbers handed out before
      refine List.pairwise_append.mpr ⟨hinc, List.pairwise_singleton _ _, ?_⟩
      intro i hi j hj
      obtain ⟨d, hd, _⟩ := (h.mem_declarations hq i).mp hi
      rw [List.mem_singleton.mp hj]
      exact declaration?_lt hd
    · exact hinc
  mem_declarations hq' i := by
    obtain ⟨q, hq, rfl⟩ := package?_addDeclaration.mp hq'
    have hmem := h.mem_declarations hq i
    simp only [declaration?_addDeclaration]
    split
    next heq =>
      subst heq
      simp only [Package.withDeclaration, List.mem_append, List.mem_singleton, hmem]
      constructor
      · rintro (⟨d, hd, hda⟩ | rfl)
        · exact ⟨d, Or.inl hd, hda⟩
        · exact ⟨_, Or.inr ⟨rfl, rfl⟩, rfl⟩
      · rintro ⟨d, hd | ⟨rfl, rfl⟩, hda⟩
        · exact Or.inl ⟨d, hd, hda⟩
        · exact Or.inr rfl
    next hne =>
      rw [hmem]
      constructor
      · rintro ⟨d, hd, hda⟩
        exact ⟨d, Or.inl hd, hda⟩
      · rintro ⟨d, hd | ⟨rfl, rfl⟩, hda⟩
        · exact ⟨d, hd, hda⟩
        · exact absurd hda hne
  owner_path {path a} ha := by
    obtain ⟨q, hq, hpath⟩ := h.owner_path ha
    obtain ⟨q', hq', hk⟩ := package?_addDeclaration_key.mpr ⟨q, hq, rfl⟩
    exact ⟨q', hq', by rw [hk, hpath]⟩

lemma register_cases (r : Registry) (key : PackageKey) (dir : String) :
    (∃ p, r.packageIds.get? key = some p ∧ r.register key dir = (r, p)) ∨
      (r.packageIds.get? key = none ∧ r.register key dir = (r.addPackage key dir, r.packages.length)) := by
  cases hk : r.packageIds.get? key with
  | some p => exact Or.inl ⟨p, rfl, by simp [register, hk]⟩
  | none => exact Or.inr ⟨rfl, by simp [register, hk]⟩

lemma insert_cases (r : Registry) (package : Nat) (c : Candidate) :
    (r.package? package = none ∧ r.insert package c = (r, .unknownPackage)) ∨
      ∃ p, r.package? package = some p ∧
        ((∃ i, r.declarationId? (c.key p.key) = some i ∧ r.insert package c = (r, .duplicate i)) ∨
          (r.declarationId? (c.key p.key) = none ∧ r.insert package c =
            (r.addDeclaration package (c.key p.key) c, .inserted r.declarations.length))) := by
  cases hp : r.package? package with
  | none => exact Or.inl ⟨rfl, by simp [insert, hp]⟩
  | some p =>
    refine Or.inr ⟨p, rfl, ?_⟩
    cases hk : r.declarationId? (c.key p.key) with
    | some i => exact Or.inl ⟨i, rfl, by simp [insert, hp, hk]⟩
    | none => exact Or.inr ⟨rfl, by simp [insert, hp, hk]⟩

lemma WellFormed.register (h : r.WellFormed) (key : PackageKey) (dir : String) :
    (r.register key dir).1.WellFormed := by
  obtain ⟨p, _, he⟩ | ⟨hnew, he⟩ := register_cases r key dir
  · rw [he]
    exact h
  · rw [he]
    exact h.addPackage dir hnew

lemma WellFormed.insert (h : r.WellFormed) (package : Nat) (c : Candidate) :
    (r.insert package c).1.WellFormed := by
  obtain ⟨_, he⟩ | ⟨p, hp, ⟨i, _, he⟩ | ⟨hnew, he⟩⟩ := insert_cases r package c
  · rw [he]
    exact h
  · rw [he]
    exact h
  · rw [he]
    exact h.addDeclaration c hp rfl hnew

lemma WellFormed.run (h : r.WellFormed) (ops : List Op) : (r.run ops).WellFormed := by
  induction ops generalizing r with
  | nil => exact h
  | cons op ops ih =>
    apply ih
    cases op with
    | register key dir => exact h.register key dir
    | insert package c => exact h.insert package c

lemma WellFormed.key_injective (h : r.WellFormed) {i j : Nat} {d e : Declaration}
    (hd : r.declaration? i = some d) (he : r.declaration? j = some e) (hk : d.key = e.key) : i = j := by
  have hi := h.declarationId_iff.mpr ⟨d, hd, hk⟩
  have hj := h.declarationId_iff.mpr ⟨e, he, rfl⟩
  exact Option.some.inj (hi.symm.trans hj)

lemma WellFormed.lookup_eq_some_iff (h : r.WellFormed) {key : SymbolKey} {d : Declaration} :
    r.lookup key = some d ↔ d ∈ r.declarations ∧ d.key = key := by
  rw [lookup, Option.bind_eq_some_iff]
  constructor
  · rintro ⟨i, hi, hd⟩
    obtain ⟨e, he, rfl⟩ := h.declarationId_iff.mp hi
    obtain rfl := Option.some.inj (hd.symm.trans he)
    exact ⟨List.mem_of_getElem? hd, rfl⟩
  · rintro ⟨hd, rfl⟩
    obtain ⟨i, hi⟩ := List.mem_iff_getElem?.mp hd
    exact ⟨i, h.declarationId_iff.mpr ⟨d, hi, rfl⟩, hi⟩

lemma WellFormed.declaration_keys_nodup (h : r.WellFormed) : (r.declarations.map (·.key)).Nodup :=
  nodup_map_of_getElem? h.key_injective

lemma WellFormed.package_keys_nodup (h : r.WellFormed) : (r.packages.map (·.key)).Nodup := by
  apply nodup_map_of_getElem?
  intro i j p q hp hq hk
  have hi := h.packageId_iff.mpr ⟨p, hp, hk⟩
  have hj := h.packageId_iff.mpr ⟨q, hq, rfl⟩
  exact Option.some.inj (hi.symm.trans hj)

lemma WellFormed.declarations_partition (h : r.WellFormed) :
    (r.packages.flatMap (·.declarations)).Perm (List.range r.declarations.length) := by
  have hnodup : (r.packages.flatMap (·.declarations)).Nodup := by
    refine List.nodup_flatMap.mpr ⟨?_, ?_⟩
    · intro q hq
      obtain ⟨p, hp⟩ := List.mem_iff_getElem?.mp hq
      exact (h.declarations_increasing hp).imp Nat.ne_of_lt
    · refine List.pairwise_iff_getElem.mpr ?_
      intro p q hp hq hpq i hi hj
      obtain ⟨d, hd, hdp⟩ := (h.mem_declarations (List.getElem?_eq_getElem hp) i).mp hi
      obtain ⟨e, he, heq⟩ := (h.mem_declarations (List.getElem?_eq_getElem hq) i).mp hj
      obtain rfl := Option.some.inj (hd.symm.trans he)
      omega
  refine (List.perm_ext_iff_of_nodup hnodup List.nodup_range).mpr ?_
  intro i
  simp only [List.mem_flatMap, List.mem_range]
  constructor
  · rintro ⟨q, hq, hi⟩
    obtain ⟨p, hp⟩ := List.mem_iff_getElem?.mp hq
    obtain ⟨d, hd, _⟩ := (h.mem_declarations hp i).mp hi
    exact declaration?_lt hd
  · intro hi
    have hd : r.declaration? i = some r.declarations[i] := List.getElem?_eq_getElem hi
    obtain ⟨q, hq, _⟩ := h.declaration_package hd
    exact ⟨q, List.mem_of_getElem? hq, (h.mem_declarations hq i).mpr ⟨_, hd, rfl⟩⟩

theorem arenas_and_maps_agree (ops : List Op) :
    let r := empty.run ops
    r.WellFormed ∧ (r.declarations.map (·.key)).Nodup ∧ (r.packages.map (·.key)).Nodup ∧
      (r.packages.flatMap (·.declarations)).Perm (List.range r.declarations.length) := by
  have h := wellFormed_empty.run ops
  exact ⟨h, h.declaration_keys_nodup, h.package_keys_nodup, h.declarations_partition⟩

end Registry

end CallAtlas
