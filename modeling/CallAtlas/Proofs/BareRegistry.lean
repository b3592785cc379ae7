import CallAtlas.Proofs.RegistryInvariant

/-! What a registry is without its calls. Linking changes nothing of it. -/

namespace CallAtlas

def Declaration.bare (d : Declaration) : Declaration :=
  { d with calls := [], calledBy := [], callSites := 0 }

lemma Declaration.bare_eq_iff {d e : Declaration} : d.bare = e.bare ↔
    d.id = e.id ∧ d.key = e.key ∧ d.kind = e.kind ∧ d.package = e.package ∧ d.file = e.file ∧
      d.line = e.line := by
  simp [bare]

namespace Registry

def bare (r : Registry) : Registry := { r with declarations := r.declarations.map (·.bare) }

variable {r r' : Registry}

lemma bare_eq_iff : r.bare = r'.bare ↔
    r.packages = r'.packages ∧ r.declarations.map (·.bare) = r'.declarations.map (·.bare) ∧
      r.packageIds = r'.packageIds ∧ r.owners = r'.owners ∧ r.declarationIds = r'.declarationIds := by
  simp [bare]

lemma declaration?_bare (r : Registry) (i : Nat) :
    r.bare.declaration? i = (r.declaration? i).map (·.bare) :=
  List.getElem?_map

lemma declaration?_modifyDeclaration (r : Registry) (i k : Nat) (f : Declaration → Declaration) :
    (r.modifyDeclaration i f).declaration? k =
      (r.declaration? k).map fun d => if i = k then f d else d := by
  simp only [declaration?, modifyDeclaration, List.getElem?_modify, Option.map_eq_map]

lemma modifyDeclaration_bare (r : Registry) (i : Nat) {f : Declaration → Declaration}
    (hf : ∀ d, (f d).bare = d.bare) : (r.modifyDeclaration i f).bare = r.bare := by
  refine bare_eq_iff.mpr ⟨rfl, List.ext_getElem? ?_, rfl, rfl, rfl⟩
  intro k
  simp only [modifyDeclaration, List.getElem?_map, List.getElem?_modify, Option.map_eq_map, Option.map_map]
  congr 1
  funext d
  by_cases hk : i = k <;> simp [hk, hf]

lemma map_declaration?_of_bare_eq {α : Type} (hb : r'.bare = r.bare) (i : Nat) (f : Declaration → α)
    (hf : ∀ d, f d.bare = f d) : (r'.declaration? i).map f = (r.declaration? i).map f := by
  have hmap : ∀ s : Registry, (s.declaration? i).map f = (s.bare.declaration? i).map f := by
    intro s
    rw [declaration?_bare, Option.map_map]
    congr 1
    funext d
    exact (hf d).symm
  rw [hmap r', hmap r, hb]

lemma WellFormed.of_bare_eq (h : r.WellFormed) (hb : r'.bare = r.bare) : r'.WellFormed := by
  obtain ⟨hpackages, _, hpackageIds, howners, hids⟩ := bare_eq_iff.mp hb
  have hpackage : ∀ p, r'.package? p = r.package? p := by
    intro p
    rw [package?, hpackages, package?]
  have hread : ∀ {i d'}, r'.declaration? i = some d' → ∃ d, r.declaration? i = some d ∧ d.bare = d'.bare := by
    intro i d' hd'
    rw [← Option.map_eq_some_iff, ← map_declaration?_of_bare_eq hb i _ (fun _ => rfl), hd']
    rfl
  constructor
  · intro i d' hd'
    obtain ⟨d, hd, he⟩ := hread hd'
    rw [← (Declaration.bare_eq_iff.mp he).1]
    exact h.declaration_id hd
  · intro p q hq
    exact h.package_id (hpackage p ▸ hq)
  · intro k i
    rw [declarationId?, hids, ← Option.map_eq_some_iff,
      map_declaration?_of_bare_eq hb i _ (fun _ => rfl), Option.map_eq_some_iff]
    exact h.declarationId_iff
  · intro k p
    rw [hpackageIds, hpackage]
    exact h.packageId_iff
  · intro i d' hd'
    obtain ⟨d, hd, he⟩ := hread hd'
    obtain ⟨_, hkey, _, hp, _⟩ := Declaration.bare_eq_iff.mp he
    rw [hpackage, ← hp, ← hkey]
    exact h.declaration_package hd
  · intro p q hq
    exact h.declarations_increasing (hpackage p ▸ hq)
  · intro p q hq i
    rw [← Option.map_eq_some_iff, map_declaration?_of_bare_eq hb i _ (fun _ => rfl),
      Option.map_eq_some_iff]
    exact h.mem_declarations (hpackage p ▸ hq) i
  · intro path p hp
    rw [ownerId?, howners] at hp
    rw [hpackage]
    exact h.owner_path hp

lemma bare_run (h : r.bare = r) (ops : List Op) : (r.run ops).bare = r.run ops := by
  have hd : r.declarations.map (·.bare) = r.declarations := congrArg Registry.declarations h
  induction ops generalizing r with
  | nil => exact h
  | cons op ops ih =>
    have hs : (r.apply op).declarations.map (·.bare) = (r.apply op).declarations := by
      cases op with
      | register key dir =>
        obtain ⟨p, _, he⟩ | ⟨_, he⟩ := register_cases r key dir
        · simpa only [apply, he] using hd
        · simpa only [apply, he, addPackage] using hd
      | insert package c =>
        obtain ⟨_, he⟩ | ⟨p, _, ⟨i, _, he⟩ | ⟨_, he⟩⟩ := insert_cases r package c
        · simpa only [apply, he] using hd
        · simpa only [apply, he] using hd
        · simp only [apply, he, addDeclaration, List.map_append, hd]
          rfl
    exact ih (by simp only [bare, hs]) hs

end Registry

end CallAtlas
