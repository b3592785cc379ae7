import CallAtlas.Proofs.RegistryInvariant

/-! What a registry holds: under every key the declaration that came first, and at every path the first
regular package, or else the first one. -/

namespace CallAtlas

def Declaration.candidate (d : Declaration) : Candidate :=
  ⟨d.key.name, d.key.receiver, d.kind, d.file, d.line⟩

def Package.bare (p : Package) : Package := { p with declarations := [] }

/-- The package that an import of `path` means, among packages in the order they came. -/
def firstAt (path : String) (keys : List PackageKey) : Option PackageKey :=
  (keys.find? fun k => decide (k.path = path) && !k.isExternalTest).or (keys.find? (·.path = path))

namespace Registry

def seen? (r : Registry) (key : SymbolKey) : Option Candidate := (r.lookup key).map (·.candidate)

def packageKeys (r : Registry) : List PackageKey := r.packages.map (·.key)

def declarationKeys (r : Registry) : List SymbolKey := r.declarations.map (·.key)

def ownerKey? (r : Registry) (path : String) : Option PackageKey := (r.owner? path).map (·.key)

variable {r : Registry}

lemma seen?_addDeclaration (h : r.WellFormed) (package : Nat) (p : PackageKey) (c : Candidate)
    (key : SymbolKey) :
    (r.addDeclaration package (c.key p) c).seen? key = if c.key p = key then some c else r.seen? key := by
  have hid : (r.addDeclaration package (c.key p) c).declarationId? key =
      if c.key p = key then some r.declarations.length else r.declarationId? key :=
    Bindings.get?_insert ..
  split
  next heq =>
    rw [if_pos heq] at hid
    have hd : (r.addDeclaration package (c.key p) c).declaration? r.declarations.length =
        some ⟨_, c.key p, c.kind, package, c.file, c.line, [], [], 0⟩ :=
      declaration?_addDeclaration.mpr (Or.inr ⟨rfl, rfl⟩)
    simp only [seen?, lookup, hid, Option.bind_some, hd, Option.map_some]
    rfl
  next hne =>
    rw [if_neg hne] at hid
    cases hi : r.declarationId? key with
    | none => simp [seen?, lookup, hid, hi]
    | some i =>
      obtain ⟨d, hd, _⟩ := h.declarationId_iff.mp hi
      have hd' : (r.addDeclaration package (c.key p) c).declaration? i = some d :=
        declaration?_addDeclaration.mpr (Or.inl hd)
      simp [seen?, lookup, hid, hi, hd, hd']

lemma seen?_insert (h : r.WellFormed) {package : Nat} {p : Package} (hp : r.package? package = some p)
    (c : Candidate) (key : SymbolKey) : (r.insert package c).1.seen? key =
      (r.seen? key).or (if c.key p.key = key then some c else none) := by
  obtain ⟨hn, _⟩ | ⟨q, hq, ⟨i, hi, he⟩ | ⟨hnew, he⟩⟩ := insert_cases r package c
  · cases hn.symm.trans hp
  · obtain rfl := Option.some.inj (hp.symm.trans hq)
    rw [he]
    split
    next heq =>
      subst heq
      obtain ⟨d, hd, _⟩ := h.declarationId_iff.mp hi
      simp [seen?, lookup, hi, hd]
    next => simp
  · obtain rfl := Option.some.inj (hp.symm.trans hq)
    rw [he, seen?_addDeclaration h]
    split
    next heq =>
      subst heq
      simp [seen?, lookup, hnew]
    next => simp

lemma seen?_register (r : Registry) (k : PackageKey) (dir : String) (key : SymbolKey) :
    (r.register k dir).1.seen? key = r.seen? key := by
  obtain ⟨p, _, he⟩ | ⟨_, he⟩ := register_cases r k dir <;> rw [he]
  rfl

lemma packages_insert (r : Registry) (package : Nat) (c : Candidate) :
    (r.insert package c).1.packages.map (·.bare) = r.packages.map (·.bare) := by
  obtain ⟨_, he⟩ | ⟨p, _, ⟨i, _, he⟩ | ⟨_, he⟩⟩ := insert_cases r package c
  · rw [he]
  · rw [he]
  · rw [he]
    apply List.ext_getElem?
    intro q
    simp only [addDeclaration, List.getElem?_map, List.getElem?_modify, Option.map_eq_map, Option.map_map]
    congr 1
    funext p
    by_cases hq : package = q <;> simp [hq, Package.bare, Package.withDeclaration]

lemma packageKeys_eq (r : Registry) : r.packageKeys = (r.packages.map (·.bare)).map (·.key) := by
  rw [List.map_map]
  rfl

lemma packageKeys_insert (r : Registry) (package : Nat) (c : Candidate) :
    (r.insert package c).1.packageKeys = r.packageKeys := by
  rw [packageKeys_eq, packages_insert, packageKeys_eq]

lemma WellFormed.mem_packageKeys (h : r.WellFormed) {k : PackageKey} :
    k ∈ r.packageKeys ↔ ∃ p, r.packageIds.get? k = some p := by
  simp only [packageKeys, List.mem_map, h.packageId_iff]
  constructor
  · rintro ⟨q, hq, rfl⟩
    obtain ⟨p, hp⟩ := List.mem_iff_getElem?.mp hq
    exact ⟨p, q, hp, rfl⟩
  · rintro ⟨p, q, hp, rfl⟩
    exact ⟨q, List.mem_of_getElem? hp, rfl⟩

lemma WellFormed.mem_declarationKeys (h : r.WellFormed) {key : SymbolKey} :
    key ∈ r.declarationKeys ↔ (r.seen? key).isSome = true := by
  simp only [declarationKeys, List.mem_map, seen?, Option.isSome_map, Option.isSome_iff_exists,
    h.lookup_eq_some_iff]

lemma WellFormed.contains_iff (h : r.WellFormed) {key : SymbolKey} :
    r.contains key = true ↔ key ∈ r.declarationKeys := by
  simp only [contains, Option.isSome_iff_exists, h.declarationId_iff, declarationKeys, List.mem_map]
  constructor
  · rintro ⟨i, d, hd, rfl⟩
    exact ⟨d, List.mem_of_getElem? hd, rfl⟩
  · rintro ⟨d, hd, rfl⟩
    obtain ⟨i, hi⟩ := List.mem_iff_getElem?.mp hd
    exact ⟨i, d, hi, rfl⟩

lemma WellFormed.packages_register (h : r.WellFormed) (k : PackageKey) (dir : String) :
    (r.register k dir).1.packages.map (·.bare) =
      if k ∈ r.packageKeys then r.packages.map (·.bare)
      else r.packages.map (·.bare) ++ [⟨r.packages.length, k, dir, []⟩] := by
  obtain ⟨p, hp, he⟩ | ⟨hn, he⟩ := register_cases r k dir
  · rw [he, if_pos (h.mem_packageKeys.mpr ⟨p, hp⟩)]
  · have hk : k ∉ r.packageKeys := by
      intro hk
      obtain ⟨p, hp⟩ := h.mem_packageKeys.mp hk
      cases hn.symm.trans hp
    rw [he, if_neg hk]
    simp [Registry.addPackage, Package.bare]

lemma WellFormed.packageKeys_register (h : r.WellFormed) (k : PackageKey) (dir : String) :
    (r.register k dir).1.packageKeys =
      if k ∈ r.packageKeys then r.packageKeys else r.packageKeys ++ [k] := by
  rw [packageKeys_eq, h.packages_register]
  split
  · rw [← packageKeys_eq]
  · rw [List.map_append, ← packageKeys_eq]
    rfl

lemma ownerId?_addPackage (r : Registry) (k : PackageKey) (dir path : String) :
    (r.addPackage k dir).ownerId? path =
      if k.path = path ∧ r.takesPath k = true then some r.packages.length else r.ownerId? path := by
  by_cases ht : r.takesPath k = true <;> simp [ownerId?, addPackage, ht, Bindings.get?_insert]

lemma ownerKey?_addPackage (h : r.WellFormed) (k : PackageKey) (dir path : String) :
    (r.addPackage k dir).ownerKey? path =
      if k.path = path ∧ r.takesPath k = true then some k else r.ownerKey? path := by
  simp only [ownerKey?, owner?, ownerId?_addPackage]
  split
  next =>
    have hp : (r.addPackage k dir).package? r.packages.length = some ⟨_, k, dir, []⟩ :=
      package?_addPackage.mpr (Or.inr ⟨rfl, rfl⟩)
    simp [hp]
  next =>
    cases ho : r.ownerId? path with
    | none => rfl
    | some p =>
      obtain ⟨q, hq, _⟩ := h.owner_path ho
      have hq' : (r.addPackage k dir).package? p = some q := package?_addPackage.mpr (Or.inl hq)
      simp [hq, hq']

lemma ownerKey?_insert (r : Registry) (package : Nat) (c : Candidate) (path : String) :
    (r.insert package c).1.ownerKey? path = r.ownerKey? path := by
  have hk := packageKeys_insert r package c
  have ho : (r.insert package c).1.ownerId? path = r.ownerId? path := by
    obtain ⟨_, he⟩ | ⟨p, _, ⟨i, _, he⟩ | ⟨_, he⟩⟩ := insert_cases r package c <;> rw [he]
    rfl
  have hp : ∀ p, ((r.insert package c).1.package? p).map (·.key) = (r.package? p).map (·.key) := by
    intro p
    simpa only [packageKeys, package?, List.getElem?_map] using
      congrArg (fun ks : List PackageKey => ks[p]?) hk
  rw [ownerKey?, owner?, ho, ownerKey?, owner?]
  cases r.ownerId? path with
  | none => rfl
  | some p => exact hp p

end Registry

lemma firstAt_eq_none_iff {path : String} {keys : List PackageKey} :
    firstAt path keys = none ↔ ∀ k ∈ keys, k.path ≠ path := by
  simp only [firstAt, Option.or_eq_none_iff, List.find?_eq_none, Bool.and_eq_true, decide_eq_true_eq]
  constructor
  · exact fun h => h.2
  · exact fun h => ⟨fun k hk hp => h k hk hp.1, h⟩

lemma firstAt_eq_some {path : String} {keys : List PackageKey} {k : PackageKey}
    (h : firstAt path keys = some k) : k ∈ keys ∧ k.path = path ∧
      (k.isExternalTest = true → ∀ l ∈ keys, l.path = path → l.isExternalTest = true) := by
  rcases Option.or_eq_some_iff.mp h with hregular | ⟨hregular, hany⟩
  · have hk : k.path = path ∧ k.isExternalTest = false := by simpa using List.find?_some hregular
    refine ⟨List.mem_of_find?_eq_some hregular, hk.1, ?_⟩
    intro ht
    cases hk.2.symm.trans ht
  · refine ⟨List.mem_of_find?_eq_some hany, by simpa using List.find?_some hany, ?_⟩
    intro _ l hl hp
    simpa [hp] using List.find?_eq_none.mp hregular l hl

lemma firstAt_snoc (path : String) (keys : List PackageKey) (k : PackageKey) :
    firstAt path (keys ++ [k]) =
      if k.path = path ∧ (firstAt path keys).all (fun o => o.isExternalTest && !k.isExternalTest) = true
      then some k else firstAt path keys := by
  simp only [firstAt, List.find?_append, List.find?_singleton]
  by_cases hp : k.path = path
  · obtain hregular | ⟨o, hregular⟩ :=
      Option.eq_none_or_eq_some (keys.find? fun k => decide (k.path = path) && !k.isExternalTest)
    · obtain hany | ⟨o, hany⟩ := Option.eq_none_or_eq_some (keys.find? (·.path = path))
      · cases k.isExternalTest <;> simp [hregular, hany, hp]
      · -- no package at the path is regular, so this one is not
        have ho : o.isExternalTest = true := by
          have hall := List.find?_eq_none.mp hregular o (List.mem_of_find?_eq_some hany)
          have hpath : o.path = path := by simpa using List.find?_some hany
          simpa [hpath] using hall
        cases k.isExternalTest <;> simp [hregular, hany, hp, ho]
    · have ho : o.path = path ∧ o.isExternalTest = false := by simpa using List.find?_some hregular
      simp [hregular, ho]
  · simp [hp]

lemma firstAt_append {path : String} {keys more : List PackageKey} {k : PackageKey}
    (h : firstAt path keys = some k)
    (hmore : k.isExternalTest = true → ∀ l ∈ more, l.path = path → l.isExternalTest = true) :
    firstAt path (keys ++ more) = some k := by
  rcases Option.or_eq_some_iff.mp h with hregular | ⟨hregular, hany⟩
  · rw [firstAt, List.find?_append, hregular, Option.some_or, Option.some_or]
  · have hk : k.isExternalTest = true := by
      have hpath : k.path = path := by simpa using List.find?_some hany
      simpa [hpath] using List.find?_eq_none.mp hregular k (List.mem_of_find?_eq_some hany)
    have hnone : more.find? (fun l => decide (l.path = path) && !l.isExternalTest) = none := by
      rw [List.find?_eq_none]
      intro l hl hp
      simp only [Bool.and_eq_true, decide_eq_true_eq, Bool.not_eq_true'] at hp
      rw [hmore hk l hl hp.1] at hp
      cases hp.2
    rw [firstAt, List.find?_append, List.find?_append, hregular, hnone, hany]
    rfl

namespace Registry

variable {r : Registry}

lemma takesPath_eq (r : Registry) (k : PackageKey) : r.takesPath k =
    (r.ownerKey? k.path).all (fun o => o.isExternalTest && !k.isExternalTest) := by
  rw [takesPath, ownerKey?]
  cases r.owner? k.path <;> rfl

def OwnersFirst (r : Registry) : Prop := ∀ path, r.ownerKey? path = firstAt path r.packageKeys

lemma ownersFirst_empty : empty.OwnersFirst := fun _ => rfl

lemma OwnersFirst.register (ho : r.OwnersFirst) (h : r.WellFormed) (k : PackageKey) (dir : String) :
    (r.register k dir).1.OwnersFirst := by
  intro path
  obtain ⟨p, _, he⟩ | ⟨_, he⟩ := register_cases r k dir
  · rw [he, ho]
  · have hkeys : (r.addPackage k dir).packageKeys = r.packageKeys ++ [k] := by
      simp [packageKeys, addPackage]
    rw [he, ownerKey?_addPackage h, hkeys, firstAt_snoc, takesPath_eq, ho, ho]
    by_cases hp : k.path = path
    · subst hp
      rfl
    · simp [hp]

lemma OwnersFirst.insert (ho : r.OwnersFirst) (package : Nat) (c : Candidate) :
    (r.insert package c).1.OwnersFirst := by
  intro path
  rw [ownerKey?_insert, packageKeys_insert, ho]

end Registry

end CallAtlas
