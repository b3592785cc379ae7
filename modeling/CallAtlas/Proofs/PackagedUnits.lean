import CallAtlas.Analysis
import CallAtlas.Proofs.BareRegistry
import CallAtlas.Proofs.FirstSeen
import Mathlib.Data.List.Induction

/-! The units that take part in an analysis, and what their registration leaves behind. -/

namespace CallAtlas

/-- A unit that was read and has a package name, with the package it belongs to. -/
structure PackagedUnit where
  path : String
  package : PackageKey
  unit : SourceUnit

def UnitInput.packaged? (module : Option String) (input : UnitInput) : Option PackagedUnit :=
  match input.parsed with
  | .error _ => none
  | .ok unit =>
    match unit.package with
    | none => none
    | some name =>
      if name = "" then none
      else some ⟨input.path, ⟨Path.package module (Path.unitDir input.path), name⟩, unit⟩

namespace UnitInput

def hasPackage (input : UnitInput) : Bool :=
  match input.parsed with
  | .error _ => false
  | .ok unit => unit.package.any (· ≠ "")

lemma packaged?_isSome (module : Option String) (input : UnitInput) :
    (input.packaged? module).isSome = input.hasPackage := by
  rcases hp : input.parsed with _ | unit
  · simp [packaged?, hasPackage, hp]
  · rcases hn : unit.package with _ | name
    · simp [packaged?, hasPackage, hp, hn]
    · by_cases he : name = "" <;> simp [packaged?, hasPackage, hp, hn, he]

lemma of_packaged? {module : Option String} {input : UnitInput} {u : PackagedUnit}
    (h : input.packaged? module = some u) : u.path = input.path ∧ input.parsed = .ok u.unit ∧
      u.unit.package = some u.package.name := by
  rcases hp : input.parsed with _ | unit
  · simp [packaged?, hp] at h
  · rcases hn : unit.package with _ | name
    · simp [packaged?, hp, hn] at h
    · by_cases he : name = ""
      · simp [packaged?, hp, hn, he] at h
      · simp only [packaged?, hp, hn, if_neg he, Option.some.injEq] at h
        subst h
        exact ⟨rfl, rfl, hn⟩

lemma isOk_of_hasPackage {input : UnitInput} (h : input.hasPackage = true) : input.parsed.isOk = true := by
  rcases hp : input.parsed with _ | unit
  · simp [hasPackage, hp] at h
  · rfl

end UnitInput

def packagedUnits (module : Option String) (inputs : List UnitInput) : List PackagedUnit :=
  inputs.filterMap (UnitInput.packaged? module)

namespace PackagedUnit

def candidates (u : PackagedUnit) : List Candidate := u.unit.items.filterMap (Item.candidate? u.path)

def counts (u : PackagedUnit) : UnitCounts :=
  u.unit.items.foldl Item.count { lines := u.unit.lineCount, isTest := isTestPath u.path }

def extraction (u : PackagedUnit) : Extraction := ⟨u.package, Path.unitDir u.path, u.candidates, u.counts⟩

def declared (u : PackagedUnit) : List (SymbolKey × Candidate) :=
  u.candidates.map fun c => (c.key u.package, c)

def scope (r : Registry) (u : PackagedUnit) : Scope := ⟨r, u.package, .ofImports u.unit.imports⟩

end PackagedUnit

lemma UnitInput.ofUnit_eq {module : Option String} {input : UnitInput} {unit : SourceUnit}
    (hp : input.parsed = .ok unit) :
    Extraction.ofUnit input.path unit module = (input.packaged? module).map (·.extraction) := by
  rcases hn : unit.package with _ | name
  · simp [Extraction.ofUnit, packaged?, hp, hn]
  · by_cases he : name = ""
    · simp [Extraction.ofUnit, packaged?, hp, hn, he]
    · simp only [Extraction.ofUnit, packaged?, hp, hn, if_neg he, Option.map_some]
      rfl

def declared (us : List PackagedUnit) : List (SymbolKey × Candidate) := us.flatMap (·.declared)

lemma Item.candidate?_file {file : String} {item : Item} {c : Candidate}
    (h : item.candidate? file = some c) : c.file = file := by
  cases item with
  | func f =>
    obtain ⟨name, _ | ⟨_ | base⟩, line, body⟩ := f
    · cases h
      rfl
    · cases h
    · cases h
      rfl
  | type name shape line =>
    cases h
    rfl
  | value calls => cases h

lemma of_mem_declared {us : List PackagedUnit} {x : SymbolKey × Candidate} (hx : x ∈ declared us) :
    ∃ u ∈ us, x.1.package = u.package ∧ x.2.file = u.path := by
  obtain ⟨u, hu, hxu⟩ := List.mem_flatMap.mp hx
  obtain ⟨c, hc, rfl⟩ := List.mem_map.mp hxu
  obtain ⟨item, _, hitem⟩ := List.mem_filterMap.mp hc
  exact ⟨u, hu, rfl, Item.candidate?_file hitem⟩

def registryOf (us : List PackagedUnit) : Registry :=
  us.foldl (fun r u => (u.extraction.register r).1) .empty

lemma registryOf_snoc (us : List PackagedUnit) (u : PackagedUnit) :
    registryOf (us ++ [u]) = (u.extraction.register (registryOf us)).1 := by
  simp [registryOf]

lemma declared_snoc (us : List PackagedUnit) (u : PackagedUnit) :
    declared (us ++ [u]) = declared us ++ u.declared := by
  simp [declared]

lemma Registry.run_append (r : Registry) (xs ys : List Op) : r.run (xs ++ ys) = (r.run xs).run ys :=
  List.foldl_append

namespace Extraction

lemma foldl_registerOne (package : Nat) (cs : List Candidate) (r : Registry) (done : Registration) :
    (cs.foldl (registerOne package) (r, done)).1 = r.run (cs.map (.insert package)) := by
  induction cs generalizing r done with
  | nil => rfl
  | cons c cs ih =>
    have hstep : (registerOne package (r, done) c).1 = (r.insert package c).1 := by
      simp only [registerOne]
      split <;> simp_all
    rw [List.foldl_cons, List.map_cons]
    change (cs.foldl _ (registerOne package (r, done) c)).1 = ((r.insert package c).1).run _
    rw [← hstep]
    exact ih _ _

lemma register_eq_run (r : Registry) (e : Extraction) : (e.register r).1 =
    r.run (.register e.package e.dir :: e.declarations.map (.insert (r.register e.package e.dir).2)) :=
  foldl_registerOne _ _ _ _

end Extraction

lemma registryOf_snoc_run (us : List PackagedUnit) (u : PackagedUnit) :
    let first := (registryOf us).register u.package (Path.unitDir u.path)
    registryOf (us ++ [u]) = first.1.run (u.candidates.map (.insert first.2)) := by
  rw [registryOf_snoc, Extraction.register_eq_run]
  rfl

lemma registryOf_append_eq_run (us vs : List PackagedUnit) :
    ∃ ops, registryOf (us ++ vs) = (registryOf us).run ops := by
  induction vs using List.reverseRecOn with
  | nil => exact ⟨[], by rw [List.append_nil]; rfl⟩
  | append_singleton vs v ih =>
    obtain ⟨ops, hops⟩ := ih
    rw [← List.append_assoc, registryOf_snoc, Extraction.register_eq_run, hops, ← Registry.run_append]
    exact ⟨_, rfl⟩

lemma registryOf_eq_run (us : List PackagedUnit) : ∃ ops, registryOf us = Registry.empty.run ops :=
  registryOf_append_eq_run [] us

lemma registryOf_wellFormed (us : List PackagedUnit) : (registryOf us).WellFormed := by
  obtain ⟨ops, hops⟩ := registryOf_eq_run us
  exact hops ▸ Registry.wellFormed_empty.run ops

lemma registryOf_bare (us : List PackagedUnit) : (registryOf us).bare = registryOf us := by
  obtain ⟨ops, hops⟩ := registryOf_eq_run us
  exact hops ▸ Registry.bare_run rfl ops

namespace Registry

variable {r : Registry}

lemma declarationKeys_of_bare_eq {r' : Registry} (hb : r'.bare = r.bare) :
    r'.declarationKeys = r.declarationKeys := by
  have hkeys : ∀ s : Registry, s.declarationKeys = (s.declarations.map (·.bare)).map (·.key) := by
    intro s
    rw [List.map_map]
    rfl
  rw [hkeys, hkeys, (bare_eq_iff.mp hb).2.1]

lemma packageKeys_of_bare_eq {r' : Registry} (hb : r'.bare = r.bare) : r'.packageKeys = r.packageKeys := by
  rw [packageKeys, (bare_eq_iff.mp hb).1, packageKeys]

lemma WellFormed.package?_register (h : r.WellFormed) (k : PackageKey) (dir : String) :
    ∃ q, (r.register k dir).1.package? (r.register k dir).2 = some q ∧ q.key = k := by
  obtain ⟨p, hp, he⟩ | ⟨_, he⟩ := register_cases r k dir
  · rw [he]
    exact h.packageId_iff.mp hp
  · rw [he]
    exact ⟨_, package?_addPackage.mpr (Or.inr ⟨rfl, rfl⟩), rfl⟩

lemma package?_insert_key {package p : Nat} {c : Candidate} {k : PackageKey}
    (h : ∃ q, r.package? p = some q ∧ q.key = k) :
    ∃ q, (r.insert package c).1.package? p = some q ∧ q.key = k := by
  obtain ⟨_, he⟩ | ⟨_, _, ⟨_, _, he⟩ | ⟨_, he⟩⟩ := insert_cases r package c
  · rwa [he]
  · rwa [he]
  · rw [he]
    exact package?_addDeclaration_key.mpr h

lemma seen?_run_insert (h : r.WellFormed) {package : Nat} {k : PackageKey}
    (hp : ∃ q, r.package? package = some q ∧ q.key = k) (cs : List Candidate) (key : SymbolKey) :
    (r.run (cs.map (.insert package))).seen? key = (r.seen? key).or (cs.find? (·.key k = key)) := by
  induction cs generalizing r with
  | nil => simp [run]
  | cons c cs ih =>
    have hs := ih (h.insert package c) (package?_insert_key hp)
    obtain ⟨q, hq, rfl⟩ := hp
    change (((r.insert package c).1).run _).seen? key = _
    rw [hs, seen?_insert h hq, List.find?_cons]
    by_cases hc : c.key q.key = key <;> simp [hc]

lemma packageKeys_run_insert (r : Registry) (package : Nat) (cs : List Candidate) :
    (r.run (cs.map (.insert package))).packageKeys = r.packageKeys := by
  induction cs generalizing r with
  | nil => rfl
  | cons c cs ih => exact (ih _).trans (packageKeys_insert r package c)

lemma OwnersFirst.run (ho : r.OwnersFirst) (h : r.WellFormed) (ops : List Op) : (r.run ops).OwnersFirst := by
  induction ops generalizing r with
  | nil => exact ho
  | cons op ops ih =>
    cases op with
    | register k dir => exact ih (ho.register h k dir) (h.register k dir)
    | insert package c => exact ih (ho.insert package c) (h.insert package c)

end Registry

lemma registryOf_ownerKey? (us : List PackagedUnit) (path : String) :
    (registryOf us).ownerKey? path = firstAt path (registryOf us).packageKeys := by
  obtain ⟨ops, hops⟩ := registryOf_eq_run us
  rw [hops]
  exact Registry.ownersFirst_empty.run Registry.wellFormed_empty ops path

lemma PackagedUnit.find?_declared (u : PackagedUnit) (key : SymbolKey) :
    (u.declared.find? (·.1 = key)).map (·.2) = u.candidates.find? (·.key u.package = key) := by
  simp [declared, List.find?_map, Function.comp_def]

lemma registryOf_seen? (us : List PackagedUnit) (key : SymbolKey) :
    (registryOf us).seen? key = ((declared us).find? (·.1 = key)).map (·.2) := by
  induction us using List.reverseRecOn with
  | nil => rfl
  | append_singleton us u ih =>
    have h := registryOf_wellFormed us
    have hs := Registry.seen?_run_insert (h.register u.package (Path.unitDir u.path))
      (h.package?_register u.package (Path.unitDir u.path)) u.candidates key
    rw [Registry.seen?_register] at hs
    rw [registryOf_snoc_run, hs, ih, declared_snoc, List.find?_append, Option.map_or, u.find?_declared]

lemma mem_registryOf_declarationKeys (us : List PackagedUnit) (key : SymbolKey) :
    key ∈ (registryOf us).declarationKeys ↔ ∃ x ∈ declared us, x.1 = key := by
  rw [(registryOf_wellFormed us).mem_declarationKeys, registryOf_seen?, Option.isSome_map,
    List.find?_isSome]
  simp

lemma mem_declared_of_registryOf {us : List PackagedUnit} {i : Nat} {d : Declaration}
    (hd : (registryOf us).declaration? i = some d) : (d.key, d.candidate) ∈ declared us := by
  have hid : (registryOf us).declarationId? d.key = some i :=
    (registryOf_wellFormed us).declarationId_iff.mpr ⟨d, hd, rfl⟩
  have hseen := registryOf_seen? us d.key
  rw [Registry.seen?, Registry.lookup, hid, Option.bind_some, hd, Option.map_some, eq_comm,
    Option.map_eq_some_iff] at hseen
  obtain ⟨⟨key, c⟩, hfind, rfl⟩ := hseen
  have hkey : key = d.key := by simpa using List.find?_some hfind
  exact hkey ▸ List.mem_of_find?_eq_some hfind

lemma find?_packageKeys (us : List PackagedUnit) (p : PackageKey → Bool) :
    (registryOf us).packageKeys.find? p = (us.map (·.package)).find? p := by
  induction us using List.reverseRecOn with
  | nil => rfl
  | append_singleton us u ih =>
    rw [registryOf_snoc_run, Registry.packageKeys_run_insert,
      (registryOf_wellFormed us).packageKeys_register, List.map_append, List.find?_append, ← ih]
    split
    next hmem =>
      cases hp : p u.package with
      | false => simp [hp]
      | true =>
        obtain ⟨k, hk⟩ := Option.isSome_iff_exists.mp (List.find?_isSome.mpr ⟨u.package, hmem, hp⟩)
        rw [hk, Option.some_or]
    next => rw [List.find?_append]; rfl

lemma mem_registryOf_packageKeys (us : List PackagedUnit) (k : PackageKey) :
    k ∈ (registryOf us).packageKeys ↔ ∃ u ∈ us, u.package = k := by
  have hfind := congrArg Option.isSome (find?_packageKeys us fun l => decide (l = k))
  rw [Bool.eq_iff_iff, List.find?_isSome, List.find?_isSome] at hfind
  simpa using hfind

end CallAtlas
