import CallAtlas.Imports
import CallAtlas.Proofs.KeyText

/-! A name stands for the path of the last import that binds it. -/

namespace CallAtlas

/-- `x` is what stands behind the last slash of a path, or the whole path where there is none. -/
inductive Path.EndsIn : String → String → Prop
  | whole {x : String} (h : '/' ∉ x.toList) : EndsIn x x
  | behind {x : String} (dir : String) (h : '/' ∉ x.toList) : EndsIn (dir ++ "/" ++ x) x

/-- The names that an import binds. A dot, a blank or an empty name binds nothing. -/
inductive Import.Binds : Import → String → Prop
  | named {x : String} (path : String) (hx : x ≠ "") : Binds ⟨some (.named x), path⟩ x
  | unnamed {path x : String} (h : Path.EndsIn path x) (hx : x ≠ "") : Binds ⟨none, path⟩ x

namespace Path

lemma EndsIn.lastSegment_eq {path x : String} (h : EndsIn path x) : lastSegment path = x := by
  cases h with
  | whole h => rw [lastSegment, behindLast_of_notMem h, String.ofList_toList]
  | behind dir h =>
    have htext : (dir ++ "/" ++ x).toList = dir.toList ++ '/' :: x.toList := by simp
    rw [lastSegment, htext, behindLast_append h, String.ofList_toList]

lemma endsIn_lastSegment (path : String) : EndsIn path (lastSegment path) := by
  obtain ⟨x, hx⟩ : ∃ x, EndsIn path x := by
    by_cases hslash : '/' ∈ path.toList
    · obtain ⟨dir, x, he, hx⟩ := exists_eq_append_of_mem hslash
      have hpath : path = String.ofList dir ++ "/" ++ String.ofList x := by
        rw [← String.toList_inj, he]
        simp
      rw [hpath]
      exact ⟨_, .behind _ (by simpa using hx)⟩
    · exact ⟨path, .whole hslash⟩
  rwa [hx.lastSegment_eq]

end Path

lemma Import.binds_iff {i : Import} {x : String} : i.Binds x ↔ i.bound? = some x := by
  constructor
  · intro h
    cases h with
    | named path hx => simp [bound?, hx]
    | unnamed h hx => simp [bound?, h.lastSegment_eq, hx]
  · intro h
    obtain ⟨name, path⟩ := i
    rcases name with _ | text | _ | _
    · obtain ⟨hne, rfl⟩ : Path.lastSegment path ≠ "" ∧ Path.lastSegment path = x := by simpa [bound?] using h
      exact .unnamed (Path.endsIn_lastSegment path) hne
    · obtain ⟨hne, rfl⟩ : text ≠ "" ∧ text = x := by simpa [bound?] using h
      exact .named path hne
    · simp [bound?] at h
    · simp [bound?] at h

namespace Bindings

variable {κ ν : Type} [DecidableEq κ] {m : Bindings κ ν}

def keys (m : Bindings κ ν) : List κ := m.entries.map Prod.fst

lemma mem_keys_iff {k : κ} : k ∈ m.keys ↔ m.get? k ≠ none := by
  simp [keys, get?]

lemma nodup_keys_insert (h : m.keys.Nodup) (k : κ) (v : ν) : (m.insert k v).keys.Nodup := by
  refine List.nodup_cons.mpr ⟨?_, h.sublist (List.filter_sublist.map _)⟩
  simp

end Bindings

namespace ImportMap

lemma ofImports_snoc (imports : List Import) (i : Import) :
    ofImports (imports ++ [i]) =
      match i.bound? with
      | some name => (ofImports imports).insert name i.path
      | none => ofImports imports := by
  rw [ofImports, List.foldl_append]
  rfl

lemma nodup_keys_ofImports (imports : List Import) : (ofImports imports).keys.Nodup := by
  induction imports using List.reverseRecOn with
  | nil => exact List.nodup_nil
  | append_singleton imports i ih =>
    rw [ofImports_snoc]
    split
    next => exact Bindings.nodup_keys_insert ih _ _
    next => exact ih

lemma get?_ofImports (imports : List Import) (x : String) :
    (ofImports imports).get? x = (imports.reverse.find? (·.bound? = some x)).map Import.path := by
  induction imports using List.reverseRecOn with
  | nil => rfl
  | append_singleton imports i ih =>
    rw [ofImports_snoc, List.reverse_append, List.reverse_singleton, List.singleton_append, List.find?_cons]
    cases hi : i.bound? with
    | none => simp [ih]
    | some name =>
      by_cases hx : name = x
      · simp [hx]
      · simp [Bindings.get?_insert, hx, ih]

lemma get?_eq_some_iff {imports : List Import} {x path : String} :
    (ofImports imports).get? x = some path ↔
      ∃ earlier i later, imports = earlier ++ i :: later ∧ i.Binds x ∧ i.path = path ∧
        ∀ j ∈ later, ¬j.Binds x := by
  rw [get?_ofImports, Option.map_eq_some_iff]
  constructor
  · rintro ⟨i, hi, hpath⟩
    obtain ⟨hbound, later, earlier, hsplit, hlater⟩ := List.find?_eq_some_iff_append.mp hi
    refine ⟨earlier.reverse, i, later.reverse, ?_, Import.binds_iff.mpr (by simpa using hbound), hpath, ?_⟩
    · rw [← List.reverse_reverse imports, hsplit]
      simp
    · intro j hj hbinds
      simpa [Import.binds_iff.mp hbinds] using hlater j (List.mem_reverse.mp hj)
  · rintro ⟨earlier, i, later, rfl, hbinds, hpath, hlater⟩
    refine ⟨i, List.find?_eq_some_iff_append.mpr ⟨by simp [Import.binds_iff.mp hbinds], later.reverse,
      earlier.reverse, by simp, ?_⟩, hpath⟩
    intro j hj
    simpa [← Import.binds_iff] using hlater j (List.mem_reverse.mp hj)

lemma get?_eq_none_iff {imports : List Import} {x : String} :
    (ofImports imports).get? x = none ↔ ∀ i ∈ imports, ¬i.Binds x := by
  simp [get?_ofImports, Import.binds_iff]

theorem last_binding_import_wins (imports : List Import) :
    (∀ x path, (ofImports imports).get? x = some path ↔
      ∃ earlier i later, imports = earlier ++ i :: later ∧ i.Binds x ∧ i.path = path ∧
        ∀ j ∈ later, ¬j.Binds x) ∧
    (∀ x, (ofImports imports).get? x = none ↔ ∀ i ∈ imports, ¬i.Binds x) ∧
    ∃ names : List String, names.Nodup ∧ (∀ x, x ∈ names ↔ ∃ i ∈ imports, i.Binds x) ∧
      (ofImports imports).size = names.length := by
  refine ⟨fun x path => get?_eq_some_iff, fun x => get?_eq_none_iff, (ofImports imports).keys,
    nodup_keys_ofImports imports, ?_, (List.length_map _).symm⟩
  intro x
  rw [Bindings.mem_keys_iff, ne_eq, get?_eq_none_iff]
  push Not
  rfl

end ImportMap

end CallAtlas
