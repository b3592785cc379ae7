import CallAtlas.FileSystem
import CallAtlas.Project
import CallAtlas.Proofs.DirTreeNodes
import Mathlib.Data.List.Perm.Basic

/-! The walk through a project meets the entries that no skipped directory holds, and meets them in order. -/

namespace CallAtlas

namespace Location

def path (x : Location) : String := Path.relative x.names

/-- The directories on the way to an entry, itself included when it is one. -/
def directories (x : Location) : List String := if x.isDir then x.names else x.names.dropLast

lemma directories_under {x : Location} (n : String) (h : x.names ≠ []) :
    (x.under n).directories = n :: x.directories := by
  cases hd : x.isDir <;> simp [directories, under, hd, List.dropLast_cons_of_ne_nil h]

end Location

namespace Entry

@[elab_as_elim]
lemma induction {motive : Entry → Prop} (file : ∀ n, motive (file n))
    (directory : ∀ n es, (∀ e ∈ es, motive e) → motive (directory n es)) (e : Entry) : motive e :=
  match e with
  | .file n => file n
  | .directory n es => directory n es fun e _ => induction file directory e

/-- Where an entry stands and all that stands in it. Links are files and lead nowhere. -/
inductive At : Entry → Location → Prop
  | file (n : String) : At (.file n) ⟨[n], false⟩
  | directory (n : String) (es : List Entry) : At (.directory n es) ⟨[n], true⟩
  | inside {n : String} {es : List Entry} {e : Entry} {x : Location} : e ∈ es → At e x →
      At (.directory n es) (x.under n)

/-- Names as a directory tree has them: proper ones, and no two equal in one directory. -/
inductive WellNamed : Entry → Prop
  | file {n : String} : IsName n → WellNamed (.file n)
  | directory {n : String} {es : List Entry} : IsName n → (es.map name).Nodup →
      (∀ e ∈ es, WellNamed e) → WellNamed (.directory n es)

def sorted (es : List Entry) : List Entry := (sortAll es).mergeSort fun a b => a.name ≤ b.name

/-- There is an entry below a directory, and no directory on the way to it is skipped. -/
structure Kept (skipped : List String) (es : List Entry) (x : Location) : Prop where
  stands : ∃ e ∈ es, e.At x
  unskipped : ∀ n ∈ x.directories, n ∉ skipped

structure Tidy (es : List Entry) : Prop where
  nodup : (es.map name).Nodup
  wellNamed : ∀ e ∈ es, e.WellNamed

variable {skipped : List String} {e : Entry} {es : List Entry} {x : Location}

lemma At.names_eq (h : e.At x) : ∃ q, x.names = e.name :: q := by
  cases h with
  | file n => exact ⟨[], rfl⟩
  | directory n es => exact ⟨[], rfl⟩
  | inside _ _ => exact ⟨_, rfl⟩

lemma At.names_ne_nil (h : e.At x) : x.names ≠ [] := by
  obtain ⟨q, hq⟩ := h.names_eq
  simp [hq]

lemma wellNamed_file {n : String} : (file n).WellNamed ↔ IsName n :=
  ⟨fun | .file h => h, .file⟩

lemma wellNamed_directory {n : String} :
    (directory n es).WellNamed ↔ IsName n ∧ (es.map name).Nodup ∧ ∀ e ∈ es, e.WellNamed :=
  ⟨fun | .directory hn hd he => ⟨hn, hd, he⟩, fun h => .directory h.1 h.2.1 h.2.2⟩

lemma at_file {n : String} : (file n).At x ↔ x = ⟨[n], false⟩ := by
  constructor
  · rintro ⟨⟩
    rfl
  · rintro rfl
    exact .file n

lemma at_directory {n : String} :
    (directory n es).At x ↔ x = ⟨[n], true⟩ ∨ ∃ e ∈ es, ∃ y, e.At y ∧ y.under n = x := by
  constructor
  · rintro (_ | _ | ⟨he, hy⟩)
    · exact Or.inl rfl
    · exact Or.inr ⟨_, he, _, hy, rfl⟩
  · rintro (rfl | ⟨e, he, y, hy, rfl⟩)
    · exact .directory n es
    · exact .inside he hy

lemma At.of_prefix (h : e.At x) {q : List String} (hq : q ≠ []) (hpre : q <+: x.names) :
    q = x.names ∨ e.At ⟨q, true⟩ := by
  induction h generalizing q with
  | file n => exact Or.inl (hpre.eq_of_length_le (List.length_pos_iff.mpr hq))
  | directory n es => exact Or.inl (hpre.eq_of_length_le (List.length_pos_iff.mpr hq))
  | @inside n es e y he hy ih =>
    obtain ⟨m, q, rfl⟩ := List.exists_cons_of_ne_nil hq
    obtain ⟨rfl, hbelow⟩ := List.cons_prefix_cons.mp hpre
    by_cases hnil : q = []
    · exact Or.inr (hnil ▸ .directory m es)
    · rcases ih hnil hbelow with rfl | hat
      · exact Or.inl rfl
      · exact Or.inr (.inside he hat)

lemma sortAll_eq (es : List Entry) : sortAll es = es.map sort := by
  induction es with
  | nil => rfl
  | cons e es ih => rw [sortAll, ih, List.map_cons]

lemma mem_sorted : e ∈ sorted es ↔ ∃ e₀ ∈ es, e₀.sort = e := by
  rw [sorted, (List.mergeSort_perm _ _).mem_iff, sortAll_eq, List.mem_map]

@[simp] lemma sort_name (e : Entry) : e.sort.name = e.name := by
  cases e <;> rfl

lemma sorted_increasing (h : (es.map name).Nodup) :
    (sorted es).Pairwise (fun a b => a.name < b.name) := by
  have hle : (sorted es).Pairwise (fun a b => a.name ≤ b.name) := by
    have hsorted : (sorted es).Pairwise (fun a b => decide (a.name ≤ b.name) = true) := by
      apply List.pairwise_mergeSort
      · intro a b c hab hbc
        exact decide_eq_true (String.le_trans (of_decide_eq_true hab) (of_decide_eq_true hbc))
      · intro a b
        simpa using String.le_total a.name b.name
    exact hsorted.imp of_decide_eq_true
  have hperm : ((sorted es).map name).Perm (es.map name) := by
    have hsort := (List.mergeSort_perm (sortAll es) fun a b => a.name ≤ b.name).map name
    simpa [sorted, sortAll_eq, Function.comp_def] using hsort
  have hne := List.pairwise_map.mp (hperm.nodup_iff.mpr h)
  refine (hle.and hne).imp ?_
  rintro a b ⟨hab, hne⟩
  exact String.not_le.mp fun hba => hne (String.le_antisymm hab hba)

mutual

def locations (skipped : List String) : Entry → List Location
  | .file n => [⟨[n], false⟩]
  | .directory n es =>
    if skipped.contains n then [] else ⟨[n], true⟩ :: (locationsIn skipped es).map (.under n)

def locationsIn (skipped : List String) : List Entry → List Location
  | [] => []
  | e :: es => e.locations skipped ++ locationsIn skipped es

end

lemma locationsIn_eq (skipped : List String) (es : List Entry) :
    locationsIn skipped es = es.flatMap (locations skipped) := by
  induction es with
  | nil => rfl
  | cons e es ih => rw [locationsIn, ih, List.flatMap_cons]

lemma mem_locations : x ∈ e.locations skipped ↔ e.At x ∧ ∀ n ∈ x.directories, n ∉ skipped := by
  induction e using induction generalizing x with
  | file n =>
    rw [locations, List.mem_singleton, at_file, iff_self_and]
    rintro rfl
    simp [Location.directories]
  | directory n es ih =>
    rw [locations, at_directory]
    by_cases hn : n ∈ skipped
    · rw [if_pos (by simpa using hn)]
      simp only [List.not_mem_nil, false_iff, not_and]
      rintro (rfl | ⟨e, he, y, hy, rfl⟩) hskip
      · exact hskip n (by simp [Location.directories]) hn
      · exact hskip n (by simp [Location.directories_under n hy.names_ne_nil]) hn
    · rw [if_neg (by simpa using hn), List.mem_cons, locationsIn_eq]
      simp only [List.mem_map, List.mem_flatMap]
      constructor
      · rintro (rfl | ⟨y, ⟨e, he, hy⟩, rfl⟩)
        · exact ⟨Or.inl rfl, by simpa [Location.directories] using hn⟩
        · obtain ⟨hat, hskip⟩ := (ih e he).mp hy
          refine ⟨Or.inr ⟨e, he, y, hat, rfl⟩, ?_⟩
          rw [Location.directories_under n hat.names_ne_nil]
          exact List.forall_mem_cons.mpr ⟨hn, hskip⟩
      · rintro ⟨rfl | ⟨e, he, y, hat, rfl⟩, hskip⟩
        · exact Or.inl rfl
        · rw [Location.directories_under n hat.names_ne_nil] at hskip
          exact Or.inr ⟨y, ⟨e, he, (ih e he).mpr ⟨hat, (List.forall_mem_cons.mp hskip).2⟩⟩, rfl⟩

lemma names_ne_nil_of_mem (h : x ∈ locationsIn skipped es) : x.names ≠ [] := by
  rw [locationsIn_eq, List.mem_flatMap] at h
  obtain ⟨e, _, hx⟩ := h
  exact (mem_locations.mp hx).1.names_ne_nil

def visited (skipped : List String) (es : List Entry) : List Location := locationsIn skipped (sorted es)

lemma locationsIn_sorted_perm (h : ∀ e ∈ es, (e.sort.locations skipped).Perm (e.locations skipped)) :
    (locationsIn skipped (sorted es)).Perm (locationsIn skipped es) := by
  rw [locationsIn_eq, locationsIn_eq, sorted, sortAll_eq]
  refine ((List.mergeSort_perm _ _).flatMap_right _).trans ?_
  rw [List.flatMap_map]
  exact List.Perm.flatMap_left es h

lemma locations_sort_perm (skipped : List String) (e : Entry) :
    (e.sort.locations skipped).Perm (e.locations skipped) := by
  induction e using induction with
  | file n => exact List.Perm.refl _
  | directory n es ih =>
    rw [sort]
    change (locations skipped (.directory n (sorted es))).Perm _
    rw [locations, locations]
    split
    · exact List.Perm.refl _
    · exact ((locationsIn_sorted_perm ih).map _).cons _

lemma visited_perm (skipped : List String) (es : List Entry) :
    (visited skipped es).Perm (locationsIn skipped es) :=
  locationsIn_sorted_perm fun e _ => locations_sort_perm skipped e

lemma mem_visited : x ∈ visited skipped es ↔ Kept skipped es x := by
  rw [(visited_perm skipped es).mem_iff, locationsIn_eq, List.mem_flatMap]
  simp only [mem_locations]
  constructor
  · rintro ⟨e, he, hat, hskip⟩
    exact ⟨⟨e, he, hat⟩, hskip⟩
  · rintro ⟨⟨e, he, hat⟩, hskip⟩
    exact ⟨e, he, hat, hskip⟩

lemma increasing_locationsIn
    (hes : es.Pairwise (fun a b => a.name < b.name))
    (h : ∀ e ∈ es, ((e.locations skipped).map (·.names)).Pairwise (· < ·)) :
    ((locationsIn skipped es).map (·.names)).Pairwise (· < ·) := by
  rw [locationsIn_eq, List.map_flatMap, List.pairwise_flatMap]
  refine ⟨h, hes.imp ?_⟩
  intro a b hab p hp q hq
  obtain ⟨x, hx, rfl⟩ := List.mem_map.mp hp
  obtain ⟨y, hy, rfl⟩ := List.mem_map.mp hq
  obtain ⟨p, hp⟩ := (mem_locations.mp hx).1.names_eq
  obtain ⟨q, hq⟩ := (mem_locations.mp hy).1.names_eq
  rw [hp, hq, List.cons_lt_cons_iff]
  exact Or.inl hab

lemma WellNamed.increasing (h : e.WellNamed) :
    ((e.sort.locations skipped).map (·.names)).Pairwise (· < ·) := by
  induction h with
  | file => exact List.pairwise_singleton _ _
  | @directory n es _ hnodup _ ih =>
    have hbelow : ((locationsIn skipped (sorted es)).map (·.names)).Pairwise (· < ·) := by
      refine increasing_locationsIn (sorted_increasing hnodup) ?_
      intro e' he'
      obtain ⟨e, he, rfl⟩ := mem_sorted.mp he'
      exact ih e he
    rw [sort]
    change ((locations skipped (.directory n (sorted es))).map _).Pairwise _
    rw [locations]
    split
    · exact List.Pairwise.nil
    · have hmap : ((locationsIn skipped (sorted es)).map (Location.under n)).map (·.names) =
          ((locationsIn skipped (sorted es)).map (·.names)).map (n :: ·) := by
        rw [List.map_map, List.map_map]
        rfl
      rw [List.map_cons, hmap, List.pairwise_cons, List.pairwise_map]
      refine ⟨?_, hbelow.imp fun hlt => List.cons_lt_cons_iff.mpr (Or.inr ⟨rfl, hlt⟩)⟩
      intro p hp
      obtain ⟨q, hq, rfl⟩ := List.mem_map.mp hp
      obtain ⟨x, hx, rfl⟩ := List.mem_map.mp hq
      obtain ⟨m, q, hxq⟩ := List.exists_cons_of_ne_nil (names_ne_nil_of_mem hx)
      rw [hxq]
      exact List.cons_lt_cons_iff.mpr (Or.inr ⟨rfl, List.nil_lt_cons m q⟩)

lemma Tidy.increasing (h : Tidy es) (skipped : List String) :
    ((visited skipped es).map (·.names)).Pairwise (· < ·) := by
  refine increasing_locationsIn (sorted_increasing h.nodup) ?_
  intro e' he'
  obtain ⟨e, he, rfl⟩ := mem_sorted.mp he'
  exact (h.wellNamed e he).increasing

lemma Tidy.nodup_visited (h : Tidy es) (skipped : List String) : (visited skipped es).Nodup :=
  (h.increasing skipped).nodup.of_map _

lemma visited_congr {es' : List Entry} (h : Tidy es) (h' : Tidy es')
    (hk : ∀ x, Kept skipped es x ↔ Kept skipped es' x) : visited skipped es = visited skipped es' := by
  have hs := List.pairwise_map.mp (h.increasing skipped)
  have hs' := List.pairwise_map.mp (h'.increasing skipped)
  have hperm : (visited skipped es).Perm (visited skipped es') := by
    apply (List.perm_ext_iff_of_nodup (h.nodup_visited skipped) (h'.nodup_visited skipped)).mpr
    intro x
    rw [mem_visited, mem_visited, hk]
  refine hperm.eq_of_pairwise ?_ hs hs'
  intro x y _ _ hxy hyx
  exact absurd hyx (List.lt_asymm hxy)

lemma Kept.of_prefix (h : Kept skipped es x) {q : List String} (hq : q ≠ []) (hpre : q <+: x.names) :
    q = x.names ∨ Kept skipped es ⟨q, true⟩ := by
  obtain ⟨⟨e, he, hat⟩, hskip⟩ := h
  by_cases heq : q = x.names
  · exact Or.inl heq
  · refine Or.inr ⟨⟨e, he, (hat.of_prefix hq hpre).resolve_left heq⟩, ?_⟩
    obtain ⟨r, hr⟩ := hpre
    have hne : r ≠ [] := by
      rintro rfl
      exact heq (by simpa using hr)
    have hsub : q ⊆ x.directories := by
      rw [Location.directories, ← hr, List.dropLast_append_of_ne_nil hne]
      split <;> exact List.subset_append_left q _
    exact fun n hn => hskip n (hsub hn)

lemma closed_visited (skipped : List String) (es : List Entry) : DirTree.Closed (visited skipped es) := by
  intro x hx
  have hk := mem_visited.mp hx
  obtain ⟨e, _, hat⟩ := hk.stands
  refine ⟨hat.names_ne_nil, fun q hq hpre => ?_⟩
  rcases hk.of_prefix hq hpre with rfl | hk
  · exact List.mem_map_of_mem hx
  · exact List.mem_map.mpr ⟨_, mem_visited.mpr hk, rfl⟩

lemma WellNamed.isName (h : e.WellNamed) (hat : e.At x) : ∀ n ∈ x.names, IsName n := by
  induction hat with
  | file n =>
    cases h with
    | file hn => simpa using hn
  | directory n es =>
    cases h with
    | directory hn _ _ => simpa using hn
  | @inside n es e y he _ ih =>
    cases h with
    | directory hn _ hes => exact List.forall_mem_cons.mpr ⟨hn, ih (hes e he)⟩

lemma Tidy.isName (h : Tidy es) (hk : Kept skipped es x) : ∀ n ∈ x.names, IsName n := by
  obtain ⟨⟨e, he, hat⟩, _⟩ := hk
  exact (h.wellNamed e he).isName hat

end Entry

namespace Found

def ofLocation (above : String) (x : Location) : Found := ⟨above ++ x.path, x.isDir⟩

lemma ofLocation_under {x : Location} (above n : String) (h : x.names ≠ []) :
    ofLocation above (x.under n) = ofLocation (above ++ n ++ "/") x := by
  simp [ofLocation, Location.path, Location.under, Path.relative_cons h, String.append_assoc]

lemma belowAll_eq (skipped : List String) (above : String) (es : List Entry) :
    belowAll skipped above es = es.flatMap (below skipped above) := by
  induction es with
  | nil => rfl
  | cons e es ih => rw [belowAll, ih, List.flatMap_cons]

lemma below_eq (skipped : List String) (above : String) (e : Entry) :
    below skipped above e = (e.locations skipped).map (ofLocation above) := by
  induction e using Entry.induction generalizing above with
  | file n => simp [below, Entry.locations, ofLocation, Location.path, Path.relative]
  | directory n es ih =>
    rw [below, Entry.locations, belowAll_eq]
    split
    · rfl
    · have hes : es.flatMap (below skipped (above ++ n ++ "/")) =
          (Entry.locationsIn skipped es).map (ofLocation (above ++ n ++ "/")) := by
        rw [Entry.locationsIn_eq, List.map_flatMap]
        exact List.flatMap_congr fun e he => ih e he _
      have hunder : ((Entry.locationsIn skipped es).map (.under n)).map (ofLocation above) =
          (Entry.locationsIn skipped es).map (ofLocation (above ++ n ++ "/")) := by
        rw [List.map_map]
        exact List.map_congr_left fun x hx => ofLocation_under above n (Entry.names_ne_nil_of_mem hx)
      rw [List.map_cons, hunder, hes]
      simp [ofLocation, Location.path, Path.relative]

lemma all_eq (skipped : List String) (es : List Entry) :
    all skipped es = (Entry.visited skipped es).map (ofLocation "") := by
  rw [all, belowAll_eq, Entry.visited, Entry.locationsIn_eq, List.map_flatMap]
  exact List.flatMap_congr fun e _ => below_eq skipped "" e

lemma countP_unsorted (skipped : List String) (es : List Entry) (q : Found → Bool) :
    (all skipped es).countP q = (Entry.locationsIn skipped es).countP (q ∘ ofLocation "") := by
  rw [all_eq, List.countP_map]
  exact (Entry.visited_perm skipped es).countP_eq _

end Found

namespace FileNode

/-- Where the entries of a directory stand, and all below them. A link leads nowhere. -/
inductive Holds : List (String × FileNode) → Location → Prop
  | file {tree : List (String × FileNode)} {n : String} {contents : ByteArray} :
      (n, file contents) ∈ tree → Holds tree ⟨[n], false⟩
  | link {tree : List (String × FileNode)} {n target : String} :
      (n, link target) ∈ tree → Holds tree ⟨[n], false⟩
  | directory {tree es : List (String × FileNode)} {n : String} :
      (n, directory es) ∈ tree → Holds tree ⟨[n], true⟩
  | inside {tree es : List (String × FileNode)} {n : String} {x : Location} :
      (n, directory es) ∈ tree → Holds es x → Holds tree (x.under n)

structure Kept (skipped : List String) (tree : List (String × FileNode)) (x : Location) : Prop where
  stands : Holds tree x
  unskipped : ∀ n ∈ x.directories, n ∉ skipped

variable {skipped : List String} {tree : List (String × FileNode)} {x : Location}

lemma listingAll_eq (tree : List (String × FileNode)) :
    listingAll tree = tree.map fun p => listing p.1 p.2 := by
  induction tree with
  | nil => rfl
  | cons p tree ih => rw [listingAll, ih, List.map_cons]

lemma mem_listingAll {n : String} {node : FileNode} (h : (n, node) ∈ tree) :
    listing n node ∈ listingAll tree := by
  rw [listingAll_eq]
  exact List.mem_map.mpr ⟨(n, node), h, rfl⟩

lemma holds_of_at {e : Entry} (h : e.At x) {n : String} {node : FileNode} (he : listing n node = e)
    (hmem : (n, node) ∈ tree) : Holds tree x := by
  induction h generalizing tree n node with
  | file m =>
    cases node with
    | file _ =>
      cases he
      exact .file hmem
    | link _ =>
      cases he
      exact .link hmem
    | directory _ => cases he
  | directory m es =>
    cases node with
    | directory _ =>
      cases he
      exact .directory hmem
    | file _ | link _ => cases he
  | inside he' _ ih =>
    cases node with
    | directory tree =>
      cases he
      rw [listingAll_eq] at he'
      obtain ⟨p, hp, rfl⟩ := List.mem_map.mp he'
      exact .inside hmem (ih rfl hp)
    | file _ | link _ => cases he

lemma holds_iff : Holds tree x ↔ ∃ e ∈ listingAll tree, e.At x := by
  constructor
  · intro h
    induction h with
    | file hmem => exact ⟨_, mem_listingAll hmem, .file _⟩
    | link hmem => exact ⟨_, mem_listingAll hmem, .file _⟩
    | directory hmem => exact ⟨_, mem_listingAll hmem, .directory _ _⟩
    | inside hmem _ ih =>
      obtain ⟨e, he, hat⟩ := ih
      exact ⟨_, mem_listingAll hmem, .inside he hat⟩
  · rintro ⟨e, he, hat⟩
    rw [listingAll_eq] at he
    obtain ⟨p, hp, rfl⟩ := List.mem_map.mp he
    exact holds_of_at hat rfl hp

lemma kept_iff : Kept skipped tree x ↔ Entry.Kept skipped (listingAll tree) x :=
  ⟨fun h => ⟨holds_iff.mp h.stands, h.unskipped⟩, fun h => ⟨holds_iff.mpr h.stands, h.unskipped⟩⟩

end FileNode

end CallAtlas
