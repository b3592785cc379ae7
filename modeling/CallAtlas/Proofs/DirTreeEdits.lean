import CallAtlas.Proofs.DirTreeGrowth

/-! Trees that were grown and sorted in turn. A node keeps the kind that it was made with, so that a file gets
children when its path is extended later. -/

namespace CallAtlas.DirTree

inductive Edit where
  | insert (path : String) (isDir : Bool)
  | sort

def edit (t : DirTree) : Edit → DirTree
  | .insert path isDir => t.insert path isDir
  | .sort => t.sort

def edited (rootName : String) (edits : List Edit) : DirTree := edits.foldl edit (root rootName)

def Edit.location? : Edit → Option Location
  | .insert path isDir => some ⟨Path.names path, isDir⟩
  | .sort => none

def insertions (edits : List Edit) : List Location := edits.filterMap Edit.location?

lemma edited_snoc (rootName : String) (edits : List Edit) (e : Edit) :
    edited rootName (edits ++ [e]) = (edited rootName edits).edit e := by
  simp [edited]

lemma insertions_snoc (edits : List Edit) (e : Edit) :
    insertions (edits ++ [e]) = insertions edits ++ e.location?.toList := by
  cases e <;> simp [insertions, Edit.location?]

lemma fresh_congr {known known' : List (List String)} (h : ∀ q, q ∈ known ↔ q ∈ known') (d : Bool)
    (p : List String) : fresh known d p = fresh known' d p := by
  simp only [fresh, h]

lemma nodes_edited (rootName : String) (edits : List Edit) :
    (edited rootName edits).nodes.Perm (grown rootName (insertions edits)).nodes := by
  induction edits using List.reverseRecOn with
  | nil => exact List.Perm.refl _
  | append_singleton edits e ih =>
    rw [edited_snoc, insertions_snoc]
    cases e with
    | sort =>
      rw [Edit.location?, Option.toList_none, List.append_nil]
      exact (nodes_sort _).trans ih
    | insert path isDir =>
      have hpaths : (edited rootName edits).paths.Perm (grown rootName (insertions edits)).paths :=
        ih.map Location.names
      have hnodup := paths_grown_nodup rootName (insertions edits)
      rw [Edit.location?, Option.toList_some, grown_snoc, edit, insert, components_eq_names]
      refine (nodes_insertAt isDir _ (hpaths.nodup_iff.mpr hnodup)).trans ?_
      refine List.Perm.trans ?_ (nodes_insertAt isDir _ hnodup).symm
      rw [fresh_congr fun q => hpaths.mem_iff]
      exact ih.append_right _

lemma isDir_edited (rootName : String) (edits : List Edit) : (edited rootName edits).isDir = true := by
  induction edits using List.reverseRecOn with
  | nil => rfl
  | append_singleton edits e ih =>
    rw [edited_snoc]
    cases e with
    | sort => rw [edit, sort_isDir, ih]
    | insert path isDir => rw [edit, insert, insertAt_isDir, ih]

lemma file_mem_nodes_grown {rootName : String} {xs : List Location} {p : List String} :
    ⟨p, false⟩ ∈ (grown rootName xs).nodes ↔ p ≠ [] ∧ maker? xs p = some ⟨p, false⟩ := by
  rw [mem_nodes_grown]
  refine and_congr_right fun _ => ⟨?_, ?_⟩
  · rintro ⟨⟨q, d⟩, hmaker, hdir⟩
    obtain ⟨hq, rfl⟩ := Bool.or_eq_false_iff.mp hdir.symm
    obtain rfl : p = q := by simpa using hq
    exact hmaker
  · intro hmaker
    exact ⟨_, hmaker, by simp⟩

/-- The first insertion that comes by `p` ends there in a file, and a later one goes on. -/
def ExtendsFile (xs : List Location) (p : List String) : Prop :=
  ∃ before after, xs = before ++ ⟨p, false⟩ :: after ∧ (∀ x ∈ before, ¬p <+: x.names) ∧
    ∃ x ∈ after, p <+: x.names ∧ x.names ≠ p

lemma extendsFile_iff {xs : List Location} {p : List String} :
    ExtendsFile xs p ↔ maker? xs p = some ⟨p, false⟩ ∧ ∃ x ∈ xs, p <+: x.names ∧ x.names ≠ p := by
  rw [maker?, List.find?_eq_some_iff_append]
  constructor
  · rintro ⟨before, after, rfl, hfirst, x, hx, hpre, hne⟩
    refine ⟨⟨by simp, before, after, rfl, by simpa using hfirst⟩, x, ?_, hpre, hne⟩
    exact List.mem_append_right _ (List.mem_cons_of_mem _ hx)
  · rintro ⟨⟨_, before, after, rfl, hfirst⟩, x, hx, hpre, hne⟩
    have hfirst : ∀ y ∈ before, ¬p <+: y.names := by simpa using hfirst
    refine ⟨before, after, rfl, hfirst, x, ?_, hpre, hne⟩
    rcases List.mem_append.mp hx with hx | hx
    · exact absurd hpre (hfirst x hx)
    · refine (List.mem_cons.mp hx).resolve_left ?_
      rintro rfl
      exact hne rfl

lemma exists_snoc_mem_paths_grown {rootName : String} {xs : List Location} {p : List String} :
    (∃ n, p ++ [n] ∈ (grown rootName xs).paths) ↔ ∃ x ∈ xs, p <+: x.names ∧ x.names ≠ p := by
  constructor
  · rintro ⟨n, hn⟩
    obtain ⟨_, x, hx, hpre⟩ := mem_paths_grown.mp hn
    refine ⟨x, hx, (List.prefix_append p [n]).trans hpre, ?_⟩
    rintro rfl
    have hlen := hpre.length_le
    rw [List.length_append, List.length_singleton] at hlen
    omega
  · rintro ⟨x, hx, ⟨r, hr⟩, hne⟩
    cases r with
    | nil => exact absurd (by rw [← hr, List.append_nil]) hne
    | cons n r =>
      exact ⟨n, mem_paths_grown.mpr ⟨by simp, x, hx, r, by rw [← hr, List.append_assoc]; rfl⟩⟩

lemma exists_inner_file_iff {t : DirTree} (h : t.paths.Nodup) {q : List String} (hq : q ≠ []) :
    (∃ u, t.Reaches q u ∧ u.children ≠ [] ∧ u.isDir = false) ↔
      ⟨q, false⟩ ∈ t.nodes ∧ ∃ n, q ++ [n] ∈ t.paths := by
  constructor
  · rintro ⟨u, hu, hchildren, hfile⟩
    obtain ⟨c, hc⟩ := List.exists_mem_of_ne_nil _ hchildren
    have hchild : t.Reaches (q ++ [c.name]) c := reaches_snoc.mpr ⟨u, hu, hc, rfl⟩
    exact ⟨mem_nodes_iff.mpr ⟨hq, u, hu, hfile⟩, c.name, mem_paths_iff.mpr ⟨by simp, c, hchild⟩⟩
  · rintro ⟨hfile, n, hn⟩
    obtain ⟨_, c, hc⟩ := mem_paths_iff.mp hn
    obtain ⟨u, hu, hchild, _⟩ := reaches_snoc.mp hc
    -- the parent of the longer path is the file, as there is one node at each path
    have hnode : ⟨q, u.isDir⟩ ∈ t.nodes := mem_nodes_iff.mpr ⟨hq, u, hu, rfl⟩
    have hsame := List.inj_on_of_nodup_map h hnode hfile rfl
    exact ⟨u, hu, List.ne_nil_of_mem hchild, (Location.mk.inj hsame).2⟩

lemma exists_inner_file_edited_iff (rootName : String) (edits : List Edit) {q : List String} (hq : q ≠ []) :
    (∃ u, (edited rootName edits).Reaches q u ∧ u.children ≠ [] ∧ u.isDir = false) ↔
      ExtendsFile (insertions edits) q := by
  have hnodes := nodes_edited rootName edits
  have hpaths : (edited rootName edits).paths.Perm (grown rootName (insertions edits)).paths :=
    hnodes.map Location.names
  have hnodup := hpaths.nodup_iff.mpr (paths_grown_nodup rootName (insertions edits))
  rw [exists_inner_file_iff hnodup hq, extendsFile_iff, hnodes.mem_iff, file_mem_nodes_grown]
  simp only [hpaths.mem_iff, exists_snoc_mem_paths_grown, hq, ne_eq, not_false_eq_true, true_and]

theorem children_stand_in_directories_iff (rootName : String) (edits : List Edit) :
    (∀ q u, (edited rootName edits).Reaches q u → u.children ≠ [] → u.isDir = true) ↔
      ∀ p, p ≠ [] → ¬ExtendsFile (insertions edits) p := by
  constructor
  · intro hdirs p hp hextends
    obtain ⟨u, hu, hchildren, hfile⟩ := (exists_inner_file_edited_iff rootName edits hp).mpr hextends
    rw [hdirs p u hu hchildren] at hfile
    cases hfile
  · intro hnone q u hu hchildren
    by_contra hfile
    rw [Bool.not_eq_true] at hfile
    have hq : q ≠ [] := by
      rintro rfl
      rw [← reaches_nil.mp hu, isDir_edited] at hfile
      cases hfile
    exact hnone q hq ((exists_inner_file_edited_iff rootName edits hq).mp ⟨u, hu, hchildren, hfile⟩)

lemma edited_extended_file : edited "repo" [.insert "a" false, .insert "a/b" false] =
    node "repo" true [node "a" false [node "b" false []]] := by
  have hfile : components "a" = ["a"] := by decide +kernel
  have hlonger : components "a/b" = ["a", "b"] := by decide +kernel
  simp [edited, edit, insert, hfile, hlonger, insertAt, update, root, name]

theorem extended_file_holds_child :
    (edited "repo" [.insert "a" false, .insert "a/b" false]).render = "repo/\n└── a\n    └── b\n" ∧
    ¬∀ (rootName : String) (edits : List Edit) (q : List String) (u : DirTree),
      (edited rootName edits).Reaches q u → u.children ≠ [] → u.isDir = true := by
  constructor
  · rw [edited_extended_file]
    decide +kernel
  · intro h
    have hdir := h "repo" [.insert "a" false, .insert "a/b" false] ["a"] (node "a" false [node "b" false []])
    rw [edited_extended_file] at hdir
    cases hdir (.child List.mem_cons_self (.here _)) (List.cons_ne_nil _ _)

end CallAtlas.DirTree
