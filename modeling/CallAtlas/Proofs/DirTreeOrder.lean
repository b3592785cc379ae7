import CallAtlas.Proofs.ByteOrder
import CallAtlas.Proofs.DirTreeGrowth
import CallAtlas.Proofs.RankedSort
import Mathlib.Data.List.Perm.Basic
import Mathlib.Data.Prod.Lex
import Mathlib.Data.String.Basic

/-! Sorted trees. Sorting moves nodes among their siblings only, and a sorted tree is told by its nodes alone,
so that a listing of compatible paths does not depend on the order in which they were inserted. -/

namespace CallAtlas

lemma Text.bytes_of_le {s t : String} (h : s ≤ t) : s = t ∨ bytes s < bytes t :=
  (eq_or_lt_of_le h).imp_right bytes_lt

namespace DirTree

def rank (t : DirTree) : Bool ×ₗ String := toLex (!t.isDir, t.name)

lemma listedBefore_iff (a b : DirTree) : listedBefore a b = true ↔ a.rank ≤ b.rank := by
  cases ha : a.isDir <;> cases hb : b.isDir <;>
    simp [listedBefore, rank, Prod.Lex.toLex_le_toLex, ha, hb]

lemma listed_of_rank_le {a b : DirTree} (h : a.rank ≤ b.rank) : (b.isDir = true → a.isDir = true) ∧
    (a.isDir = b.isDir → a.name = b.name ∨ Text.bytes a.name < Text.bytes b.name) := by
  rw [rank, rank, Prod.Lex.toLex_le_toLex] at h
  rcases h with h | ⟨h, hname⟩
  · obtain ⟨ha, hb⟩ := Bool.lt_iff.mp h
    rw [Bool.not_eq_false'] at ha
    rw [Bool.not_eq_true'] at hb
    exact ⟨fun _ => ha, fun hkind => absurd (ha.symm.trans (hkind.trans hb)) (by decide)⟩
  · rw [Bool.not_inj_iff] at h
    exact ⟨fun hb => h.trans hb, fun _ => Text.bytes_of_le hname⟩

lemma sortAll_eq (cs : List DirTree) : sortAll cs = cs.map sort := by
  induction cs with
  | nil => rfl
  | cons c cs ih => rw [sortAll, ih, List.map_cons]

lemma sort_node (n : String) (d : Bool) (cs : List DirTree) :
    (node n d cs).sort = node n d ((cs.map sort).mergeSort listedBefore) := by
  rw [sort, sortAll_eq]

mutual

/-- The names and kinds on the way from the root of a tree to each of its nodes. -/
def trails : DirTree → List (List (String × Bool))
  | node n d cs => [(n, d)] :: (trailsIn cs).map ((n, d) :: ·)

def trailsIn : List DirTree → List (List (String × Bool))
  | [] => []
  | t :: ts => t.trails ++ trailsIn ts

end

lemma trailsIn_eq (cs : List DirTree) : trailsIn cs = cs.flatMap trails := by
  induction cs with
  | nil => rfl
  | cons c cs ih => rw [trailsIn, ih, List.flatMap_cons]

lemma trails_sort (t : DirTree) : t.sort.trails.Perm t.trails := by
  induction t using DirTree.induction with
  | node n d cs ih =>
    rw [sort_node, trails, trails, trailsIn_eq, trailsIn_eq]
    refine (List.Perm.map _ ?_).cons _
    refine ((List.mergeSort_perm _ _).flatMap_right trails).trans ?_
    rw [List.flatMap_map]
    exact List.Perm.flatMap_left cs ih

lemma children_sort (t : DirTree) : t.sort.children.Pairwise (·.rank ≤ ·.rank) := by
  obtain ⟨n, d, cs⟩ := t
  rw [sort_node]
  exact pairwise_mergeSort_le rank listedBefore_iff _

lemma exists_of_reaches_sort {t u : DirTree} {q : List String} (h : t.sort.Reaches q u) :
    ∃ v, t.Reaches q v ∧ v.sort = u := by
  induction q generalizing t with
  | nil => exact ⟨t, .here t, reaches_nil.mp h⟩
  | cons m q ih =>
    obtain ⟨n, d, cs⟩ := t
    rw [sort_node] at h
    cases h with
    | child hc hu =>
      obtain ⟨c, hmem, rfl⟩ := List.mem_map.mp (List.mem_mergeSort.mp hc)
      obtain ⟨v, hv, hvu⟩ := ih hu
      rw [sort_name]
      exact ⟨v, .child hmem hv, hvu⟩

lemma sort_sort (t : DirTree) : t.sort.sort = t.sort := by
  induction t using DirTree.induction with
  | node n d cs ih =>
    have hsorted := pairwise_mergeSort_le rank listedBefore_iff (cs.map sort)
    have hsame : ((cs.map sort).mergeSort listedBefore).map sort = (cs.map sort).mergeSort listedBefore := by
      refine (List.map_congr_left ?_).trans (List.map_id _)
      intro c hc
      obtain ⟨b, hb, rfl⟩ := List.mem_map.mp (List.mem_mergeSort.mp hc)
      exact ih b hb
    rw [sort_node, sort_node, hsame, List.mergeSort_of_pairwise]
    exact hsorted.imp fun {a b} => (listedBefore_iff a b).mpr

lemma under_mem_nodes {n : String} {d : Bool} {cs : List DirTree} (hn : (cs.map name).Nodup) {c : DirTree}
    (hc : c ∈ cs) {x : Location} (hx : x.names ≠ []) :
    .under c.name x ∈ (node n d cs).nodes ↔ x ∈ c.nodes := by
  rw [mem_nodes_node]
  constructor
  · rintro ⟨b, hb, he | ⟨y, hy, he⟩⟩
    · exact absurd (List.cons.inj (Location.mk.inj he).1).2 hx
    · obtain ⟨hnames, hdir⟩ := Location.mk.inj he
      obtain ⟨hname, hrest⟩ := List.cons.inj hnames
      obtain rfl := List.inj_on_of_nodup_map hn hb hc hname
      rwa [Location.ext hrest hdir] at hy
  · intro hmem
    exact ⟨c, hc, Or.inr ⟨x, hmem, rfl⟩⟩

lemma exists_child {n : String} {d : Bool} {cs : List DirTree} {m : String} {b : Bool} :
    ⟨[m], b⟩ ∈ (node n d cs).nodes ↔ ∃ c ∈ cs, c.name = m ∧ c.isDir = b := by
  rw [mem_nodes_node]
  refine exists_congr fun c => and_congr_right fun _ => ?_
  constructor
  · rintro (he | ⟨y, hy, he⟩)
    · obtain ⟨hm, hb⟩ := Location.mk.inj he
      exact ⟨(List.cons.inj hm).1.symm, hb.symm⟩
    · exact absurd (List.cons.inj (Location.mk.inj he).1).2 (names_ne_nil hy)
  · rintro ⟨rfl, rfl⟩
    exact Or.inl rfl

lemma ranks_nodup {cs : List DirTree} (h : (cs.map name).Nodup) : ((cs.map sort).map rank).Nodup := by
  have hnames : ((cs.map sort).map rank).map (fun r => (ofLex r).2) = cs.map name := by
    simp [rank, Function.comp_def]
  exact List.Nodup.of_map _ (hnames ▸ h)

lemma sort_eq_of_nodes {t u : DirTree} (ht : t.paths.Nodup) (hu : u.paths.Nodup) (hname : t.name = u.name)
    (hdir : t.isDir = u.isDir) (h : ∀ x, x ∈ t.nodes ↔ x ∈ u.nodes) : t.sort = u.sort := by
  induction t using DirTree.induction generalizing u with
  | node n d cs ih =>
    obtain ⟨m, e, ds⟩ := u
    obtain rfl : n = m := hname
    obtain rfl : d = e := hdir
    obtain ⟨hbelow, hcs⟩ := paths_nodup_node.mp ht
    obtain ⟨hbelow', hds⟩ := paths_nodup_node.mp hu
    -- children of one name have the same nodes below them, so that the induction applies to them
    have hsame : ∀ a ∈ cs, ∀ b ∈ ds, a.name = b.name → a.isDir = b.isDir → a.sort = b.sort := by
      intro a ha b hb hab hkind
      refine ih a ha (hbelow a ha) (hbelow' b hb) hab hkind fun x => ?_
      by_cases hx : x.names = []
      · exact iff_of_false (fun hmem => names_ne_nil hmem hx) fun hmem => names_ne_nil hmem hx
      · rw [← under_mem_nodes hcs ha hx, h, hab, under_mem_nodes hds hb hx]
    rw [sort_node, sort_node]
    congr 1
    refine eq_of_pairwise_lt (pairwise_mergeSort_lt rank listedBefore_iff (ranks_nodup hcs))
      (pairwise_mergeSort_lt rank listedBefore_iff (ranks_nodup hds)) fun c => ?_
    rw [List.mem_mergeSort, List.mem_mergeSort, List.mem_map, List.mem_map]
    constructor
    · rintro ⟨a, ha, rfl⟩
      obtain ⟨b, hb, hab, hkind⟩ := exists_child.mp ((h _).mp (exists_child.mpr ⟨a, ha, rfl, rfl⟩))
      exact ⟨b, hb, (hsame a ha b hb hab.symm hkind.symm).symm⟩
    · rintro ⟨b, hb, rfl⟩
      obtain ⟨a, ha, hab, hkind⟩ := exists_child.mp ((h _).mpr (exists_child.mpr ⟨b, hb, rfl, rfl⟩))
      exact ⟨a, ha, hsame a ha b hb hab hkind⟩

/-- No path is inserted as a file and also as a directory, or as a file above another entry. -/
def Compatible (xs : List Location) : Prop :=
  ∀ x ∈ xs, x.isDir = false → ∀ y ∈ xs, x.names <+: y.names → y = x

instance (xs : List Location) : Decidable (Compatible xs) :=
  inferInstanceAs (Decidable (∀ x ∈ xs, _ → ∀ y ∈ xs, _ → _))

lemma Compatible.mem_nodes_grown {xs : List Location} (h : Compatible xs) {rootName : String} {x : Location} :
    x ∈ (grown rootName xs).nodes ↔ x.names ≠ [] ∧ ∃ y ∈ xs, x.names <+: y.names ∧
      x.isDir = (decide (x.names ≠ y.names) || y.isDir) := by
  rw [DirTree.mem_nodes_grown]
  refine and_congr_right fun _ => ⟨?_, ?_⟩
  · rintro ⟨y, hy, hdir⟩
    exact ⟨y, List.mem_of_find?_eq_some hy, by simpa using List.find?_some hy, hdir⟩
  · rintro ⟨y, hy, hpre, hdir⟩
    have hsome : (maker? xs x.names).isSome = true := List.find?_isSome.mpr ⟨y, hy, decide_eq_true hpre⟩
    obtain ⟨z, hz⟩ := Option.isSome_iff_exists.mp hsome
    have hzs : z ∈ xs := List.mem_of_find?_eq_some hz
    have hzpre : x.names <+: z.names := by simpa using List.find?_some hz
    refine ⟨z, hz, ?_⟩
    -- either both entries end here in a file, or neither does
    have hfile : ∀ a ∈ xs, ∀ b ∈ xs, x.names <+: b.names →
        (decide (x.names ≠ a.names) || a.isDir) = false → (decide (x.names ≠ b.names) || b.isDir) = false := by
      intro a ha b hb hb' ha'
      obtain ⟨hnames, hkind⟩ := Bool.or_eq_false_iff.mp ha'
      have hxa : x.names = a.names := by simpa using hnames
      rwa [h a ha hkind b hb (hxa ▸ hb')]
    rw [hdir, Bool.eq_iff_iff, ← not_iff_not, Bool.not_eq_true, Bool.not_eq_true]
    exact ⟨hfile y hy z hzs hzpre, hfile z hzs y hy hpre⟩

lemma Compatible.perm {xs ys : List Location} (h : Compatible xs) (hp : xs.Perm ys) : Compatible ys := by
  intro x hx hfile y hy
  exact h x (hp.mem_iff.mpr hx) hfile y (hp.mem_iff.mpr hy)

lemma grown_name (rootName : String) (xs : List Location) : (grown rootName xs).name = rootName := by
  induction xs using List.reverseRecOn with
  | nil => rfl
  | append_singleton xs x ih => rw [grown_snoc, insertAt_name, ih]

lemma grown_isDir (rootName : String) (xs : List Location) : (grown rootName xs).isDir = true := by
  induction xs using List.reverseRecOn with
  | nil => rfl
  | append_singleton xs x ih => rw [grown_snoc, insertAt_isDir, ih]

lemma Compatible.sort_grown_perm {xs ys : List Location} (h : Compatible xs) (hp : xs.Perm ys)
    (rootName : String) : (grown rootName ys).sort = (grown rootName xs).sort := by
  refine sort_eq_of_nodes (paths_grown_nodup _ _) (paths_grown_nodup _ _) ?_ ?_ fun x => ?_
  · rw [grown_name, grown_name]
  · rw [grown_isDir, grown_isDir]
  · rw [(h.perm hp).mem_nodes_grown, h.mem_nodes_grown]
    simp only [hp.mem_iff]

theorem sorted_listing_is_canonical (rootName : String) (entries : List (String × Bool)) (t : DirTree) :
    let listing := fun es : List (String × Bool) => (es.foldl (fun t e => t.insert e.1 e.2) (root rootName)).sort
    (Compatible (entries.map fun e => ⟨Path.names e.1, e.2⟩) → ∀ entries', entries.Perm entries' →
      listing entries' = listing entries ∧ (listing entries').render = (listing entries).render) ∧
    t.sort.trails.Perm t.trails ∧
    (∀ q u, t.sort.Reaches q u → u.children.Pairwise fun a b => (b.isDir = true → a.isDir = true) ∧
      (a.isDir = b.isDir → a.name = b.name ∨ Text.bytes a.name < Text.bytes b.name)) ∧
    t.sort.sort = t.sort := by
  intro listing
  refine ⟨?_, trails_sort t, ?_, sort_sort t⟩
  · intro h entries' hp
    have heq : listing entries' = listing entries := by
      simp only [listing, foldl_insert_eq_grown]
      exact h.sort_grown_perm (hp.map _) rootName
    exact ⟨heq, congrArg render heq⟩
  · intro q u hu
    obtain ⟨v, _, rfl⟩ := exists_of_reaches_sort hu
    exact (children_sort v).imp listed_of_rank_le

/-- A directory is named before and after what stands in it, with either separator. -/
def mixedEntries : List (String × Bool) :=
  [("z.go", false), ("lib/b.go", false), ("lib", true), (".\\lib\\a.go", false), ("é/x", true), ("go.mod", false),
   ("./lib//b.go", false)]

theorem mixedEntries_reversed :
    Compatible (mixedEntries.map fun e => ⟨Path.names e.1, e.2⟩) ∧ mixedEntries.Perm mixedEntries.reverse ∧
    (mixedEntries.reverse.foldl (fun t e => t.insert e.1 e.2) (root "repo")).sort =
      (mixedEntries.foldl (fun t e => t.insert e.1 e.2) (root "repo")).sort := by
  have hc : Compatible (mixedEntries.map fun e => ⟨Path.names e.1, e.2⟩) := by
    decide +kernel
  have hp : mixedEntries.Perm mixedEntries.reverse := (List.reverse_perm mixedEntries).symm
  exact ⟨hc, hp, ((sorted_listing_is_canonical "repo" mixedEntries (root "repo")).1 hc _ hp).1⟩

end DirTree

end CallAtlas
