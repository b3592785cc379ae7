import CallAtlas.Proofs.PathNames
import Mathlib.Data.List.Infix
import Mathlib.Data.List.Nodup

/-! What an insertion adds to a directory tree: a node for every prefix of the path that leads nowhere yet. -/

namespace CallAtlas.DirTree

@[elab_as_elim]
lemma induction {motive : DirTree → Prop}
    (node : ∀ n d cs, (∀ c ∈ cs, motive c) → motive (node n d cs)) (t : DirTree) : motive t :=
  match t with
  | .node n d cs => node n d cs fun c _ => induction node c

mutual

def nodes : DirTree → List Location
  | node _ _ cs => nodesIn cs

def nodesIn : List DirTree → List Location
  | [] => []
  | t :: ts => ⟨[t.name], t.isDir⟩ :: t.nodes.map (.under t.name) ++ nodesIn ts

end

def paths (t : DirTree) : List (List String) := t.nodes.map (·.names)

def branch (t : DirTree) : List Location := ⟨[t.name], t.isDir⟩ :: t.nodes.map (.under t.name)

lemma nodesIn_eq (cs : List DirTree) : nodesIn cs = cs.flatMap branch := by
  induction cs with
  | nil => rfl
  | cons t cs ih =>
    rw [nodesIn, ih]
    rfl

lemma nodes_node (n : String) (d : Bool) (cs : List DirTree) : (node n d cs).nodes = cs.flatMap branch := by
  rw [nodes, nodesIn_eq]

lemma mem_nodes_node {n : String} {d : Bool} {cs : List DirTree} {x : Location} :
    x ∈ (node n d cs).nodes ↔ ∃ t ∈ cs, x = ⟨[t.name], t.isDir⟩ ∨ ∃ y ∈ t.nodes, .under t.name y = x := by
  rw [nodes_node, List.mem_flatMap]
  simp only [branch, List.mem_cons, List.mem_map]

lemma names_branch (t : DirTree) : (branch t).map (·.names) = ([] :: t.paths).map (t.name :: ·) := by
  simp [branch, paths, Location.under, Function.comp_def]

lemma mem_paths_node {n : String} {d : Bool} {cs : List DirTree} {p : List String} :
    p ∈ (node n d cs).paths ↔ ∃ t ∈ cs, ∃ q ∈ [] :: t.paths, t.name :: q = p := by
  rw [paths, nodes_node, List.map_flatMap]
  simp only [names_branch, List.mem_flatMap, List.mem_map]

lemma nil_notMem_paths (t : DirTree) : [] ∉ t.paths := by
  obtain ⟨n, d, cs⟩ := t
  rw [mem_paths_node]
  rintro ⟨t, _, q, _, h⟩
  cases h

lemma names_ne_nil {t : DirTree} {x : Location} (hx : x ∈ t.nodes) : x.names ≠ [] := by
  intro hnil
  exact nil_notMem_paths t (hnil ▸ List.mem_map_of_mem hx)

lemma paths_nodup_node {n : String} {d : Bool} {cs : List DirTree} :
    (node n d cs).paths.Nodup ↔ (∀ t ∈ cs, t.paths.Nodup) ∧ (cs.map name).Nodup := by
  rw [paths, nodes_node, List.map_flatMap, List.nodup_flatMap]
  refine and_congr (forall₂_congr ?_) ?_
  · intro t _
    rw [names_branch, List.nodup_map_iff List.cons_injective, List.nodup_cons]
    simp [nil_notMem_paths]
  · rw [List.Nodup, List.pairwise_map]
    refine List.Pairwise.iff ?_
    intro t u
    simp only [Function.onFun, names_branch]
    constructor
    · intro hdisjoint heq
      exact hdisjoint (List.mem_map.mpr ⟨[], List.mem_cons_self, rfl⟩)
        (List.mem_map.mpr ⟨[], List.mem_cons_self, by rw [heq]⟩)
    · intro hne p hp hq
      obtain ⟨p, _, rfl⟩ := List.mem_map.mp hp
      obtain ⟨q, _, heq⟩ := List.mem_map.mp hq
      exact hne (List.cons.inj heq).1.symm

/-- What stands below a child is told by the child, as names are distinct. -/
lemma cons_mem_paths_node {n : String} {d : Bool} {cs : List DirTree} (hn : (cs.map name).Nodup)
    {t : DirTree} (ht : t ∈ cs) {q : List String} (hq : q ≠ []) :
    t.name :: q ∈ (node n d cs).paths ↔ q ∈ t.paths := by
  rw [mem_paths_node]
  constructor
  · rintro ⟨u, hu, q', hq', heq⟩
    obtain ⟨hname, rfl⟩ := List.cons.inj heq
    obtain rfl := List.inj_on_of_nodup_map hn hu ht hname
    exact (List.mem_cons.mp hq').resolve_left hq
  · intro hqt
    exact ⟨t, ht, q, List.mem_cons_of_mem _ hqt, rfl⟩

lemma update_cases (name : String) (f : DirTree → DirTree) (new : DirTree) (cs : List DirTree) :
    (∃ before t after, cs = before ++ t :: after ∧ t.name = name ∧
      update name f new cs = before ++ f t :: after) ∨
    ((∀ t ∈ cs, t.name ≠ name) ∧ update name f new cs = cs ++ [f new]) := by
  induction cs with
  | nil => exact Or.inr ⟨by simp, rfl⟩
  | cons t cs ih =>
    by_cases ht : t.name = name
    · exact Or.inl ⟨[], t, cs, rfl, ht, by simp [update, ht]⟩
    · rcases ih with ⟨before, u, after, rfl, hu, he⟩ | ⟨hnone, he⟩
      · exact Or.inl ⟨t :: before, u, after, rfl, hu, by simp [update, ht, he]⟩
      · exact Or.inr ⟨List.forall_mem_cons.mpr ⟨ht, hnone⟩, by simp [update, ht, he]⟩

@[simp] lemma insertAt_name (d : Bool) (p : List String) (t : DirTree) : (insertAt d p t).name = t.name := by
  cases p <;> cases t <;> rfl

@[simp] lemma insertAt_isDir (d : Bool) (p : List String) (t : DirTree) :
    (insertAt d p t).isDir = t.isDir := by
  cases p <;> cases t <;> rfl

lemma mem_inits_tail {p q : List String} : q ∈ p.inits.tail ↔ q ≠ [] ∧ q <+: p := by
  cases p with
  | nil => simp
  | cons part parts => cases q <;> simp [List.cons_prefix_cons, eq_comm, and_comm]

/-- The nodes that a path asks for beyond the known ones. All but the last are directories. -/
def fresh (known : List (List String)) (isDir : Bool) (p : List String) : List Location :=
  (p.inits.tail.filter (· ∉ known)).map fun q => ⟨q, decide (q ≠ p) || isDir⟩

lemma fresh_cons {known : List (List String)} {part : String} (below : List (List String)) (d : Bool)
    (parts : List String) (h : ∀ q, q ≠ [] → (part :: q ∈ known ↔ q ∈ below)) :
    fresh known d (part :: parts) =
      (if [part] ∈ known then [] else [⟨[part], !parts.isEmpty || d⟩]) ++
        (fresh below d parts).map (.under part) := by
  have htail : (part :: parts).inits.tail = [part] :: parts.inits.tail.map (part :: ·) := by
    cases parts <;> simp
  have hfilter : (parts.inits.tail.map (part :: ·)).filter (· ∉ known) =
      (parts.inits.tail.filter (· ∉ below)).map (part :: ·) := by
    rw [List.filter_map]
    congr 1
    apply List.filter_congr
    intro q hq
    simp [h q (mem_inits_tail.mp hq).1]
  rw [fresh, htail, List.filter_cons, hfilter, fresh]
  by_cases hp : [part] ∈ known <;> cases parts <;>
    simp [hp, Location.under, Function.comp_def]

lemma nodes_insertAt (d : Bool) (p : List String) {t : DirTree} (h : t.paths.Nodup) :
    (insertAt d p t).nodes.Perm (t.nodes ++ fresh t.paths d p) := by
  induction p generalizing t with
  | nil => simp [insertAt, fresh]
  | cons part parts ih =>
    obtain ⟨n, b, cs⟩ := t
    obtain ⟨hbelow, hnames⟩ := paths_nodup_node.mp h
    rw [insertAt, nodes_node, nodes_node]
    rcases update_cases part (insertAt d parts) (node part (!parts.isEmpty || d) []) cs with
      ⟨before, t, after, hcs, hname, he⟩ | ⟨hnone, he⟩
    · have ht : t ∈ cs := by simp [hcs]
      have hfresh : fresh (node n b cs).paths d (part :: parts) =
          (fresh t.paths d parts).map (.under part) := by
        rw [fresh_cons t.paths]
        · rw [if_pos (mem_paths_node.mpr ⟨t, ht, [], List.mem_cons_self, by rw [hname]⟩), List.nil_append]
        · intro q hq
          rw [← hname, cons_mem_paths_node hnames ht hq]
      have hbranch : (branch (insertAt d parts t)).Perm
          (branch t ++ (fresh t.paths d parts).map (.under part)) := by
        have hmap := ((ih (hbelow t ht)).map (Location.under part)).cons ⟨[t.name], t.isDir⟩
        simpa [branch, hname] using hmap
      rw [he, hfresh, hcs]
      simp only [List.flatMap_append, List.flatMap_cons, List.append_assoc]
      refine List.Perm.append_left _ ((hbranch.append_right _).trans ?_)
      rw [List.append_assoc]
      exact List.Perm.append_left _ List.perm_append_comm
    · have hfresh : fresh (node n b cs).paths d (part :: parts) =
          ⟨[part], !parts.isEmpty || d⟩ :: (fresh [] d parts).map (.under part) := by
        have hnew : ∀ q, part :: q ∉ (node n b cs).paths := by
          intro q hq
          obtain ⟨t, ht, q', _, heq⟩ := mem_paths_node.mp hq
          exact hnone t ht (List.cons.inj heq).1
        rw [fresh_cons [] d parts (by simp [hnew]), if_neg (hnew []), List.singleton_append]
      have hchild : (insertAt d parts (node part (!parts.isEmpty || d) [])).nodes.Perm (fresh [] d parts) :=
        ih (t := node part (!parts.isEmpty || d) []) List.nodup_nil
      rw [he, hfresh, List.flatMap_append, List.flatMap_singleton]
      refine List.Perm.append_left _ ?_
      rw [branch, insertAt_name, insertAt_isDir]
      exact (hchild.map (Location.under part)).cons _

@[simp] lemma sort_name (t : DirTree) : t.sort.name = t.name := by
  cases t
  rfl

@[simp] lemma sort_isDir (t : DirTree) : t.sort.isDir = t.isDir := by
  cases t
  rfl

mutual

lemma nodes_sort (t : DirTree) : t.sort.nodes.Perm t.nodes := by
  cases t with
  | node n d cs =>
    rw [sort, nodes_node, nodes_node]
    exact ((List.mergeSort_perm _ _).flatMap_right branch).trans (flatMap_branch_sortAll cs)

lemma flatMap_branch_sortAll (cs : List DirTree) :
    ((sortAll cs).flatMap branch).Perm (cs.flatMap branch) := by
  cases cs with
  | nil => exact List.Perm.refl _
  | cons t cs =>
    rw [sortAll, List.flatMap_cons, List.flatMap_cons]
    refine List.Perm.append ?_ (flatMap_branch_sortAll cs)
    rw [branch, sort_name, sort_isDir]
    exact ((nodes_sort t).map _).cons _

end

lemma fresh_of_known {known : List (List String)} {d : Bool} {p : List String} (hp : p ≠ [])
    (hnew : p ∉ known) (hknown : ∀ q, q ≠ [] → q <+: p → q ≠ p → q ∈ known) :
    fresh known d p = [⟨p, d⟩] := by
  obtain ⟨q, n, rfl⟩ := (List.eq_nil_or_concat' p).resolve_left hp
  have htail : (q ++ [n]).inits.tail = q.inits.tail ++ [q ++ [n]] := by
    rw [List.inits_append, List.tail_append_of_ne_nil (by cases q <;> simp)]
    rfl
  have hnone : q.inits.tail.filter (· ∉ known) = [] := by
    rw [List.filter_eq_nil_iff]
    intro r hr
    obtain ⟨hne, hpre⟩ := mem_inits_tail.mp hr
    have hlt : r ≠ q ++ [n] := by
      rintro rfl
      have hlen := hpre.length_le
      rw [List.length_append, List.length_singleton] at hlen
      omega
    simpa using hknown r hne (hpre.trans (List.prefix_append q [n])) hlt
  rw [fresh, htail, List.filter_append, hnone]
  simp [hnew]

/-- The directories on the way to a location are among the locations, too. -/
def Closed (xs : List Location) : Prop :=
  ∀ x ∈ xs, x.names ≠ [] ∧ ∀ q, q ≠ [] → q <+: x.names → q ∈ xs.map (·.names)

/-- Entries in the order of their names, with directories before what stands in them, become the nodes of
the tree they are inserted in. -/
lemma nodes_foldl_insertAt (root : String) {xs : List Location} (hc : Closed xs)
    (hs : (xs.map (·.names)).Pairwise (· < ·)) :
    (xs.foldl (fun t x => insertAt x.isDir x.names t) (.root root)).nodes.Perm xs := by
  induction xs using List.reverseRecOn with
  | nil => exact List.Perm.refl _
  | append_singleton xs x ih =>
    rw [List.map_append, List.map_singleton, List.pairwise_append] at hs
    obtain ⟨hs, _, hlast⟩ := hs
    have hlt : ∀ p ∈ xs.map (·.names), p < x.names := fun p hp => hlast p hp _ List.mem_cons_self
    have hmem : ∀ q, q ∈ (xs ++ [x]).map (·.names) → q ≠ x.names → q ∈ xs.map (·.names) := by
      intro q hq hne
      rw [List.map_append, List.map_singleton, List.mem_append, List.mem_singleton] at hq
      exact hq.resolve_right hne
    have hclosed : Closed xs := by
      intro y hy
      obtain ⟨hne, hpre⟩ := hc y (List.mem_append_left _ hy)
      refine ⟨hne, fun q hq hqy => hmem q (hpre q hq hqy) ?_⟩
      -- a prefix does not come after what it begins
      rintro rfl
      exact List.lt_irrefl _ (List.lt_of_le_of_lt hqy.le (hlt _ (List.mem_map_of_mem hy)))
    have hnodes := ih hclosed hs
    have hpaths := hnodes.map (·.names)
    obtain ⟨hne, hpre⟩ := hc x (by simp)
    have hfresh := fresh_of_known (d := x.isDir) hne
      (fun hx => List.lt_irrefl _ (hlt _ (hpaths.mem_iff.mp hx)))
      (fun q hq hqx hne => hpaths.mem_iff.mpr (hmem q (hpre q hq hqx) hne))
    have hnodup := hpaths.nodup_iff.mpr hs.nodup
    rw [List.foldl_append]
    refine (nodes_insertAt x.isDir x.names hnodup).trans ?_
    rw [paths, hfresh]
    exact hnodes.append_right [x]

end CallAtlas.DirTree
