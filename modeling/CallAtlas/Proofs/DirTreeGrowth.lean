import CallAtlas.Proofs.DirTreeNodes
import CallAtlas.Proofs.FirstOfEach

/-! The tree that paths were inserted in, told by the paths: its nodes are their prefixes, and each node lists
its children in the order in which the paths first named them. -/

namespace CallAtlas

lemma Text.pieces_eq_splitOnP (p : Char → Bool) (text : List Char) : pieces p text = text.splitOnP p := by
  induction text with
  | nil => rw [pieces, List.splitOnP_nil]
  | cons c cs ih =>
    obtain ⟨piece, rest, hcons⟩ := List.exists_cons_of_ne_nil (pieces_ne_nil p cs)
    rw [pieces, List.splitOnP_cons_eq_if_modifyHead, ← ih, hcons]
    rfl

/-- The names on a path: what stands between its slashes and backslashes, without the empty texts and the
dots. -/
def Path.names (path : String) : List String :=
  ((path.toList.splitOnP fun c => c = '/' ∨ c = '\\').map String.ofList).filter fun n => n ≠ "" ∧ n ≠ "."

namespace DirTree

lemma components_eq_names (path : String) : components path = Path.names path := by
  have hseparator : isSeparator = fun c => decide (c = '/' ∨ c = '\\') := by
    funext c
    rw [Bool.eq_iff_iff]
    simp [isSeparator]
  rw [components, Path.names, Text.pieces_eq_splitOnP, hseparator]
  congr 1
  funext n
  rw [Bool.eq_iff_iff]
  simp

/-- The node `u` stands where the names `q` lead from the root of a tree. -/
inductive Reaches : DirTree → List String → DirTree → Prop
  | here (t : DirTree) : Reaches t [] t
  | child {n : String} {d : Bool} {cs : List DirTree} {t u : DirTree} {q : List String} (ht : t ∈ cs)
      (hu : Reaches t q u) : Reaches (node n d cs) (t.name :: q) u

lemma reaches_nil {t u : DirTree} : t.Reaches [] u ↔ t = u := by
  constructor
  · rintro ⟨⟩
    rfl
  · rintro rfl
    exact .here t

lemma mem_nodes_iff {t : DirTree} {q : List String} {b : Bool} :
    ⟨q, b⟩ ∈ t.nodes ↔ q ≠ [] ∧ ∃ u, t.Reaches q u ∧ u.isDir = b := by
  constructor
  · intro hx
    refine ⟨names_ne_nil hx, ?_⟩
    induction q generalizing t with
    | nil => exact absurd rfl (names_ne_nil hx)
    | cons n q ih =>
      obtain ⟨m, d, cs⟩ := t
      obtain ⟨c, hc, he | ⟨⟨r, b'⟩, hy, he⟩⟩ := mem_nodes_node.mp hx
      · obtain ⟨hq, rfl⟩ := Location.mk.inj he
        obtain ⟨rfl, rfl⟩ := List.cons.inj hq
        exact ⟨c, .child hc (.here c), rfl⟩
      · obtain ⟨hq, rfl⟩ := Location.mk.inj he
        obtain ⟨rfl, rfl⟩ := List.cons.inj hq
        obtain ⟨u, hu, hdir⟩ := ih hy
        exact ⟨u, .child hc hu, hdir⟩
  · rintro ⟨hne, u, hu, rfl⟩
    induction hu with
    | here t => exact absurd rfl hne
    | @child n d cs c u q hc hu ih =>
      refine mem_nodes_node.mpr ⟨c, hc, ?_⟩
      cases q with
      | nil =>
        obtain rfl := reaches_nil.mp hu
        exact Or.inl rfl
      | cons m q => exact Or.inr ⟨_, ih (List.cons_ne_nil m q), rfl⟩

lemma mem_paths_iff {t : DirTree} {q : List String} : q ∈ t.paths ↔ q ≠ [] ∧ ∃ u, t.Reaches q u := by
  rw [paths, List.mem_map]
  constructor
  · rintro ⟨⟨q, b⟩, hx, rfl⟩
    obtain ⟨hne, u, hu, _⟩ := mem_nodes_iff.mp hx
    exact ⟨hne, u, hu⟩
  · rintro ⟨hne, u, hu⟩
    exact ⟨⟨q, u.isDir⟩, mem_nodes_iff.mpr ⟨hne, u, hu, rfl⟩, rfl⟩

lemma reaches_snoc {t u : DirTree} {q : List String} {n : String} :
    t.Reaches (q ++ [n]) u ↔ ∃ v, t.Reaches q v ∧ u ∈ v.children ∧ u.name = n := by
  constructor
  · intro h
    induction q generalizing t with
    | nil =>
      cases h with
      | child hc hu =>
        cases hu
        exact ⟨_, .here _, hc, rfl⟩
    | cons m q ih =>
      cases h with
      | child hc hu =>
        obtain ⟨v, hv, hchild, hname⟩ := ih hu
        exact ⟨v, .child hc hv, hchild, hname⟩
  · rintro ⟨v, hv, hchild, rfl⟩
    induction hv with
    | here t =>
      obtain ⟨m, d, cs⟩ := t
      exact .child hchild (.here u)
    | child hc _ ih => exact .child hc (ih hchild)

def childNames (t : DirTree) : List String := t.children.map name

/-- The names of the children of the node that some names lead to, each name taken for the first child that
has it. -/
def namesAt : List String → DirTree → Option (List String)
  | [], t => some t.childNames
  | n :: q, node _ _ cs => (cs.find? (·.name = n)).bind (namesAt q)

lemma Reaches.namesAt_eq {t u : DirTree} {q : List String} (h : t.Reaches q u) (hn : t.paths.Nodup) :
    namesAt q t = some u.childNames := by
  induction h with
  | here t => rfl
  | @child n d cs t u q ht hu ih =>
    obtain ⟨hbelow, hnames⟩ := paths_nodup_node.mp hn
    have hfind : cs.find? (·.name = t.name) = some t := by
      have hsome : (cs.find? (·.name = t.name)).isSome = true :=
        List.find?_isSome.mpr ⟨t, ht, decide_eq_true rfl⟩
      obtain ⟨c, hc⟩ := Option.isSome_iff_exists.mp hsome
      have hname : c.name = t.name := by simpa using List.find?_some hc
      rw [hc, List.inj_on_of_nodup_map hnames (List.mem_of_find?_eq_some hc) ht hname]
    rw [namesAt, hfind, Option.bind_some, ih (hbelow t ht)]

lemma namesAt_leaf (n : String) (d : Bool) (q : List String) :
    namesAt q (node n d []) = if q = [] then some [] else none := by
  cases q <;> rfl

def addName (names : List String) : Option String → List String
  | none => names
  | some n => if n ∈ names then names else names ++ [n]

lemma childNames_insertAt (d : Bool) (p : List String) (t : DirTree) :
    (insertAt d p t).childNames = addName t.childNames p.head? := by
  cases p with
  | nil => rfl
  | cons part parts =>
    obtain ⟨n, b, cs⟩ := t
    change (update part _ _ cs).map name = if part ∈ cs.map name then cs.map name else cs.map name ++ [part]
    rcases update_cases part (insertAt d parts) (node part (!parts.isEmpty || d) []) cs with
      ⟨before, t, after, rfl, hname, he⟩ | ⟨hnone, he⟩
    · have hmem : part ∈ (before ++ t :: after).map name := by
        rw [← hname]
        exact List.mem_map_of_mem (by simp)
      rw [he, if_pos hmem]
      simp
    · have hnew : part ∉ cs.map name := by
        intro hmem
        obtain ⟨t, ht, hname⟩ := List.mem_map.mp hmem
        exact hnone t ht hname
      rw [he, if_neg hnew, List.map_append, List.map_singleton, insertAt_name]
      rfl

lemma find?_update {part : String} {f : DirTree → DirTree} {new : DirTree} (hf : ∀ t, (f t).name = t.name)
    (hnew : new.name = part) (n : String) (cs : List DirTree) :
    (update part f new cs).find? (·.name = n) =
      if part = n then some (f ((cs.find? (·.name = part)).getD new)) else cs.find? (·.name = n) := by
  induction cs with
  | nil => by_cases hn : part = n <;> simp [update, hf, hnew, hn]
  | cons t cs ih =>
    by_cases ht : t.name = part
    · by_cases hn : part = n <;> simp [update, ht, hf, hn]
    · rw [update, if_neg ht, List.find?_cons, List.find?_cons, List.find?_cons, ih]
      by_cases hn : part = n
      · subst hn
        simp [ht]
      · simp [hn]

def nameBehind? (q p : List String) : Option String := if q <+: p then p[q.length]? else none

lemma namesAt_insertAt (d : Bool) (p q : List String) (t : DirTree) :
    namesAt q (insertAt d p t) =
      if q <+: p then some (addName ((namesAt q t).getD []) (nameBehind? q p)) else namesAt q t := by
  induction q generalizing p t with
  | nil => simp [namesAt, childNames_insertAt, nameBehind?, List.head?_eq_getElem?]
  | cons n q ih =>
    cases p with
    | nil => simp [insertAt]
    | cons part parts =>
      obtain ⟨m, b, cs⟩ := t
      have hnew : (node part (!parts.isEmpty || d) []).name = part := rfl
      rw [insertAt, namesAt, namesAt, find?_update (insertAt_name d parts) hnew]
      by_cases hn : part = n
      · subst hn
        cases hfind : cs.find? (·.name = part) with
        | none =>
          -- the new child has no children yet, whatever names lead into it
          have hleaf : (namesAt q (node part (!parts.isEmpty || d) [])).getD [] = [] := by
            rw [namesAt_leaf]
            split <;> rfl
          by_cases hq : q <+: parts
          · simp [ih, nameBehind?, hq, hleaf]
          · have hnil : q ≠ [] := by
              rintro rfl
              exact hq List.nil_prefix
            simp [ih, hq, namesAt_leaf, hnil]
        | some u => simp [ih, nameBehind?]
      · simp [hn, Ne.symm hn]

def grown (rootName : String) (xs : List Location) : DirTree :=
  xs.foldl (fun t x => insertAt x.isDir x.names t) (root rootName)

lemma grown_snoc (rootName : String) (xs : List Location) (x : Location) :
    grown rootName (xs ++ [x]) = insertAt x.isDir x.names (grown rootName xs) := by
  simp [grown]

lemma nodup_inits (p : List String) : p.inits.Nodup := by
  induction p with
  | nil => simp
  | cons n p ih =>
    rw [List.inits_cons, List.nodup_cons]
    exact ⟨by simp, ih.map List.cons_injective⟩

lemma names_fresh (known : List (List String)) (d : Bool) (p : List String) :
    (fresh known d p).map (·.names) = p.inits.tail.filter (· ∉ known) := by
  rw [fresh, List.map_map]
  exact List.map_id _

lemma paths_insertAt_nodup (d : Bool) (p : List String) {t : DirTree} (h : t.paths.Nodup) :
    (insertAt d p t).paths.Nodup := by
  have hperm := (nodes_insertAt d p h).map (·.names)
  rw [List.map_append, names_fresh] at hperm
  refine hperm.nodup_iff.mpr (List.nodup_append.mpr ⟨h, ((nodup_inits p).tail).filter _, ?_⟩)
  rintro q hq _ hq' rfl
  exact of_decide_eq_true (List.mem_filter.mp hq').2 hq

lemma paths_grown_nodup (rootName : String) (xs : List Location) : (grown rootName xs).paths.Nodup := by
  induction xs using List.reverseRecOn with
  | nil => exact List.nodup_nil
  | append_singleton xs x ih =>
    rw [grown_snoc]
    exact paths_insertAt_nodup _ _ ih

lemma mem_paths_insertAt (d : Bool) {p q : List String} {t : DirTree} (h : t.paths.Nodup) :
    q ∈ (insertAt d p t).paths ↔ q ∈ t.paths ∨ q ≠ [] ∧ q <+: p := by
  have hmem := ((nodes_insertAt d p h).map (·.names)).mem_iff (a := q)
  rw [List.map_append, names_fresh, List.mem_append, List.mem_filter, mem_inits_tail, decide_eq_true_eq] at hmem
  refine hmem.trans ?_
  by_cases hq : q ∈ t.paths
  · exact iff_of_true (Or.inl hq) (Or.inl hq)
  · exact or_congr_right (and_iff_left hq)

lemma mem_paths_grown {rootName : String} {xs : List Location} {q : List String} :
    q ∈ (grown rootName xs).paths ↔ q ≠ [] ∧ ∃ x ∈ xs, q <+: x.names := by
  induction xs using List.reverseRecOn with
  | nil =>
    refine iff_of_false List.not_mem_nil ?_
    rintro ⟨_, x, hx, _⟩
    cases hx
  | append_singleton xs x ih =>
    rw [grown_snoc, mem_paths_insertAt _ (paths_grown_nodup rootName xs), ih, ← and_or_left]
    simp [or_and_right, exists_or]

lemma mem_fresh {known : List (List String)} {d : Bool} {p : List String} {x : Location} :
    x ∈ fresh known d p ↔ x.names ≠ [] ∧ x.names <+: p ∧ x.names ∉ known ∧
      x.isDir = (decide (x.names ≠ p) || d) := by
  simp only [fresh, List.mem_map, List.mem_filter, mem_inits_tail, decide_eq_true_eq]
  constructor
  · rintro ⟨q, ⟨⟨hne, hpre⟩, hnew⟩, rfl⟩
    exact ⟨hne, hpre, hnew, rfl⟩
  · rintro ⟨hne, hpre, hnew, hdir⟩
    exact ⟨x.names, ⟨⟨hne, hpre⟩, hnew⟩, by rw [← hdir]⟩

/-- The entry whose insertion made the node that some names lead to. -/
def maker? (xs : List Location) (q : List String) : Option Location := xs.find? (q <+: ·.names)

lemma mem_nodes_grown {rootName : String} {xs : List Location} {x : Location} :
    x ∈ (grown rootName xs).nodes ↔ x.names ≠ [] ∧ ∃ y, maker? xs x.names = some y ∧
      x.isDir = (decide (x.names ≠ y.names) || y.isDir) := by
  induction xs using List.reverseRecOn with
  | nil =>
    refine iff_of_false List.not_mem_nil ?_
    rintro ⟨_, y, hy, _⟩
    cases hy
  | append_singleton xs z ih =>
    rw [grown_snoc, (nodes_insertAt _ _ (paths_grown_nodup rootName xs)).mem_iff, List.mem_append, ih, mem_fresh,
      mem_paths_grown, maker?, maker?, List.find?_append]
    cases hy : xs.find? (x.names <+: ·.names) with
    | some y =>
      have hold : ∃ y ∈ xs, x.names <+: y.names :=
        ⟨y, List.mem_of_find?_eq_some hy, by simpa using List.find?_some hy⟩
      rw [Option.some_or]
      -- the node was there before, so that this entry made none
      refine or_iff_left ?_
      rintro ⟨hne, _, hnew, _⟩
      exact hnew ⟨hne, hold⟩
    | none =>
      have hnew : ¬∃ y ∈ xs, x.names <+: y.names := by
        simpa using List.find?_eq_none.mp hy
      simp [hnew]

lemma insertAt_of_known (d : Bool) {p : List String} {t : DirTree} (h : t.paths.Nodup)
    (hp : ∀ q, q ≠ [] → q <+: p → q ∈ t.paths) : insertAt d p t = t := by
  induction p generalizing t with
  | nil => rfl
  | cons part parts ih =>
    obtain ⟨n, b, cs⟩ := t
    obtain ⟨hbelow, hnames⟩ := paths_nodup_node.mp h
    rcases update_cases part (insertAt d parts) (node part (!parts.isEmpty || d) []) cs with
      ⟨before, t, after, hcs, hname, he⟩ | ⟨hnone, _⟩
    · have ht : t ∈ cs := by simp [hcs]
      have hsame : insertAt d parts t = t := by
        apply ih (hbelow t ht)
        intro q hq hpre
        rw [← cons_mem_paths_node hnames ht hq, hname]
        exact hp _ (List.cons_ne_nil part q) (List.cons_prefix_cons.mpr ⟨rfl, hpre⟩)
      rw [insertAt, he, hsame, ← hcs]
    · have hpart := hp [part] (List.cons_ne_nil part []) (List.cons_prefix_cons.mpr ⟨rfl, List.nil_prefix⟩)
      obtain ⟨t, ht, q, _, heq⟩ := mem_paths_node.mp hpart
      exact absurd (List.cons.inj heq).1 (hnone t ht)

/-- The names that follow `q` on the paths of some entries, in the order they first occur. -/
def namesBehind (xs : List Location) (q : List String) : List String :=
  (xs.filterMap fun x => nameBehind? q x.names).eraseDups

lemma namesBehind_snoc (xs : List Location) (x : Location) (q : List String) :
    namesBehind (xs ++ [x]) q = addName (namesBehind xs q) (nameBehind? q x.names) := by
  rw [namesBehind, List.filterMap_append]
  cases hn : nameBehind? q x.names with
  | none => simp [hn, addName, namesBehind]
  | some n => simp [hn, eraseDups_snoc, addName, namesBehind]

lemma namesAt_grown (rootName : String) (xs : List Location) (q : List String) :
    (namesAt q (grown rootName xs)).getD [] = namesBehind xs q := by
  induction xs using List.reverseRecOn with
  | nil => cases q <;> rfl
  | append_singleton xs x ih =>
    rw [grown_snoc, namesAt_insertAt, namesBehind_snoc, ← ih]
    split
    next => rfl
    next hq => rw [nameBehind?, if_neg hq, addName]

lemma childNames_of_reaches {rootName : String} {xs : List Location} {q : List String} {u : DirTree}
    (h : (grown rootName xs).Reaches q u) : u.childNames = namesBehind xs q := by
  rw [← namesAt_grown rootName, h.namesAt_eq (paths_grown_nodup rootName xs), Option.getD_some]

lemma foldl_insert_eq_grown (rootName : String) (entries : List (String × Bool)) :
    entries.foldl (fun t e => t.insert e.1 e.2) (root rootName) =
      grown rootName (entries.map fun e => ⟨Path.names e.1, e.2⟩) := by
  rw [grown, List.foldl_map]
  simp only [insert, components_eq_names]

theorem tree_holds_inserted_prefixes (rootName : String) (entries : List (String × Bool)) :
    let t := entries.foldl (fun t e => t.insert e.1 e.2) (root rootName)
    (∀ q u, t.Reaches q u → (u.children.map name).Nodup ∧
      u.children.map name = (entries.filterMap fun e => nameBehind? q (Path.names e.1)).eraseDups) ∧
    t.paths.Nodup ∧
    (∀ q, q ∈ t.paths ↔ q ≠ [] ∧ ∃ e ∈ entries, q <+: Path.names e.1) ∧
    (∀ x ∈ t.nodes, ∃ e, entries.find? (fun e => x.names <+: Path.names e.1) = some e ∧
      (x.isDir = true ↔ x.names ≠ Path.names e.1 ∨ e.2 = true)) ∧
    ∀ path isDir, (∀ q, q ≠ [] → q <+: Path.names path → q ∈ t.paths) → t.insert path isDir = t := by
  intro t
  have ht : t = grown rootName (entries.map fun e => ⟨Path.names e.1, e.2⟩) :=
    foldl_insert_eq_grown rootName entries
  have hnodup : t.paths.Nodup := ht ▸ paths_grown_nodup _ _
  refine ⟨?_, hnodup, ?_, ?_, ?_⟩
  · intro q u hu
    rw [ht] at hu
    have hnames := childNames_of_reaches hu
    rw [childNames, namesBehind, List.filterMap_map] at hnames
    exact ⟨hnames ▸ nodup_eraseDups _, hnames⟩
  · intro q
    rw [ht, mem_paths_grown]
    refine and_congr_right fun _ => ⟨?_, ?_⟩
    · rintro ⟨x, hx, hpre⟩
      obtain ⟨e, he, rfl⟩ := List.mem_map.mp hx
      exact ⟨e, he, hpre⟩
    · rintro ⟨e, he, hpre⟩
      exact ⟨_, List.mem_map_of_mem he, hpre⟩
  · intro x hx
    rw [ht, mem_nodes_grown, maker?, List.find?_map] at hx
    obtain ⟨_, y, hy, hdir⟩ := hx
    obtain ⟨e, he, rfl⟩ := Option.map_eq_some_iff.mp hy
    exact ⟨e, he, by simp [hdir]⟩
  · intro path isDir hknown
    rw [insert, components_eq_names]
    exact insertAt_of_known isDir hnodup hknown

end DirTree

end CallAtlas
