import CallAtlas.Proofs.DirTreeGrowth

/-! The text of a tree tells the tree. The margin of a line says between which entries it stands, whatever the
names look like. -/

namespace CallAtlas

lemma Text.pieces_lines {ls : List String} (h : ∀ l ∈ ls, '\n' ∉ l.toList) :
    pieces (· == '\n') (String.join (ls.map (· ++ "\n"))).toList = ls.map String.toList ++ [[]] := by
  induction ls with
  | nil => rfl
  | cons l ls ih =>
    obtain ⟨hl, hls⟩ := List.forall_mem_cons.mp h
    have htext : (String.join ((l :: ls).map (· ++ "\n"))).toList =
        l.toList ++ '\n' :: (String.join (ls.map (· ++ "\n"))).toList := by
      simp [String.toList_join]
    have hline : ∀ c ∈ l.toList, (c == '\n') = false := by
      intro c hc
      exact beq_eq_false_iff_ne.mpr (ne_of_mem_of_not_mem hc hl)
    rw [htext, pieces_append_cons hline rfl, ih hls]
    rfl

lemma Text.lines_inj {ls ms : List String} (hl : ∀ l ∈ ls, '\n' ∉ l.toList) (hm : ∀ l ∈ ms, '\n' ∉ l.toList)
    (h : String.join (ls.map (· ++ "\n")) = String.join (ms.map (· ++ "\n"))) : ls = ms := by
  have hpieces := pieces_lines hl
  rw [h, pieces_lines hm] at hpieces
  exact (List.map_injective_iff.mpr (fun _ _ => String.toList_inj.mp) (List.append_cancel_right hpieces)).symm

lemma append_inj_of_head {α : Type} {p : α → Bool} {a a' b b' : List α} (ha : ∀ x ∈ a, p x = true)
    (ha' : ∀ x ∈ a', p x = true) (hb : ∀ x ∈ b.head?, p x = false) (hb' : ∀ x ∈ b'.head?, p x = false)
    (h : a ++ b = a' ++ b') : a = a' ∧ b = b' := by
  have hcut : ∀ {l r : List α}, (∀ x ∈ l, p x = true) → (∀ x ∈ r.head?, p x = false) →
      (l ++ r).takeWhile p = l := by
    intro l r hl hr
    rw [List.takeWhile_append_of_pos hl]
    cases r with
    | nil => simp
    | cons x r => simp [hr x rfl]
  have hfront : a = a' := by
    rw [← hcut ha hb, h, hcut ha' hb']
  exact ⟨hfront, List.append_cancel_left (hfront ▸ h)⟩

namespace DirTree

/-- Names of one line, free of the mark of a directory. -/
def HasLineNames (t : DirTree) : Prop :=
  ∀ q u, t.Reaches q u → '\n' ∉ u.name.toList ∧ '/' ∉ u.name.toList

lemma hasLineNames_node {n : String} {d : Bool} {cs : List DirTree} : (node n d cs).HasLineNames ↔
    ('\n' ∉ n.toList ∧ '/' ∉ n.toList) ∧ ∀ c ∈ cs, c.HasLineNames := by
  constructor
  · intro h
    exact ⟨h [] _ (.here _), fun c hc q u hu => h _ u (.child hc hu)⟩
  · rintro ⟨hn, hcs⟩ q u hu
    cases hu with
    | here => exact hn
    | child hc hu => exact hcs _ hc _ u hu

lemma HasLineNames.name {t : DirTree} (h : t.HasLineNames) : '\n' ∉ t.name.toList ∧ '/' ∉ t.name.toList :=
  h [] t (.here t)

lemma HasLineNames.children {t : DirTree} (h : t.HasLineNames) : ∀ c ∈ t.children, c.HasLineNames := by
  obtain ⟨n, d, cs⟩ := t
  exact (hasLineNames_node.mp h).2

lemma displayName_inj {t u : DirTree} (ht : '/' ∉ t.name.toList) (hu : '/' ∉ u.name.toList)
    (h : t.displayName = u.displayName) : t.name = u.name ∧ t.isDir = u.isDir := by
  have hslash : ∀ {a b : String}, '/' ∉ b.toList → a ++ "/" ≠ b := by
    rintro a _ hb rfl
    exact hb (by simp)
  cases hd : t.isDir <;> cases he : u.isDir <;> simp only [displayName, hd, he, if_true] at h
  · exact ⟨h, rfl⟩
  · exact absurd h.symm (hslash ht)
  · exact absurd h (hslash hu)
  · exact ⟨String.append_left_inj "/" |>.mp h, rfl⟩

lemma entryLines_eq (margin : String) (isLast : Bool) (t : DirTree) : entryLines margin isLast t =
    (margin ++ (connectors isLast).1 ++ t.displayName) ::
      childLines (margin ++ (connectors isLast).2) t.children := by
  cases t
  rfl

lemma childLines_cons (margin : String) (c : DirTree) (cs : List DirTree) : childLines margin (c :: cs) =
    (margin ++ (connectors cs.isEmpty).1 ++ c.displayName) ::
      (childLines (margin ++ (connectors cs.isEmpty).2) c.children ++ childLines margin cs) := by
  rw [childLines, entryLines_eq, List.cons_append]

lemma newline_notMem_connectors (isLast : Bool) :
    '\n' ∉ (connectors isLast).1.toList ∧ '\n' ∉ (connectors isLast).2.toList := by
  cases isLast <;> decide

lemma exists_of_mem_childLines {t : DirTree} {margin l : String} (h : l ∈ childLines margin t.children) :
    ∃ q u s, t.Reaches q u ∧ '\n' ∉ s.toList ∧ l = margin ++ s ++ u.displayName := by
  induction t using DirTree.induction generalizing margin with
  | node n d cs ih =>
    have hsome : ∀ ds, ds ⊆ cs → l ∈ childLines margin ds →
        ∃ q u s, (node n d cs).Reaches q u ∧ '\n' ∉ s.toList ∧ l = margin ++ s ++ u.displayName := by
      intro ds hds hl
      induction ds with
      | nil => cases hl
      | cons c ds ihds =>
        obtain ⟨hc, hds⟩ := List.cons_subset.mp hds
        obtain ⟨hconnector, hmargin⟩ := newline_notMem_connectors ds.isEmpty
        rw [childLines_cons, List.mem_cons, List.mem_append] at hl
        rcases hl with rfl | hl | hl
        · exact ⟨_, c, _, .child hc (.here c), hconnector, rfl⟩
        · obtain ⟨q, u, s, hu, hs, rfl⟩ := ih c hc hl
          refine ⟨_, u, (connectors ds.isEmpty).2 ++ s, .child hc hu, ?_, ?_⟩
          · simp [hmargin, hs]
          · simp only [String.append_assoc]
        · exact ihds hds hl
    exact hsome cs (List.Subset.refl cs) h

lemma prefix_of_mem_childLines {t : DirTree} {margin l : String} (h : l ∈ childLines margin t.children) :
    margin.toList <+: l.toList := by
  obtain ⟨_, u, s, _, _, rfl⟩ := exists_of_mem_childLines h
  rw [String.append_assoc, String.toList_append]
  exact List.prefix_append _ _

lemma HasLineNames.newline_notMem_displayName {t : DirTree} (h : t.HasLineNames) :
    '\n' ∉ t.displayName.toList := by
  rw [displayName]
  split
  · simp [h.name.1]
  · exact h.name.1

lemma HasLineNames.of_reaches {t u : DirTree} (h : t.HasLineNames) {q : List String} (hu : t.Reaches q u) :
    u.HasLineNames := by
  induction hu with
  | here t => exact h
  | child hc _ ih => exact ih (h.children _ hc)

lemma HasLineNames.newline_notMem_lines {t : DirTree} (h : t.HasLineNames) :
    ∀ l ∈ t.lines, '\n' ∉ l.toList := by
  intro l hl
  rcases List.mem_cons.mp hl with rfl | hl
  · exact h.newline_notMem_displayName
  · obtain ⟨q, u, s, hu, hs, rfl⟩ := exists_of_mem_childLines hl
    simp [hs, (h.of_reaches hu).newline_notMem_displayName]

lemma connector_inj {isLast isLast' : Bool} {s s' : String}
    (h : (connectors isLast).1 ++ s = (connectors isLast').1 ++ s') : isLast = isLast' ∧ s = s' := by
  have htext := congrArg String.toList h
  cases isLast <;> cases isLast'
  · simpa [connectors, String.toList_inj] using htext
  · simp [connectors] at htext
  · simp [connectors] at htext
  · simpa [connectors, String.toList_inj] using htext

lemma not_prefix_entry (margin : String) (isLast isLast' : Bool) (s : String) :
    ¬(margin ++ (connectors isLast).2).toList <+: (margin ++ (connectors isLast').1 ++ s).toList := by
  rw [String.append_assoc, String.toList_append, String.toList_append, List.prefix_append_right_inj]
  cases isLast <;> cases isLast' <;> simp [connectors]

lemma head_childLines {margin l : String} {cs : List DirTree} (h : l ∈ (childLines margin cs).head?)
    (isLast : Bool) : ¬(margin ++ (connectors isLast).2).toList <+: l.toList := by
  cases cs with
  | nil => cases h
  | cons c cs =>
    rw [childLines_cons, List.head?_cons, Option.mem_some_iff] at h
    exact h ▸ not_prefix_entry margin isLast cs.isEmpty c.displayName

lemma ext_children {t u : DirTree} (hname : t.name = u.name) (hdir : t.isDir = u.isDir)
    (hchildren : t.children = u.children) : t = u := by
  obtain ⟨n, d, cs⟩ := t
  obtain ⟨m, e, ds⟩ := u
  obtain rfl : n = m := hname
  obtain rfl : d = e := hdir
  obtain rfl : cs = ds := hchildren
  rfl

lemma childLines_cons_inj {margin : String} {c e : DirTree} {cs ds : List DirTree} (hc : '/' ∉ c.name.toList)
    (he : '/' ∉ e.name.toList) (h : childLines margin (c :: cs) = childLines margin (e :: ds)) :
    c.name = e.name ∧ c.isDir = e.isDir ∧
    (∃ margin', childLines margin' c.children = childLines margin' e.children) ∧
    childLines margin cs = childLines margin ds := by
  rw [childLines_cons, childLines_cons, List.cons.injEq] at h
  obtain ⟨hline, hrest⟩ := h
  rw [String.append_assoc, String.append_assoc, String.append_right_inj] at hline
  obtain ⟨hlast, hshown⟩ := connector_inj hline
  obtain ⟨hname, hdir⟩ := displayName_inj hc he hshown
  rw [← hlast] at hrest
  -- the nested lines go on with the margin, and the line of the next sibling is the first that does not
  obtain ⟨hnested, hlater⟩ := append_inj_of_head
    (p := fun l => decide ((margin ++ (connectors cs.isEmpty).2).toList <+: l.toList))
    (fun l hl => decide_eq_true (prefix_of_mem_childLines hl))
    (fun l hl => decide_eq_true (prefix_of_mem_childLines hl))
    (fun l hl => decide_eq_false (head_childLines hl _))
    (fun l hl => decide_eq_false (head_childLines hl _)) hrest
  exact ⟨hname, hdir, ⟨_, hnested⟩, hlater⟩

lemma childLines_inj {t : DirTree} (ht : t.HasLineNames) {ds : List DirTree} (hds : ∀ c ∈ ds, c.HasLineNames)
    {margin : String} (h : childLines margin t.children = childLines margin ds) : t.children = ds := by
  induction t using DirTree.induction generalizing ds margin with
  | node n d cs ih =>
    have hcs : ∀ c ∈ cs, c.HasLineNames := ht.children
    change childLines margin cs = childLines margin ds at h
    change cs = ds
    clear ht
    induction cs generalizing ds with
    | nil =>
      cases ds with
      | nil => rfl
      | cons e ds => exact absurd h.symm (childLines_cons margin e ds ▸ List.cons_ne_nil _ _)
    | cons c cs ihcs =>
      cases ds with
      | nil => exact absurd h (childLines_cons margin c cs ▸ List.cons_ne_nil _ _)
      | cons e ds =>
        obtain ⟨hc, hcs⟩ := List.forall_mem_cons.mp hcs
        obtain ⟨he, hds⟩ := List.forall_mem_cons.mp hds
        obtain ⟨ihc, ih⟩ := List.forall_mem_cons.mp ih
        obtain ⟨hname, hdir, ⟨_, hnested⟩, hlater⟩ := childLines_cons_inj hc.name.2 he.name.2 h
        rw [ext_children hname hdir (ihc hc he.children hnested), ihcs ih hds hcs hlater]

theorem render_tells_tree (t u : DirTree) (ht : t.HasLineNames) (hu : u.HasLineNames) :
    t.render = u.render ↔ t = u := by
  constructor
  · intro h
    have hlines := Text.lines_inj ht.newline_notMem_lines hu.newline_notMem_lines h
    obtain ⟨hshown, hchildren⟩ := List.cons.inj hlines
    obtain ⟨hname, hdir⟩ := displayName_inj ht.name.2 hu.name.2 hshown
    exact ext_children hname hdir (childLines_inj ht hu.children hchildren)
  · rintro rfl
    rfl

/-- A file with a child, and names that begin like margins. -/
def nestedLookalike : DirTree :=
  node "r" true [node "├── a" false [node "│   └── b" false []], node "    └── " true []]

def flatLookalike : DirTree :=
  node "r" true [node "├── a" false [], node "│   └── b" false [], node "    └── " true []]

theorem lookalikes_rendered_apart :
    nestedLookalike.HasLineNames ∧ flatLookalike.HasLineNames ∧
    nestedLookalike.render ≠ flatLookalike.render := by
  have hnested : nestedLookalike.HasLineNames := by
    simp only [nestedLookalike, hasLineNames_node, List.forall_mem_cons, List.not_mem_nil, false_implies,
      implies_true, and_true]
    decide
  have hflat : flatLookalike.HasLineNames := by
    simp only [flatLookalike, hasLineNames_node, List.forall_mem_cons, List.not_mem_nil, false_implies,
      implies_true, and_true]
    decide
  refine ⟨hnested, hflat, fun h => ?_⟩
  have heq := (render_tells_tree nestedLookalike flatLookalike hnested hflat).mp h
  simp [nestedLookalike, flatLookalike] at heq

end DirTree

end CallAtlas
