import CallAtlas.Proofs.PathTrails
import CallAtlas.Proofs.ProjectEntries

/-! What stands below a skipped directory reaches a project through links only. -/

namespace CallAtlas

namespace FileNode

variable {tree : List (String × FileNode)} {x : Location}

def isDirectory : FileNode → Bool
  | directory _ => true
  | file _ | link _ => false

/-- Names that a path can spell: `..` would lead out of the directory. -/
structure Proper (tree : List (String × FileNode)) : Prop where
  tidy : Entry.Tidy (listingAll tree)
  no_up : ∀ x, Holds tree x → ".." ∉ x.names

lemma map_name_listingAll (tree : List (String × FileNode)) :
    (listingAll tree).map Entry.name = tree.map Prod.fst := by
  rw [listingAll_eq, List.map_map]
  apply List.map_congr_left
  rintro ⟨n, node⟩ _
  cases node <;> rfl

lemma child?_of_mem (ht : Entry.Tidy (listingAll tree)) {n : String} {node : FileNode} (h : (n, node) ∈ tree) :
    (directory tree).child? n = some node := by
  have hn := ht.nodup
  rw [map_name_listingAll] at hn
  obtain ⟨⟨m, found⟩, hfound⟩ := Option.isSome_iff_exists.mp
    (List.find?_isSome.mpr ⟨(n, node), h, by simp⟩ : (tree.find? (·.1 == n)).isSome)
  obtain rfl : m = n := by simpa using List.find?_some hfound
  have hsame := List.inj_on_of_nodup_map hn (List.mem_of_find?_eq_some hfound) h rfl
  rw [child?, entries, hfound, hsame]
  rfl

lemma mem_of_child? {n : String} {node : FileNode} (h : (directory tree).child? n = some node) :
    (n, node) ∈ tree := by
  obtain ⟨⟨m, found⟩, hfound, rfl⟩ := Option.map_eq_some_iff.mp h
  obtain rfl : m = n := by simpa using List.find?_some hfound
  exact List.mem_of_find?_eq_some hfound

lemma tidy_of_mem (ht : Entry.Tidy (listingAll tree)) {n : String} {es : List (String × FileNode)}
    (h : (n, directory es) ∈ tree) : Entry.Tidy (listingAll es) := by
  obtain ⟨_, hnodup, hes⟩ := Entry.wellNamed_directory.mp (ht.wellNamed _ (mem_listingAll h))
  exact ⟨hnodup, hes⟩

lemma exists_at?_of_holds (h : Holds tree x) (ht : Entry.Tidy (listingAll tree)) :
    ∃ node, (directory tree).at? x.names = some node ∧ node.isDirectory = x.isDir := by
  induction h with
  | file hmem => exact ⟨_, by rw [at?, child?_of_mem ht hmem]; rfl, rfl⟩
  | link hmem => exact ⟨_, by rw [at?, child?_of_mem ht hmem]; rfl, rfl⟩
  | directory hmem => exact ⟨_, by rw [at?, child?_of_mem ht hmem]; rfl, rfl⟩
  | inside hmem _ ih =>
    obtain ⟨node, hnode, hdir⟩ := ih (tidy_of_mem ht hmem)
    refine ⟨node, ?_, hdir⟩
    rw [Location.under, at?, child?_of_mem ht hmem]
    exact hnode

lemma holds_of_at? {names : List String} {node : FileNode} (hne : names ≠ [])
    (h : (directory tree).at? names = some node) : Holds tree ⟨names, node.isDirectory⟩ := by
  induction names generalizing tree with
  | nil => exact absurd rfl hne
  | cons n names ih =>
    rw [at?] at h
    obtain ⟨child, hchild, h⟩ := Option.bind_eq_some_iff.mp h
    have hmem := mem_of_child? hchild
    cases names with
    | nil =>
      obtain rfl : child = node := Option.some.inj h
      cases child with
      | file _ => exact .file hmem
      | link _ => exact .link hmem
      | directory _ => exact .directory hmem
    | cons m names =>
      cases child with
      | directory es => exact .inside hmem (ih (List.cons_ne_nil m names) h)
      | file _ | link _ => cases h

lemma holds_iff_mem_locationsIn : Holds tree x ↔ x ∈ Entry.locationsIn [] (listingAll tree) := by
  simp [holds_iff, Entry.locationsIn_eq, Entry.mem_locations]

lemma Holds.names_ne_nil (h : Holds tree x) : x.names ≠ [] := by
  cases h <;> exact List.cons_ne_nil _ _

/-- Something stands in directories only. -/
lemma directory_of_at? {node found : FileNode} {p : List String} {n : String} {q : List String}
    (h : node.at? (p ++ n :: q) = some found) : ∃ es, node.at? p = some (directory es) := by
  rw [at?_append] at h
  obtain ⟨parent, hparent, h⟩ := Option.bind_eq_some_iff.mp h
  cases parent with
  | directory es => exact ⟨es, hparent⟩
  | file _ | link _ => cases h

end FileNode

namespace FileSystem

open FileNode

/-- A place below a skipped directory of the project at `p`. -/
def BelowSkipped (skipped p q : List String) : Prop :=
  ∃ above n rest, q = p ++ (above ++ n :: rest) ∧ n ∈ skipped ∧ rest ≠ []

/-- An entry of the project at `p` that is a link, and whose way comes by a place below a skipped directory. -/
def LinksBelowSkipped (fs : FileSystem) (skipped p : List String) (path r : String) : Prop :=
  (∃ target, fs.root.at? (p ++ parts r) = some (.link target)) ∧
    ∃ q ∈ fs.trail 40 fs.here (parts (Path.join path r)), BelowSkipped skipped p q

variable {fs fs' : FileSystem} {skipped p names : List String} {path r : String}

lemma belowSkipped_iff {q : List String} :
    BelowSkipped skipped p q ↔ p <+: q ∧ ∃ n ∈ (q.drop p.length).dropLast, n ∈ skipped := by
  constructor
  · rintro ⟨above, n, rest, rfl, hn, hrest⟩
    refine ⟨List.prefix_append _ _, n, ?_, hn⟩
    rw [List.drop_left, List.dropLast_append_of_ne_nil (List.cons_ne_nil n rest),
      List.dropLast_cons_of_ne_nil hrest]
    simp
  · rintro ⟨⟨way, rfl⟩, n, hmem, hn⟩
    rw [List.drop_left] at hmem
    obtain ⟨above, rest, hsplit⟩ := List.append_of_mem hmem
    have hne : way ≠ [] := by
      rintro rfl
      cases hmem
    refine ⟨above, n, rest ++ [way.getLast hne], ?_, hn, by simp⟩
    rw [← List.cons_append, ← List.append_assoc above, ← hsplit, List.dropLast_append_getLast]

instance (skipped p q : List String) : Decidable (BelowSkipped skipped p q) :=
  decidable_of_iff' _ belowSkipped_iff

lemma not_belowSkipped (h : ∀ n ∈ names.dropLast, n ∉ skipped) {way : List String} (hway : way <+: names) :
    ¬BelowSkipped skipped p (p ++ way) := by
  rw [belowSkipped_iff, List.drop_left]
  rintro ⟨_, n, hn, hskipped⟩
  obtain ⟨more, rfl⟩ := hway
  refine h n ?_ hskipped
  cases more with
  | nil => rwa [List.append_nil]
  | cons m more =>
    rw [List.dropLast_append_of_ne_nil (List.cons_ne_nil m more)]
    exact List.mem_append_left _ (List.mem_of_mem_dropLast hn)

lemma locate_of_node {tree : List (String × FileNode)} (h : fs.node path = .ok (p, .directory tree)) :
    fs.locate path = .ok (.found p) ∧ fs.root.at? p = some (.directory tree) := by
  cases hplace : fs.locate path with
  | error e =>
    rw [node, hplace] at h
    cases h
  | ok place =>
    cases place with
    | vacant =>
      rw [node, hplace] at h
      cases h
    | found q =>
      rw [node_of_found hplace] at h
      cases hq : fs.root.at? q with
      | none =>
        rw [hq] at h
        cases h
      | some n =>
        rw [hq] at h
        obtain ⟨rfl, rfl⟩ := Prod.mk.inj (Except.ok.inj h)
        exact ⟨rfl, hq⟩

lemma AgreesOutside.read_entry (h : fs.AgreesOutside (BelowSkipped skipped p) fs')
    (hp : fs.locate path = .ok (.found p)) (hp' : fs'.locate path = .ok (.found p))
    (hnames : ∀ n ∈ parts r, isDotted n = false) (hskip : ∀ n ∈ (parts r).dropLast, n ∉ skipped)
    (hdir : ∃ es, fs.root.at? (p ++ (parts r).dropLast) = some (.directory es))
    (hlink : ¬fs.LinksBelowSkipped skipped p path r) :
    fs'.read (Path.join path r) = fs.read (Path.join path r) ∧
      fs'.isFile (Path.join path r) = fs.isFile (Path.join path r) := by
  by_cases htarget : ∃ target, fs.root.at? (p ++ parts r) = some (.link target)
  · apply h.read_of_clear
    intro q hq hbelow
    exact hlink ⟨htarget, q, hq, hbelow⟩
  · refine h.read_of_unlinked hp hp' hnames (fun way hway => not_belowSkipped hskip hway) ?_
    -- what leads to the directory of the entry are directories
    rintro way ⟨more, hmore⟩ target hlinked
    have hne : more ≠ [] := by
      rintro rfl
      rw [List.append_nil] at hmore
      exact htarget ⟨target, hmore ▸ hlinked⟩
    obtain ⟨es, hes⟩ := hdir
    rw [← hmore, List.dropLast_append_of_ne_nil hne, ← List.append_assoc] at hes
    cases hlast : more.dropLast with
    | nil =>
      rw [hlast, List.append_nil, hlinked] at hes
      cases hes
    | cons n more =>
      rw [hlast] at hes
      obtain ⟨es', hes'⟩ := directory_of_at? hes
      rw [hlinked] at hes'
      cases hes'

section Project

variable {tree tree' : List (String × FileNode)} {x : Location}

lemma names_unskipped (h : FileNode.Kept skipped tree x) : ∀ n ∈ x.names.dropLast, n ∉ skipped := by
  intro n hn
  refine h.unskipped n ?_
  rw [Location.directories]
  split
  · exact List.mem_of_mem_dropLast hn
  · exact hn

lemma exists_at?_of_kept (hp : fs.root.at? p = some (.directory tree)) (ht : Entry.Tidy (listingAll tree))
    (hx : FileNode.Kept skipped tree x) :
    ∃ node, fs.root.at? (p ++ x.names) = some node ∧ node.isDirectory = x.isDir := by
  rw [at?_append, hp]
  exact exists_at?_of_holds hx.stands ht

lemma AgreesOutside.kept (h : fs.AgreesOutside (BelowSkipped skipped p) fs')
    (hp : fs.root.at? p = some (.directory tree)) (hp' : fs'.root.at? p = some (.directory tree'))
    (ht : Entry.Tidy (listingAll tree)) (hx : FileNode.Kept skipped tree x) :
    FileNode.Kept skipped tree' x := by
  obtain ⟨node, hplace, hkind⟩ := exists_at?_of_kept hp ht hx
  have halike := h.alike _ (not_belowSkipped (p := p) (names_unskipped hx) List.prefix_rfl)
  obtain ⟨node', hnode', hkind'⟩ : ∃ node', fs'.root.at? (p ++ x.names) = some node' ∧
      node'.isDirectory = x.isDir := by
    rw [hplace] at halike
    obtain ⟨es, es', hes, hes'⟩ | ⟨hsame, _⟩ := halike.cases
    · obtain rfl := Option.some.inj hes
      exact ⟨_, hes', hkind⟩
    · exact ⟨node, hsame, hkind⟩
  rw [at?_append, hp'] at hnode'
  have hholds := holds_of_at? hx.stands.names_ne_nil hnode'
  rw [hkind'] at hholds
  exact ⟨hholds, hx.unskipped⟩

lemma AgreesOutside.kept_iff (h : fs.AgreesOutside (BelowSkipped skipped p) fs')
    (hp : fs.root.at? p = some (.directory tree)) (hp' : fs'.root.at? p = some (.directory tree'))
    (ht : Entry.Tidy (listingAll tree)) (ht' : Entry.Tidy (listingAll tree')) :
    FileNode.Kept skipped tree' x ↔ FileNode.Kept skipped tree x :=
  ⟨h.symm.kept hp' hp ht', h.kept hp hp' ht⟩

lemma exists_directory_of_kept (hp : fs.root.at? p = some (.directory tree)) (ht : Entry.Tidy (listingAll tree))
    (hx : FileNode.Kept skipped tree x) : ∃ es, fs.root.at? (p ++ x.names.dropLast) = some (.directory es) := by
  obtain ⟨node, hplace, _⟩ := exists_at?_of_kept hp ht hx
  rw [← List.dropLast_append_getLast hx.stands.names_ne_nil, ← List.append_assoc] at hplace
  exact directory_of_at? hplace

lemma AgreesOutside.read_kept (h : fs.AgreesOutside (BelowSkipped skipped p) fs')
    (hn : fs.node path = .ok (p, .directory tree)) (hn' : fs'.node path = .ok (p, .directory tree'))
    (ht : Proper tree) (hx : FileNode.Kept skipped tree x)
    (hlink : ¬fs.LinksBelowSkipped skipped p path x.path) :
    fs'.read (Path.join path x.path) = fs.read (Path.join path x.path) := by
  obtain ⟨hlocate, hp⟩ := locate_of_node hn
  have hnames := ht.tidy.isName (FileNode.kept_iff.mp hx)
  have hparts : parts x.path = x.names := parts_relative hx.stands.names_ne_nil hnames
  refine (h.read_entry hlocate (locate_of_node hn').1 ?_ ?_ ?_ hlink).1
  · rw [hparts]
    intro n hn
    have hup : n ≠ ".." := ne_of_mem_of_not_mem hn (ht.no_up x hx.stands)
    simp [isDotted, (hnames n hn).ne_empty, (hnames n hn).ne_dot, hup]
  · rw [hparts]
    exact names_unskipped hx
  · rw [hparts]
    exact exists_directory_of_kept hp ht.tidy hx

end Project

end FileSystem

end CallAtlas
