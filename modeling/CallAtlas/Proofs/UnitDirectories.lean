import CallAtlas.Proofs.PackagePaths

/-! What the directory of a unit looks like, for every path. It is empty for one spelling of the root: behind
dots for the current directory, an empty name takes the last dot away. An empty name right before the file leaves
a slash at the end of the directory, and so of the package path. -/

namespace CallAtlas.Path

/-- Dots for the current directory, with a slash behind each. -/
def heres (n : Nat) : List Char := (List.replicate n ['.', '/']).flatten

def AtRoot (n : Nat) (path : String) : Prop :=
  ∃ file, '/' ∉ file ∧ slashed path.toList = heres n ++ file

/-- The path of a unit at the root, with an empty name between the dots and the file. -/
def BehindEmptyName (n : Nat) (path : String) : Prop :=
  ∃ file, '/' ∉ file ∧ slashed path.toList = heres n ++ '/' :: file

/-- An empty name stands right before the file, at the root or elsewhere. -/
def HasEmptyName (path : String) : Prop :=
  ∃ dir file, '/' ∉ file ∧ slashed path.toList = dir ++ '/' :: '/' :: file

lemma heres_succ (n : Nat) : heres (n + 1) = '.' :: '/' :: heres n := rfl

lemma heres_succ_snoc (n : Nat) : heres (n + 1) = heres n ++ ['.', '/'] := by
  rw [heres, List.replicate_succ', List.flatten_append, List.flatten_singleton, heres]

lemma dropHere_heres (n : Nat) (text : List Char) : dropHere (heres n ++ text) = dropHere text := by
  induction n with
  | zero => rfl
  | succ n ih => rw [heres_succ, List.cons_append, List.cons_append, dropHere, ih]

lemma exists_heres (text : List Char) : ∃ n, text = heres n ++ dropHere text := by
  fun_induction dropHere text with
  | case1 rest ih =>
    obtain ⟨n, hn⟩ := ih
    exact ⟨n + 1, by rw [heres_succ, List.cons_append, List.cons_append, ← hn]⟩
  | case2 text => exact ⟨0, rfl⟩

lemma not_prefix_dropHere (text : List Char) : ¬['.', '/'] <+: dropHere text := by
  fun_induction dropHere text with
  | case1 rest ih => exact ih
  | case2 text h =>
    rintro ⟨rest, he⟩
    exact h rest he.symm

lemma dropHere_eq_iff {text rest : List Char} (hrest : ¬['.', '/'] <+: rest) :
    dropHere text = rest ↔ ∃ n, text = heres n ++ rest := by
  constructor
  · rintro rfl
    exact exists_heres text
  · rintro ⟨n, rfl⟩
    rw [dropHere_heres, dropHere_of_not_prefix hrest]

lemma backslash_notMem_slashed (text : List Char) : '\\' ∉ slashed text := by
  intro hmem
  obtain ⟨c, _, hc⟩ := List.mem_map.mp hmem
  split at hc
  next => cases hc
  next h => exact h (beq_iff_eq.mpr hc)

lemma dropHere_suffix (text : List Char) : dropHere text <:+ text := by
  obtain ⟨n, hn⟩ := exists_heres text
  exact ⟨heres n, hn.symm⟩

section Cut

variable {path : String} {dir file : List Char} {n : Nat}

lemma unitDir_of_cut (hfile : '/' ∉ file) (h : slashed path.toList = dir ++ '/' :: file) (hne : dir ≠ []) :
    unitDir path = String.ofList (dropHere dir) :=
  unitDir_of_beforeLast? (h ▸ beforeLast?_append hfile) hne

/-- A path has no slash, its only slash stands first, or something stands before its last slash. -/
lemma unitDir_cases (path : String) :
    '/' ∉ slashed path.toList ∧ unitDir path = "." ∨
    BehindEmptyName 0 path ∧ unitDir path = "." ∨
    ∃ dir file, dir ≠ [] ∧ '/' ∉ file ∧ slashed path.toList = dir ++ '/' :: file ∧
      unitDir path = String.ofList (dropHere dir) := by
  by_cases hslash : '/' ∈ slashed path.toList
  · obtain ⟨dir, file, h, hfile⟩ := exists_eq_append_of_mem hslash
    by_cases hdir : dir = []
    · subst hdir
      exact Or.inr (Or.inl ⟨⟨file, hfile, h⟩, by rw [unitDir, h, beforeLast?_append hfile]⟩)
    · exact Or.inr (Or.inr ⟨dir, file, hdir, hfile, h, unitDir_of_cut hfile h hdir⟩)
  · exact Or.inl ⟨hslash, by rw [unitDir, beforeLast?_of_notMem hslash]⟩

lemma slash_mem_of_behindEmptyName (h : BehindEmptyName n path) : '/' ∈ slashed path.toList := by
  obtain ⟨file, _, h⟩ := h
  simp [h]

lemma cut_unique {dir' file' : List Char} (hfile : '/' ∉ file) (hfile' : '/' ∉ file')
    (h : dir ++ '/' :: file = dir' ++ '/' :: file') : dir = dir' := by
  have hcut := beforeLast?_append (a := dir) hfile
  rw [h, beforeLast?_append hfile'] at hcut
  exact (Option.some.inj hcut).symm

lemma behindEmptyName_iff (hfile : '/' ∉ file) (h : slashed path.toList = dir ++ '/' :: file) :
    BehindEmptyName n path ↔ dir = heres n := by
  constructor
  · rintro ⟨file', hfile', h'⟩
    exact cut_unique hfile hfile' (h.symm.trans h')
  · rintro rfl
    exact ⟨file, hfile, h⟩

lemma atRoot_iff (hfile : '/' ∉ file) (h : slashed path.toList = dir ++ '/' :: file) :
    (∃ n, AtRoot n path) ↔ ∃ n, dir = heres n ++ ['.'] := by
  constructor
  · rintro ⟨n, file', hfile', h'⟩
    cases n with
    | zero =>
      have hwhole : file' = dir ++ '/' :: file := h'.symm.trans h
      exact absurd (by simp [hwhole]) hfile'
    | succ n =>
      refine ⟨n, cut_unique hfile hfile' (h.symm.trans (h'.trans ?_))⟩
      rw [heres_succ_snoc, List.append_assoc, List.append_assoc]
      rfl
  · rintro ⟨n, rfl⟩
    refine ⟨n + 1, file, hfile, ?_⟩
    rw [h, heres_succ_snoc, List.append_assoc, List.append_assoc]
    rfl

lemma hasEmptyName_iff (hfile : '/' ∉ file) (h : slashed path.toList = dir ++ '/' :: file) :
    HasEmptyName path ↔ ['/'] <:+ dir := by
  constructor
  · rintro ⟨dir', file', hfile', h'⟩
    rw [List.append_cons] at h'
    exact ⟨dir', cut_unique hfile' hfile (h'.symm.trans h)⟩
  · rintro ⟨dir', rfl⟩
    exact ⟨dir', file, hfile, by rw [h, List.append_assoc]; rfl⟩

lemma backslash_notMem_unitDir (path : String) : '\\' ∉ (unitDir path).toList := by
  obtain ⟨_, hdot⟩ | ⟨_, hdot⟩ | ⟨dir, file, _, _, h, hdir⟩ := unitDir_cases path
  · rw [hdot]
    decide
  · rw [hdot]
    decide
  · rw [hdir, String.toList_ofList]
    intro hmem
    refine backslash_notMem_slashed path.toList ?_
    rw [h]
    exact List.mem_append_left _ ((dropHere_suffix dir).subset hmem)

lemma not_prefix_unitDir (path : String) : ¬['.', '/'] <+: (unitDir path).toList := by
  obtain ⟨_, hdot⟩ | ⟨_, hdot⟩ | ⟨dir, _, _, _, _, hdir⟩ := unitDir_cases path
  · rw [hdot]
    decide
  · rw [hdot]
    decide
  · rw [hdir, String.toList_ofList]
    exact not_prefix_dropHere dir

lemma unitDir_eq_empty_iff : unitDir path = "" ↔ ∃ n, BehindEmptyName (n + 1) path := by
  have hne : "." ≠ "" := by decide
  obtain ⟨hslash, hdot⟩ | ⟨⟨file, hfile, h⟩, hdot⟩ | ⟨dir, file, hne', hfile, h, hdir⟩ := unitDir_cases path
  · rw [hdot]
    refine iff_of_false hne ?_
    rintro ⟨n, hbehind⟩
    exact hslash (slash_mem_of_behindEmptyName hbehind)
  · rw [hdot]
    refine iff_of_false hne ?_
    rintro ⟨n, hbehind⟩
    have hheres : [] = heres (n + 1) := (behindEmptyName_iff hfile h).mp hbehind
    cases hheres
  · have hempty : unitDir path = "" ↔ ∃ n, dir = heres n := by
      rw [hdir, String.ofList_eq_empty_iff, dropHere_eq_iff (by simp)]
      simp only [List.append_nil]
    simp only [hempty, behindEmptyName_iff hfile h]
    constructor
    · rintro ⟨_ | n, hn⟩
      · exact absurd hn hne'
      · exact ⟨n, hn⟩
    · rintro ⟨n, hn⟩
      exact ⟨n + 1, hn⟩

lemma unitDir_eq_dot_iff : unitDir path = "." ↔ (∃ n, AtRoot n path) ∨ BehindEmptyName 0 path := by
  obtain ⟨hslash, hdot⟩ | ⟨hbehind, hdot⟩ | ⟨dir, file, hne, hfile, h, hdir⟩ := unitDir_cases path
  · exact iff_of_true hdot (Or.inl ⟨0, _, hslash, rfl⟩)
  · exact iff_of_true hdot (Or.inr hbehind)
  · have hbehind : ¬BehindEmptyName 0 path := mt (behindEmptyName_iff hfile h).mp hne
    have hdot : ¬['.', '/'] <+: ['.'] := by decide
    rw [or_iff_left hbehind, atRoot_iff hfile h, ← dropHere_eq_iff hdot, hdir, ← String.toList_inj,
      String.toList_ofList]
    rfl

lemma slash_suffix_dropHere_iff : ['/'] <:+ dropHere dir ↔ ['/'] <:+ dir ∧ dropHere dir ≠ [] := by
  constructor
  · intro h
    refine ⟨h.trans (dropHere_suffix dir), ?_⟩
    intro hempty
    rw [hempty] at h
    cases List.suffix_nil.mp h
  · rintro ⟨h, hne⟩
    exact List.suffix_of_suffix_length_le h (dropHere_suffix dir) (List.length_pos_iff.mpr hne)

lemma slash_suffix_unitDir_iff :
    ['/'] <:+ (unitDir path).toList ↔ HasEmptyName path ∧ ¬∃ n, BehindEmptyName (n + 1) path := by
  have hdot' : ¬['/'] <:+ ".".toList := by decide
  rw [← unitDir_eq_empty_iff]
  obtain ⟨hslash, hdot⟩ | ⟨⟨file, hfile, h⟩, hdot⟩ | ⟨dir, file, _, hfile, h, hdir⟩ := unitDir_cases path
  · rw [hdot]
    refine iff_of_false hdot' ?_
    rintro ⟨⟨dir, file, _, h⟩, _⟩
    exact hslash (by simp [h])
  · rw [hdot, hasEmptyName_iff hfile h]
    exact iff_of_false hdot' fun hempty => by cases List.suffix_nil.mp hempty.1
  · rw [hasEmptyName_iff hfile h, hdir, String.toList_ofList, String.ofList_eq_empty_iff]
    exact slash_suffix_dropHere_iff

lemma hasEmptyName_iff_unitDir : HasEmptyName path ↔ unitDir path = "" ∨ ['/'] <:+ (unitDir path).toList := by
  rw [slash_suffix_unitDir_iff, unitDir_eq_empty_iff]
  constructor
  · intro h
    by_cases hbehind : ∃ n, BehindEmptyName (n + 1) path
    · exact Or.inl hbehind
    · exact Or.inr ⟨h, hbehind⟩
  · rintro (⟨n, file, hfile, h⟩ | h)
    · refine ⟨heres n ++ ['.'], file, hfile, ?_⟩
      rw [h, heres_succ_snoc, List.append_assoc, List.append_assoc]
      rfl
    · exact h.1

lemma unitDir_here_iff : unitDir ("./" ++ path) = unitDir path ↔ ¬BehindEmptyName 0 path := by
  have hhere : slashed ("./" ++ path).toList = '.' :: '/' :: slashed path.toList := by
    rw [String.toList_append, slashed_append]
    rfl
  obtain ⟨hslash, hdot⟩ | ⟨⟨file, hfile, h⟩, hdot⟩ | ⟨dir, file, hne, hfile, h, hdir⟩ := unitDir_cases path
  · have hbehind : slashed ("./" ++ path).toList = ['.'] ++ '/' :: slashed path.toList := hhere
    refine iff_of_true ?_ (mt slash_mem_of_behindEmptyName hslash)
    rw [hdot, unitDir_of_cut hslash hbehind (by simp)]
    rfl
  · have hbehind : slashed ("./" ++ path).toList = ['.', '/'] ++ '/' :: file := by
      rw [hhere, h]
      rfl
    refine iff_of_false ?_ (not_not.mpr ⟨file, hfile, h⟩)
    rw [hdot, unitDir_of_cut hfile hbehind (by simp)]
    decide
  · have hbehind : slashed ("./" ++ path).toList = '.' :: '/' :: dir ++ '/' :: file := by
      rw [hhere, h]
      rfl
    refine iff_of_true ?_ (mt (behindEmptyName_iff hfile h).mp hne)
    rw [hdir, unitDir_of_cut hfile hbehind (by simp), dropHere]

end Cut

lemma package_eq_trailing_iff (module : Option String) (dir : String) :
    package module dir = module.elim "" (· ++ "/") ↔ dir = "" := by
  cases module with
  | none => rfl
  | some m =>
    by_cases hdot : dir = "."
    · subst hdot
      refine iff_of_false ?_ (by decide)
      intro h
      have hlength : m.length = m.length + "/".length := by
        rw [← String.length_append]
        exact congrArg String.length h
      have hslash : "/".length = 1 := by decide
      omega
    · simp [package, hdot]

lemma slash_suffix_package_iff (m dir : String) : ['/'] <:+ (package (some m) dir).toList ↔
    if dir = "." then ['/'] <:+ m.toList else dir = "" ∨ ['/'] <:+ dir.toList := by
  by_cases hdot : dir = "."
  · simp [package, hdot]
  · have htext : (package (some m) dir).toList = m.toList ++ ['/'] ++ dir.toList := by simp [package, hdot]
    rw [if_neg hdot, htext]
    constructor
    · intro h
      by_cases hempty : dir = ""
      · exact Or.inl hempty
      · have hlength := List.length_pos_iff.mpr (mt String.toList_eq_nil_iff.mp hempty)
        exact Or.inr (List.suffix_of_suffix_length_le h (List.suffix_append _ _) hlength)
    · rintro (rfl | h)
      · simp
      · exact h.trans (List.suffix_append _ _)

theorem unit_directories_are_normal_iff (path : String) :
    '\\' ∉ (unitDir path).toList ∧ ¬['.', '/'] <+: (unitDir path).toList ∧
    (unitDir path = "" ↔ ∃ n, BehindEmptyName (n + 1) path) ∧
    (unitDir path = "." ↔ (∃ n, AtRoot n path) ∨ BehindEmptyName 0 path) ∧
    (unitDir ("./" ++ path) = unitDir path ↔ ¬BehindEmptyName 0 path) ∧
    (∀ module, package module (unitDir path) = module.elim "" (· ++ "/") ↔ ∃ n, BehindEmptyName (n + 1) path) ∧
    (['/'] <:+ (package none (unitDir path)).toList ↔
      HasEmptyName path ∧ ¬∃ n, BehindEmptyName (n + 1) path) ∧
    ∀ m, ['/'] <:+ (package (some m) (unitDir path)).toList ↔
      HasEmptyName path ∨ unitDir path = "." ∧ ['/'] <:+ m.toList := by
  refine ⟨backslash_notMem_unitDir path, not_prefix_unitDir path, unitDir_eq_empty_iff, unitDir_eq_dot_iff,
    unitDir_here_iff, fun module => ?_, slash_suffix_unitDir_iff, fun m => ?_⟩
  · rw [package_eq_trailing_iff, unitDir_eq_empty_iff]
  · rw [slash_suffix_package_iff, hasEmptyName_iff_unitDir]
    by_cases hdot : unitDir path = "."
    · have hempty : ¬(unitDir path = "" ∨ ['/'] <:+ (unitDir path).toList) := by
        rw [hdot]
        decide
      rw [if_pos hdot, or_iff_right hempty, and_iff_right hdot]
    · rw [if_neg hdot]
      exact (or_iff_left fun h => hdot h.1).symm

theorem empty_name_hides_root :
    ¬∀ path, unitDir path ≠ "" ∧ '\\' ∉ (unitDir path).toList ∧ ¬['.', '/'] <+: (unitDir path).toList ∧
      unitDir ("./" ++ path) = unitDir path := by
  intro h
  have hempty : unitDir ".//x.go" = "" := by decide +kernel
  exact (h ".//x.go").1 hempty

end CallAtlas.Path
