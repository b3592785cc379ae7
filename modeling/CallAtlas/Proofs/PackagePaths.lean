import CallAtlas.Proofs.Growth
import CallAtlas.Proofs.KeyText
import CallAtlas.Proofs.PathNames

/-! The path of a package is the directory of its units, however the paths of the units are spelled. -/

namespace CallAtlas

namespace Path

/-- A path that leads through some names, with a slash or a backslash between any two. -/
inductive Joins : List String → String → Prop
  | last (n : String) : Joins [n] n
  | step {n mark path : String} {ns : List String} (hmark : mark = "/" ∨ mark = "\\") (h : Joins ns path) :
      Joins (n :: ns) (n ++ mark ++ path)

/-- The path of a unit in the directory that the names `dir` lead to. Dots for the current directory may come
first. -/
def InDirectory (dir : List String) (path : String) : Prop :=
  ∃ dots file, (∀ n ∈ dir ++ [file], IsName n) ∧ Joins (List.replicate dots "." ++ (dir ++ [file])) path

/-- What an import of the packages in a directory says. -/
def ofDirectory : Option String → List String → String
  | none, [] => "."
  | none, dir => relative dir
  | some m, [] => m
  | some m, dir => m ++ "/" ++ relative dir

lemma ofDirectory_none {dir : List String} (h : dir ≠ []) : ofDirectory none dir = relative dir := by
  cases dir with
  | nil => exact absurd rfl h
  | cons => rfl

lemma ofDirectory_some {dir : List String} (h : dir ≠ []) (m : String) :
    ofDirectory (some m) dir = m ++ "/" ++ relative dir := by
  cases dir with
  | nil => exact absurd rfl h
  | cons => rfl

lemma Joins.ne_nil {ns : List String} {path : String} (h : Joins ns path) : ns ≠ [] := by
  cases h <;> exact List.cons_ne_nil _ _

lemma slashed_append (a b : List Char) : slashed (a ++ b) = slashed a ++ slashed b := List.map_append

lemma slashed_of_forall {text : List Char} (h : ∀ c ∈ text, DirTree.isSeparator c = false) :
    slashed text = text := by
  refine (List.map_congr_left fun c hc => ?_).trans (List.map_id _)
  have hne : (c == '\\') = false := (Bool.or_eq_false_iff.mp (h c hc)).2
  rw [hne]
  rfl

lemma Joins.slashed_eq {ns : List String} {path : String} (h : Joins ns path)
    (hns : ∀ n ∈ ns, ∀ c ∈ n.toList, DirTree.isSeparator c = false) :
    slashed path.toList = (relative ns).toList := by
  induction h with
  | last n => simp [relative, slashed_of_forall (hns n List.mem_cons_self)]
  | @step n mark path ns hmark h ih =>
    obtain ⟨hn, hns⟩ := List.forall_mem_cons.mp hns
    have hslash : slashed mark.toList = "/".toList := by
      rcases hmark with rfl | rfl <;> rfl
    simp only [relative_cons h.ne_nil, String.toList_append, slashed_append, slashed_of_forall hn,
      hslash, ih hns]

lemma relative_snoc {p : List String} (h : p ≠ []) (n : String) :
    relative (p ++ [n]) = relative p ++ "/" ++ n := by
  rw [relative, String.intercalate_append_of_ne_nil h (List.cons_ne_nil n []), String.intercalate_singleton,
    relative]

lemma dropHere_of_not_prefix {text : List Char} (h : ¬['.', '/'] <+: text) : dropHere text = text := by
  unfold dropHere
  split
  · exact absurd (by simp) h
  · rfl

lemma slash_notMem {n : String} (h : IsName n) : '/' ∉ n.toList := by
  intro hmem
  cases h.no_separator '/' hmem

lemma exists_relative_cons (n : String) (p : List String) :
    ∃ rest, (relative (n :: p)).toList = n.toList ++ rest := by
  cases p with
  | nil => exact ⟨[], by simp [relative]⟩
  | cons m p =>
    rw [relative_cons (List.cons_ne_nil m p), String.append_assoc, String.toList_append]
    exact ⟨_, rfl⟩

lemma dropHere_relative {n : String} (hn : IsName n) (p : List String) :
    dropHere (relative (n :: p)).toList = (relative (n :: p)).toList := by
  obtain ⟨rest, hrest⟩ := exists_relative_cons n p
  apply dropHere_of_not_prefix
  rw [hrest]
  intro hpre
  match htext : n.toList with
  | [] => exact hn.ne_empty (String.toList_eq_nil_iff.mp htext)
  | [c] =>
    rw [htext] at hpre
    have hc : '.' = c := (List.cons_prefix_cons.mp hpre).1
    refine hn.ne_dot (String.toList_inj.mp ?_)
    rw [htext, ← hc]
    rfl
  | c :: d :: text =>
    rw [htext] at hpre
    have hd : '/' = d := (List.cons_prefix_cons.mp (List.cons_prefix_cons.mp hpre).2).1
    subst hd
    exact slash_notMem hn (by simp [htext])

lemma dropHere_dots {dir : List String} (h : ∀ n ∈ dir, IsName n) (dots : Nat)
    (hne : List.replicate dots "." ++ dir ≠ []) :
    dropHere (relative (List.replicate dots "." ++ dir)).toList = (ofDirectory none dir).toList := by
  induction dots with
  | zero =>
    cases dir with
    | nil => exact absurd rfl hne
    | cons n dir => exact dropHere_relative (h n List.mem_cons_self) dir
  | succ dots ih =>
    rw [List.replicate_succ, List.cons_append]
    by_cases hrest : List.replicate dots "." ++ dir = []
    · obtain ⟨_, rfl⟩ := List.append_eq_nil_iff.mp hrest
      rw [hrest]
      rfl
    · rw [relative_cons hrest, String.toList_append, String.toList_append]
      exact ih hrest

lemma unitDir_of_beforeLast? {path : String} {dir : List Char}
    (h : beforeLast? '/' (slashed path.toList) = some dir) (hne : dir ≠ []) :
    unitDir path = String.ofList (dropHere dir) := by
  rw [unitDir, h]
  cases dir with
  | nil => exact absurd rfl hne
  | cons => rfl

lemma relative_ne_empty {p : List String} (hp : p ≠ []) (h : ∀ n ∈ p, n ≠ "") : (relative p).toList ≠ [] := by
  obtain ⟨n, p, rfl⟩ := List.exists_cons_of_ne_nil hp
  obtain ⟨rest, hrest⟩ := exists_relative_cons n p
  rw [hrest]
  exact List.append_ne_nil_of_left_ne_nil (mt String.toList_eq_nil_iff.mp (h n List.mem_cons_self)) rest

lemma unitDir_eq {dir : List String} {path : String} (h : InDirectory dir path) :
    unitDir path = ofDirectory none dir := by
  obtain ⟨dots, file, hnames, hjoins⟩ := h
  obtain ⟨hdir, hfile⟩ := List.forall_mem_append.mp hnames
  have hfile : IsName file := hfile file List.mem_cons_self
  have htext : slashed path.toList = (relative (List.replicate dots "." ++ dir ++ [file])).toList := by
    rw [List.append_assoc]
    apply hjoins.slashed_eq
    intro n hn
    rcases List.mem_append.mp hn with hn | hn
    · intro c hc
      rw [List.eq_of_mem_replicate hn] at hc
      rw [List.mem_singleton.mp hc]
      rfl
    · exact (hnames n hn).no_separator
  by_cases hparents : List.replicate dots "." ++ dir = []
  · obtain ⟨_, rfl⟩ := List.append_eq_nil_iff.mp hparents
    rw [unitDir, htext, hparents, List.nil_append, relative, String.intercalate_singleton,
      beforeLast?_of_notMem (slash_notMem hfile)]
    rfl
  · have hcut : beforeLast? '/' (slashed path.toList) =
        some (relative (List.replicate dots "." ++ dir)).toList := by
      rw [htext, relative_snoc hparents, String.append_assoc, String.toList_append, String.toList_append]
      exact beforeLast?_append (slash_notMem hfile)
    have hne : ∀ n ∈ List.replicate dots "." ++ dir, n ≠ "" := by
      intro n hn
      rcases List.mem_append.mp hn with hn | hn
      · rw [List.eq_of_mem_replicate hn]
        decide
      · exact (hdir n hn).ne_empty
    rw [unitDir_of_beforeLast? hcut (relative_ne_empty hparents hne), dropHere_dots hdir dots hparents,
      String.ofList_toList]

variable {dir dir' : List String}

lemma relative_ne_dot (hne : dir ≠ []) (h : ∀ n ∈ dir, IsName n) : relative dir ≠ "." := by
  intro hdot
  have hnone : DirTree.components "." = [] := by decide +kernel
  rw [← hdot, components_relative h] at hnone
  exact hne hnone

lemma package_ofDirectory (module : Option String) (h : ∀ n ∈ dir, IsName n) :
    package module (ofDirectory none dir) = ofDirectory module dir := by
  cases module with
  | none => rfl
  | some m =>
    by_cases hdir : dir = []
    · subst hdir
      rfl
    · rw [ofDirectory_none hdir, ofDirectory_some hdir, package, if_neg (relative_ne_dot hdir h)]

lemma ofDirectory_ne_root (module : Option String) (hne : dir ≠ []) (h : ∀ n ∈ dir, IsName n) :
    ofDirectory module dir ≠ ofDirectory module [] := by
  cases module with
  | none => exact ofDirectory_none hne ▸ relative_ne_dot hne h
  | some m =>
    rw [ofDirectory_some hne]
    intro heq
    have hlength := congrArg String.length heq
    simp only [String.length_append, ofDirectory] at hlength
    have hslash : "/".length = 1 := by decide
    omega

lemma ofDirectory_injective (module : Option String) (h : ∀ n ∈ dir, IsName n) (h' : ∀ n ∈ dir', IsName n)
    (heq : ofDirectory module dir = ofDirectory module dir') : dir = dir' := by
  by_cases hdir : dir = []
  · subst hdir
    by_contra hdir'
    exact ofDirectory_ne_root module (Ne.symm hdir') h' heq.symm
  · by_cases hdir' : dir' = []
    · subst hdir'
      exact absurd heq (ofDirectory_ne_root module hdir h)
    · cases module with
      | none =>
        rw [ofDirectory_none hdir, ofDirectory_none hdir'] at heq
        exact relative_injective h h' heq
      | some m =>
        rw [ofDirectory_some hdir, ofDirectory_some hdir', String.append_right_inj] at heq
        exact relative_injective h h' heq

lemma InDirectory.isName {path : String} (h : InDirectory dir path) : ∀ n ∈ dir, IsName n := by
  obtain ⟨_, _, hnames, _⟩ := h
  exact (List.forall_mem_append.mp hnames).1

lemma InDirectory.package_eq {path : String} (h : InDirectory dir path) (module : Option String) :
    package module (unitDir path) = ofDirectory module dir := by
  rw [unitDir_eq h, package_ofDirectory module h.isName]

end Path

lemma Extraction.package_of_ofUnit {path : String} {unit : SourceUnit} {module : Option String} {e : Extraction}
    (h : ofUnit path unit module = some e) : ∃ name, unit.package = some name ∧ name ≠ "" ∧
      e.package = ⟨Path.package module (Path.unitDir path), name⟩ := by
  cases hname : unit.package with
  | none => simp [ofUnit, hname] at h
  | some name =>
    by_cases hempty : name = ""
    · simp [ofUnit, hname, hempty] at h
    · simp only [ofUnit, hname, if_neg hempty, Option.some.injEq] at h
      subst h
      exact ⟨name, rfl, hempty, rfl⟩

def HoldsPackage (inputs : List UnitInput) (dir : List String) (name : String) : Prop :=
  name ≠ "" ∧ ∃ input ∈ inputs, Path.InDirectory dir input.path ∧
    ∃ unit, input.parsed = .ok unit ∧ unit.package = some name

lemma mem_packageKeys_analyze {rootName : String} {module : Option String} {inputs : List UnitInput}
    {k : PackageKey} : k ∈ (analyze rootName module inputs).registry.packageKeys ↔
      k.name ≠ "" ∧ ∃ input ∈ inputs, k.path = Path.package module (Path.unitDir input.path) ∧
        ∃ unit, input.parsed = .ok unit ∧ unit.package = some k.name := by
  rw [CodeModel.registry, analyze_graph, linked_packageKeys, mem_registryOf_packageKeys]
  constructor
  · rintro ⟨u, hu, rfl⟩
    obtain ⟨input, hinput, hpackaged⟩ := List.mem_filterMap.mp hu
    obtain ⟨_, hparsed, _⟩ := UnitInput.of_packaged? hpackaged
    have hextraction :
        Extraction.ofUnit input.path u.unit module = (input.packaged? module).map (·.extraction) :=
      UnitInput.ofUnit_eq hparsed
    rw [hpackaged, Option.map_some] at hextraction
    obtain ⟨name, hname, hne, hkey⟩ := Extraction.package_of_ofUnit hextraction
    obtain ⟨hpath, rfl⟩ := PackageKey.mk.inj hkey
    exact ⟨hne, input, hinput, hpath, u.unit, hparsed, hname⟩
  · rintro ⟨hne, input, hinput, hpath, unit, hparsed, hname⟩
    refine ⟨⟨input.path, k, unit⟩, List.mem_filterMap.mpr ⟨input, hinput, ?_⟩, rfl⟩
    obtain ⟨path, name⟩ := k
    obtain rfl : path = _ := hpath
    simp only [UnitInput.packaged?, hparsed, hname, if_neg hne]

section Directories

variable (rootName : String) (module : Option String) {inputs : List UnitInput} {dir : List String}

lemma mem_packageKeys_iff_holdsPackage (hplaced : ∀ i ∈ inputs, ∃ d, Path.InDirectory d i.path)
    (hdir : ∀ n ∈ dir, IsName n) (name : String) :
    ⟨Path.ofDirectory module dir, name⟩ ∈ (analyze rootName module inputs).registry.packageKeys ↔
      HoldsPackage inputs dir name := by
  rw [mem_packageKeys_analyze]
  refine and_congr_right fun _ => exists_congr fun input =>
    and_congr_right fun hinput => and_congr_left fun _ => ?_
  constructor
  · intro hpath
    obtain ⟨d, hd⟩ := hplaced input hinput
    rw [hd.package_eq] at hpath
    rwa [Path.ofDirectory_injective module hdir hd.isName hpath]
  · intro hd
    exact (hd.package_eq module).symm

lemma exists_importedPackage {k : PackageKey}
    (hk : k ∈ (analyze rootName module inputs).registry.packageKeys) :
    ∃ name, ⟨k.path, name⟩ ∈ (analyze rootName module inputs).registry.packageKeys ∧ ∀ package imports,
      Scope.importedPackage ⟨(analyze rootName module inputs).registry, package, imports⟩ k.path =
        ⟨k.path, name⟩ := by
  have howner : (analyze rootName module inputs).registry.ownerKey? k.path =
      firstAt k.path (analyze rootName module inputs).registry.packageKeys := by
    rw [CodeModel.registry, analyze_graph, linked_ownerKey?, registryOf_ownerKey?, linked_packageKeys]
  cases hfirst : firstAt k.path (analyze rootName module inputs).registry.packageKeys with
  | none => exact absurd rfl (firstAt_eq_none_iff.mp hfirst k hk)
  | some l =>
    obtain ⟨hl, hpath, _⟩ := firstAt_eq_some hfirst
    rw [hfirst] at howner
    obtain ⟨p, hp, rfl⟩ := Option.map_eq_some_iff.mp howner
    refine ⟨p.key.name, hpath ▸ hl, fun package imports => ?_⟩
    simp only [Scope.importedPackage, hp]
    rw [← hpath]

end Directories

theorem package_paths_follow_directories (rootName : String) (module : Option String) :
    (∀ dir path unit name, Path.InDirectory dir path → unit.package = some name → name ≠ "" →
      ∃ e, Extraction.ofUnit path unit module = some e ∧ e.package = ⟨Path.ofDirectory module dir, name⟩) ∧
    (∀ dir dir' path path' unit unit' e e', Path.InDirectory dir path → Path.InDirectory dir' path' →
      Extraction.ofUnit path unit module = some e → Extraction.ofUnit path' unit' module = some e' →
      (e.package = e'.package ↔ dir = dir' ∧ unit.package = unit'.package)) ∧
    ∀ inputs dir, (∀ i ∈ inputs, ∃ d, Path.InDirectory d i.path) → (∀ n ∈ dir, IsName n) →
      let r := (analyze rootName module inputs).registry
      (∀ name, ⟨Path.ofDirectory module dir, name⟩ ∈ r.packageKeys ↔ HoldsPackage inputs dir name) ∧
      ((∃ name, HoldsPackage inputs dir name) → ∃ name, HoldsPackage inputs dir name ∧ ∀ package imports,
        Scope.importedPackage ⟨r, package, imports⟩ (Path.ofDirectory module dir) =
          ⟨Path.ofDirectory module dir, name⟩) := by
  refine ⟨?_, ?_, ?_⟩
  · intro dir path unit name hd hname hne
    cases hextraction : Extraction.ofUnit path unit module with
    | none => simp [Extraction.ofUnit, hname, hne] at hextraction
    | some e =>
      obtain ⟨_, hname', _, hpackage⟩ := Extraction.package_of_ofUnit hextraction
      obtain rfl := Option.some.inj (hname.symm.trans hname')
      exact ⟨e, rfl, by rw [hpackage, hd.package_eq]⟩
  · intro dir dir' path path' unit unit' e e' hd hd' he he'
    obtain ⟨name, hname, _, hpackage⟩ := Extraction.package_of_ofUnit he
    obtain ⟨name', hname', _, hpackage'⟩ := Extraction.package_of_ofUnit he'
    rw [hpackage, hpackage', hname, hname', hd.package_eq, hd'.package_eq, PackageKey.mk.injEq,
      Option.some.injEq]
    refine and_congr_left fun _ => ⟨Path.ofDirectory_injective module hd.isName hd'.isName, ?_⟩
    rintro rfl
    rfl
  · intro inputs dir hplaced hdir r
    have hmem := mem_packageKeys_iff_holdsPackage rootName module hplaced hdir
    refine ⟨hmem, ?_⟩
    rintro ⟨name, hname⟩
    obtain ⟨name', hkey, himported⟩ := exists_importedPackage rootName module ((hmem name).mpr hname)
    exact ⟨name', (hmem name').mp hkey, himported⟩

/-- Units of one directory under different spellings, one at the root and one whose path goes up. -/
def spelledUnits : List UnitInput :=
  [⟨".\\./lib\\util/a.go", .ok ⟨some "util", [], [], 1⟩⟩,
    ⟨"lib/util\\a_test.go", .ok ⟨some "util_test", [], [], 1⟩⟩,
   ⟨"./main.go", .ok ⟨some "main", [], [], 1⟩⟩, ⟨".x\\../b.go", .ok ⟨some "util", [], [], 1⟩⟩]

lemma inDirectory_util : Path.InDirectory ["lib", "util"] ".\\./lib\\util/a.go" := by
  refine ⟨2, "a.go", by decide, ?_⟩
  exact .step (n := ".") (.inr rfl) (.step (n := ".") (.inl rfl) (.step (n := "lib") (.inr rfl)
    (.step (n := "util") (.inl rfl) (.last "a.go"))))

lemma inDirectory_test : Path.InDirectory ["lib", "util"] "lib/util\\a_test.go" := by
  refine ⟨0, "a_test.go", by decide, ?_⟩
  exact .step (n := "lib") (.inl rfl) (.step (n := "util") (.inr rfl) (.last "a_test.go"))

lemma inDirectory_root : Path.InDirectory [] "./main.go" := by
  refine ⟨1, "main.go", by decide, ?_⟩
  exact .step (n := ".") (.inl rfl) (.last "main.go")

lemma inDirectory_up : Path.InDirectory [".x", ".."] ".x\\../b.go" := by
  refine ⟨0, "b.go", by decide, ?_⟩
  exact .step (n := ".x") (.inr rfl) (.step (n := "..") (.inl rfl) (.last "b.go"))

theorem spelledUnits_packages :
    let r := (analyze "repo" (some "m") spelledUnits).registry
    (∃ e, Extraction.ofUnit ".\\./lib\\util/a.go" ⟨some "util", [], [], 1⟩ (some "m") = some e ∧
      e.package = ⟨"m/lib/util", "util"⟩) ∧
    (∃ e, Extraction.ofUnit "./main.go" ⟨some "main", [], [], 1⟩ (some "m") = some e ∧
      e.package = ⟨"m", "main"⟩) ∧
    (∃ e e', Extraction.ofUnit ".\\./lib\\util/a.go" ⟨some "util", [], [], 1⟩ (some "m") = some e ∧
      Extraction.ofUnit ".x\\../b.go" ⟨some "util", [], [], 1⟩ (some "m") = some e' ∧ e.package ≠ e'.package) ∧
    HoldsPackage spelledUnits ["lib", "util"] "util" ∧ ⟨"m/lib/util", "util_test"⟩ ∈ r.packageKeys ∧
    ∃ name, HoldsPackage spelledUnits ["lib", "util"] name ∧ ∀ package imports,
      Scope.importedPackage ⟨r, package, imports⟩ "m/lib/util" = ⟨"m/lib/util", name⟩ := by
  intro r
  obtain ⟨hpath, hsame, himports⟩ := package_paths_follow_directories "repo" (some "m")
  have hplaced : ∀ i ∈ spelledUnits, ∃ d, Path.InDirectory d i.path := by
    simp only [spelledUnits, List.forall_mem_cons, List.not_mem_nil, false_implies, implies_true, and_true]
    exact ⟨⟨_, inDirectory_util⟩, ⟨_, inDirectory_test⟩, ⟨_, inDirectory_root⟩, ⟨_, inDirectory_up⟩⟩
  have hutil : HoldsPackage spelledUnits ["lib", "util"] "util" :=
    ⟨by decide, _, .head _, inDirectory_util, _, rfl, rfl⟩
  have htest : HoldsPackage spelledUnits ["lib", "util"] "util_test" :=
    ⟨by decide, _, .tail _ (.head _), inDirectory_test, _, rfl, rfl⟩
  have hdirectory : Path.ofDirectory (some "m") ["lib", "util"] = "m/lib/util" := by decide +kernel
  obtain ⟨hkeys, himported⟩ := himports spelledUnits ["lib", "util"] hplaced (by decide)
  rw [hdirectory] at hkeys himported
  have hfirst := hpath _ _ ⟨some "util", [], [], 1⟩ "util" inDirectory_util rfl (by decide)
  rw [hdirectory] at hfirst
  refine ⟨hfirst, hpath _ _ ⟨some "main", [], [], 1⟩ "main" inDirectory_root rfl (by decide), ?_, hutil,
    (hkeys "util_test").mpr htest, himported ⟨_, hutil⟩⟩
  obtain ⟨e, he, _⟩ := hfirst
  obtain ⟨e', he', _⟩ := hpath _ _ ⟨some "util", [], [], 1⟩ "util" inDirectory_up rfl (by decide)
  refine ⟨e, e', he, he', fun heq => ?_⟩
  have hdirs := ((hsame _ _ _ _ _ _ e e' inDirectory_util inDirectory_up he he').mp heq).1
  exact absurd hdirs (by decide)

end CallAtlas
