import CallAtlas.Proofs.ByteOrder
import CallAtlas.Proofs.SkippedPlaces
import Mathlib.Data.Set.Card

/-! A scan lists the Go files of a project, counts its entries and draws its tree, and all three are about the
same entries: those that no skipped directory holds. What a skipped directory holds can be read through links. -/

namespace CallAtlas

open Entry

variable {skipped : List String} {es : List Entry}

lemma length_eq_ncard {α : Type} [DecidableEq α] {l : List α} {p : α → Prop} (hn : l.Nodup)
    (h : ∀ a, a ∈ l ↔ p a) : l.length = {a | p a}.ncard := by
  have hset : {a | p a} = (l.toFinset : Set α) := by
    ext a
    simp [h]
  rw [hset, Set.ncard_coe_finset, List.toFinset_card_of_nodup hn]

lemma Found.ofLocation_root (x : Location) : ofLocation "" x = ⟨x.path, x.isDir⟩ := by
  simp [ofLocation]

lemma Entry.Tidy.byteOrder (h : Tidy es) : (visited skipped es).Pairwise
    (fun x y => x.names.map Text.bytes < y.names.map Text.bytes) :=
  (List.pairwise_map.mp (h.increasing skipped)).imp fun hlt => List.map_lt (fun _ _ => Text.bytes_lt) hlt

lemma Entry.Tidy.path_injective (h : Tidy es) {x y : Location} (hx : Kept skipped es x)
    (hy : Kept skipped es y) (hp : x.path = y.path) : x.names = y.names :=
  Path.relative_injective (h.isName hx) (h.isName hy) hp

lemma countP_all (h : Tidy es) (q : Found → Bool) : (Found.all skipped es).countP q =
    {x : Location | Kept skipped es x ∧ q ⟨x.path, x.isDir⟩ = true}.ncard := by
  rw [Found.all_eq, List.countP_map, List.countP_eq_length_filter]
  apply length_eq_ncard ((h.nodup_visited skipped).filter _)
  intro x
  rw [List.mem_filter, mem_visited, Function.comp_apply, Found.ofLocation_root]

lemma Text.endsWith_iff {text ending : String} :
    endsWith text ending = true ↔ ending.toList <:+ text.toList :=
  List.isSuffixOf_iff_suffix

lemma endsWith_go_of_isTestPath {path : String} (h : isTestPath path = true) :
    Text.endsWith path ".go" = true :=
  Text.endsWith_iff.mpr (List.IsSuffix.trans (by decide) (Text.endsWith_iff.mp h))

lemma Found.isTest_eq (f : Found) : f.isTest = (isTestPath f.path && f.isGo) := by
  cases h : isTestPath f.path with
  | false => simp [isTest, h]
  | true => simp [isTest, isGo, h, endsWith_go_of_isTestPath h]

namespace Census

lemma totalFiles_eq (found : List Found) :
    (ofFound found).totalFiles = (ofFound found).goFiles + (ofFound found).nonGoFiles := by
  simp only [ofFound]
  rw [List.countP_eq_countP_filter_add found _ Found.isGo, List.countP_filter, List.countP_filter]
  congr 2
  funext f
  cases hd : f.isDir <;> simp [Found.isGo, hd]

lemma entries_eq (found : List Found) :
    (ofFound found).directories + (ofFound found).totalFiles = found.length := by
  simpa [ofFound] using (List.length_eq_countP_add_countP Found.isDir (l := found)).symm

lemma testFiles_le (found : List Found) : (ofFound found).testFiles ≤ (ofFound found).goFiles := by
  apply List.countP_mono_left
  intro f _ htest
  rw [Found.isTest_eq, Bool.and_eq_true] at htest
  exact htest.2

end Census

lemma DirTree.ofFound_eq (h : Tidy es) (rootName : String) : ofFound rootName (Found.all skipped es) =
    ((visited skipped es).foldl (fun t x => insertAt x.isDir x.names t) (root rootName)).sort := by
  rw [ofFound, Found.all_eq, List.foldl_map]
  congr 1
  apply List.foldl_ext
  intro t x hx
  rw [insert, Found.ofLocation_root, Location.path, Path.components_relative (h.isName (mem_visited.mp hx))]

lemma DirTree.ofFound_root (rootName : String) (found : List Found) :
    (ofFound rootName found).name = rootName ∧ (ofFound rootName found).isDir = true := by
  rw [ofFound, sort_name, sort_isDir]
  induction found using List.reverseRecOn with
  | nil => exact ⟨rfl, rfl⟩
  | append_singleton found f ih => simpa [insert] using ih

lemma nodes_ofFound (skipped : List String) (h : Tidy es) (rootName : String) :
    (DirTree.ofFound rootName (Found.all skipped es)).nodes.Perm (visited skipped es) := by
  rw [DirTree.ofFound_eq h]
  exact (DirTree.nodes_sort _).trans
    (DirTree.nodes_foldl_insertAt rootName (closed_visited skipped es) (h.increasing skipped))

/-- Files in memory that nothing changes. -/
def FileSystem.still (fs : FileSystem) : Disk Id where
  isFile path := fs.isFile path
  read path := fs.read path
  list? path := fs.list? path
  write path text := (fs.write path text).map fun _ => ()

namespace Project

lemma sourcePaths_eq (includesTests : Bool) (es : List Entry) :
    sourcePaths includesTests (Found.all skipped es) = ((visited skipped es).filter fun x =>
      !x.isDir && Text.endsWith x.path ".go" && (includesTests || !Text.endsWith x.path "_test.go")).map
        (·.path) := by
  have hpath : Found.path ∘ Found.ofLocation "" = Location.path := by
    funext x
    rw [Function.comp_apply, Found.ofLocation_root]
  rw [sourcePaths, Found.all_eq, List.filter_map, List.map_map, hpath]
  congr 2
  funext x
  cases hd : x.isDir <;> simp [Found.ofLocation_root, Found.isGo, Found.isTest, isTestPath, hd]

lemma sourcePaths_nodup (h : Tidy es) (includesTests : Bool) :
    (sourcePaths includesTests (Found.all skipped es)).Nodup := by
  rw [sourcePaths_eq]
  refine List.Nodup.map_on ?_ ((h.nodup_visited skipped).filter _)
  intro x hx y hy hpath
  obtain ⟨hx, hfile⟩ := List.mem_filter.mp hx
  obtain ⟨hy, hfile'⟩ := List.mem_filter.mp hy
  have hnames := h.path_injective (mem_visited.mp hx) (mem_visited.mp hy) hpath
  simp only [Bool.and_eq_true, Bool.not_eq_eq_eq_not, Bool.not_true] at hfile hfile'
  exact Location.ext hnames (hfile.1.1.trans hfile'.1.1.symm)

def Scan.ofListing (disk : Disk Id) (settings : Settings) (path : String) (listing : Listing)
    (module : Option String) : Scan :=
  let found := Found.all settings.skippedDirs listing.entries
  let rootName := listing.name.getD path
  { rootName := rootName
    census := .ofFound found
    sources :=
      (sourcePaths settings.includesTests found).map fun p => ⟨p, (disk.read (Path.join path p)).run⟩
    tree := .ofFound rootName found
    module := module }

lemma paths_ofListing (disk : Disk Id) (settings : Settings) (path : String) (listing : Listing)
    (module : Option String) : (Scan.ofListing disk settings path listing module).sources.map (·.path) =
      sourcePaths settings.includesTests (Found.all settings.skippedDirs listing.entries) := by
  simp [Scan.ofListing, Function.comp_def]

lemma mapM_sources (disk : Disk Id) (path : String) (ps : List String) :
    (ps.mapM (m := ExceptT RunError Id) fun p => do
      return SourceText.mk p (← disk.read (Path.join path p))) =
    pure (ps.map fun p => ⟨p, (disk.read (Path.join path p)).run⟩) := by
  induction ps with
  | nil => rfl
  | cons p ps ih =>
    rw [List.mapM_cons, ih]
    rfl

lemma scan_eq (disk : Disk Id) (settings : Settings) (path : String) :
    (scan disk settings path).run.run =
      match (disk.list? path).run with
      | none => .error (.notDirectory path)
      | some listing =>
        (readModule disk path).run.run.map (Scan.ofListing disk settings path listing) := by
  change (match (disk.list? path).run with
    | none => throw (.notDirectory path)
    | some listing => do
      let sources ← (sourcePaths settings.includesTests
          (Found.all settings.skippedDirs listing.entries)).mapM fun p => do
        return SourceText.mk p (← disk.read (Path.join path p))
      let module ← readModule disk path
      return { Scan.ofListing disk settings path listing module with sources := sources } :
      ExceptT RunError Id Scan).run.run = _
  cases (disk.list? path).run with
  | none => rfl
  | some listing =>
    simp only [mapM_sources, pure_bind]
    rw [bind_pure_comp, ExceptT.run_map]
    rfl

lemma scan_of_list {disk : Disk Id} {path : String} {listing : Listing} (settings : Settings)
    (hl : (disk.list? path).run = some listing) : (scan disk settings path).run.run =
      (readModule disk path).run.run.map (Scan.ofListing disk settings path listing) := by
  rw [scan_eq, hl]

lemma ofListing_of_scan {disk : Disk Id} {settings : Settings} {path : String} {s : Scan}
    (hs : (scan disk settings path).run.run = .ok s) : ∃ listing module,
      (disk.list? path).run = some listing ∧ Scan.ofListing disk settings path listing module = s := by
  rw [scan_eq] at hs
  cases hl : (disk.list? path).run with
  | none =>
    rw [hl] at hs
    cases hs
  | some listing =>
    rw [hl] at hs
    cases hm : (readModule disk path).run.run with
    | error e =>
      simp only [hm] at hs
      cases hs
    | ok module =>
      simp only [hm] at hs
      exact ⟨listing, module, rfl, Except.ok.inj hs⟩

section Skipped

variable {fs fs' : FileSystem} {settings : Settings} {path : String} {p : List String}
  {tree tree' : List (String × FileNode)}

lemma found_congr (hk : ∀ x, FileNode.Kept skipped tree' x ↔ FileNode.Kept skipped tree x)
    (ht : Tidy (FileNode.listingAll tree)) (ht' : Tidy (FileNode.listingAll tree')) :
    Found.all skipped (FileNode.listingAll tree') = Found.all skipped (FileNode.listingAll tree) := by
  rw [Found.all_eq, Found.all_eq, visited_congr ht' ht]
  intro x
  rw [← FileNode.kept_iff, ← FileNode.kept_iff, hk]

lemma list?_still (hn : fs.node path = .ok (p, .directory tree)) :
    (fs.still.list? path).run = some ⟨p.getLast?, FileNode.listingAll tree⟩ := by
  change fs.list? path = _
  rw [FileSystem.list?, hn]

lemma parts_goMod : FileSystem.parts "go.mod" = ["go.mod"] := by decide +kernel

/-- The file of the module stands in the project itself. -/
lemma readModule_eq (h : fs.AgreesOutside (FileSystem.BelowSkipped skipped p) fs')
    (hn : fs.node path = .ok (p, .directory tree)) (hn' : fs'.node path = .ok (p, .directory tree'))
    (hlink : ¬fs.LinksBelowSkipped skipped p path "go.mod") :
    readModule fs'.still path = readModule fs.still path := by
  obtain ⟨hlocate, hp⟩ := FileSystem.locate_of_node hn
  obtain ⟨hread, hisFile⟩ : fs'.still.read (Path.join path "go.mod") = fs.still.read (Path.join path "go.mod") ∧
      fs'.still.isFile (Path.join path "go.mod") = fs.still.isFile (Path.join path "go.mod") := by
    refine h.read_entry hlocate (FileSystem.locate_of_node hn').1 ?_ ?_ ?_ hlink
    · rw [parts_goMod]
      decide
    · rw [parts_goMod]
      simp
    · rw [parts_goMod]
      exact ⟨tree, by simpa using hp⟩
  rw [readModule, readModule, hread, hisFile]

lemma scan_congr {s s' : Scan} (h : fs.AgreesOutside (FileSystem.BelowSkipped settings.skippedDirs p) fs')
    (hn : fs.node path = .ok (p, .directory tree)) (hn' : fs'.node path = .ok (p, .directory tree'))
    (ht : FileNode.Proper tree) (ht' : FileNode.Proper tree')
    (hs : (scan fs.still settings path).run.run = .ok s)
    (hs' : (scan fs'.still settings path).run.run = .ok s') :
    s'.rootName = s.rootName ∧ s'.census = s.census ∧ s'.tree = s.tree ∧
      s'.sources.map (·.path) = s.sources.map (·.path) ∧
      ∀ x ∈ s.sources, ¬fs.LinksBelowSkipped settings.skippedDirs p path x.path → x ∈ s'.sources := by
  have hp := (FileSystem.locate_of_node hn).2
  have hp' := (FileSystem.locate_of_node hn').2
  have hfound : Found.all settings.skippedDirs (FileNode.listingAll tree') =
      Found.all settings.skippedDirs (FileNode.listingAll tree) :=
    found_congr (fun x => h.kept_iff hp hp' ht.tidy ht'.tidy) ht.tidy ht'.tidy
  obtain ⟨_, module, hl, rfl⟩ := ofListing_of_scan hs
  obtain ⟨_, module', hl', rfl⟩ := ofListing_of_scan hs'
  obtain rfl := Option.some.inj ((list?_still hn).symm.trans hl)
  obtain rfl := Option.some.inj ((list?_still hn').symm.trans hl')
  simp only [Scan.ofListing, hfound, List.map_map, true_and]
  refine ⟨rfl, ?_⟩
  intro x hx hlink
  obtain ⟨r, hr, rfl⟩ := List.mem_map.mp hx
  refine List.mem_map.mpr ⟨r, hr, ?_⟩
  rw [sourcePaths_eq, List.mem_map] at hr
  obtain ⟨y, hy, rfl⟩ := hr
  have hkept := FileNode.kept_iff.mpr (mem_visited.mp (List.mem_of_mem_filter hy))
  have hread : fs'.still.read (Path.join path y.path) = fs.still.read (Path.join path y.path) :=
    h.read_kept hn hn' ht hkept hlink
  rw [hread]

lemma exists_scan {s : Scan} (h : fs.AgreesOutside (FileSystem.BelowSkipped settings.skippedDirs p) fs')
    (hn : fs.node path = .ok (p, .directory tree)) (hn' : fs'.node path = .ok (p, .directory tree'))
    (hs : (scan fs.still settings path).run.run = .ok s)
    (hlink : ¬fs.LinksBelowSkipped settings.skippedDirs p path "go.mod") :
    ∃ s', (scan fs'.still settings path).run.run = .ok s' ∧ s'.module = s.module := by
  rw [scan_of_list settings (list?_still hn)] at hs
  rw [scan_of_list settings (list?_still hn'), readModule_eq h hn hn' hlink]
  cases hm : (readModule fs.still path).run.run with
  | error e =>
    rw [hm] at hs
    cases hs
  | ok module =>
    rw [hm] at hs
    obtain rfl := Except.ok.inj hs
    exact ⟨_, rfl, rfl⟩

end Skipped

/-- In `vendor` stand a file and a link to it, beside it entries whose names mislead. One link leads into
`vendor`, another only through it. -/
def vendoring (lib : String) : List (String × FileNode) :=
  [("vendor", .directory [("lib.go", .file lib.toUTF8), ("a", .directory [("b.go", .link "../lib.go")])]),
   ("main.go", .file "package main".toUTF8),
   ("same.go", .link "vendor/../main.go"),
   ("d.go", .directory [("vendor", .file .empty), ("lib.go", .link "../vendor/lib.go"),
     ("x_test.go", .file .empty)]),
   ("all", .link "."),
   ("sub", .directory [("vendor", .directory [("y.go", .file .empty)])])]

def vendoringFiles (lib : String) : FileSystem := ⟨.directory [("p", .directory (vendoring lib))], []⟩

section Vendoring

variable (lib : String)

lemma proper_vendoring : FileNode.Proper (vendoring lib) := by
  constructor
  · constructor
    · simp only [vendoring, FileNode.listingAll, FileNode.listing]
      decide
    · simp only [vendoring, FileNode.listingAll, FileNode.listing, List.forall_mem_cons, wellNamed_file,
        wellNamed_directory]
      simp only [List.not_mem_nil, false_implies, implies_true, and_true]
      decide
  · simp only [FileNode.holds_iff_mem_locationsIn, vendoring, FileNode.listingAll, FileNode.listing]
    decide +kernel

lemma node_vendoring : (vendoringFiles lib).node "p" = .ok (["p"], .directory (vendoring lib)) := by
  have hparts : FileSystem.parts "p" = ["p"] := by decide +kernel
  have hlocate : (vendoringFiles lib).locate "p" = .ok (.found ["p"]) := by
    simp [vendoringFiles, FileSystem.locate, hparts, FileSystem.follow, FileNode.at?, FileNode.child?,
      FileNode.entries]
  rw [FileSystem.node_of_found hlocate]
  rfl

lemma vendoring_has_no_module : (readModule (vendoringFiles lib).still "p").run.run = .ok none := by
  have hjoin : Path.join "p" "go.mod" = "p/go.mod" := by decide +kernel
  have hparts : FileSystem.parts "p/go.mod" = ["p", "go.mod"] := by decide +kernel
  have hlocate : (vendoringFiles lib).locate "p/go.mod" = .ok (.vacant ["p"] "go.mod") := by
    simp [vendoringFiles, vendoring, FileSystem.locate, hparts, FileSystem.follow, FileNode.at?,
      FileNode.child?, FileNode.entries]
  have hisFile : (vendoringFiles lib).still.isFile (Path.join "p" "go.mod") = false := by
    change (vendoringFiles lib).isFile _ = false
    rw [hjoin, FileSystem.isFile, FileSystem.node, hlocate]
    rfl
  rw [readModule, hisFile]
  rfl

def vendoringScan (settings : Settings) : Scan :=
  .ofListing (vendoringFiles lib).still settings "p" ⟨some "p", FileNode.listingAll (vendoring lib)⟩ none

lemma scan_vendoring (settings : Settings) :
    (scan (vendoringFiles lib).still settings "p").run.run = .ok (vendoringScan lib settings) := by
  rw [scan_of_list settings (list?_still (node_vendoring lib)), vendoring_has_no_module]
  rfl

lemma at?_of_ne {m n : String} (hne : m ≠ n) (node : FileNode) (es : List (String × FileNode))
    (q : List String) :
    (FileNode.directory ((m, node) :: es)).at? (n :: q) = (FileNode.directory es).at? (n :: q) := by
  simp [FileNode.at?, FileNode.child?, FileNode.entries, hne]

lemma vendoring_agrees (lib' : String) : (vendoringFiles lib).AgreesOutside
    (FileSystem.BelowSkipped [".git", "vendor"] ["p"]) (vendoringFiles lib') := by
  refine ⟨rfl, fun q hq => ?_⟩
  match q with
  | [] => trivial
  | a :: q =>
    by_cases ha : "p" = a
    · subst ha
      match q with
      | [] => trivial
      | n :: q =>
        by_cases hn : "vendor" = n
        · subst hn
          match q with
          | [] => trivial
          | m :: q => exact absurd ⟨[], "vendor", m :: q, rfl, by decide, List.cons_ne_nil m q⟩ hq
        · change FileNode.Alike ((FileNode.directory (vendoring lib)).at? (n :: q))
            ((FileNode.directory (vendoring lib')).at? (n :: q))
          rw [vendoring, vendoring, at?_of_ne hn, at?_of_ne hn]
          exact .refl _
    · rw [vendoringFiles, vendoringFiles, at?_of_ne ha, at?_of_ne ha]
      exact .refl _

lemma trail_same : (vendoringFiles lib).trail 40 [] (FileSystem.parts (Path.join "p" "same.go")) =
    [[], ["p"], ["p"], ["p", "same.go"], ["p"], ["p", "vendor"], ["p", "vendor"], ["p"], ["p", "main.go"],
      ["p", "main.go"]] := by
  have hparts : FileSystem.parts (Path.join "p" "same.go") = ["p", "same.go"] := by decide +kernel
  have htarget : FileSystem.parts "vendor/../main.go" = ["vendor", "..", "main.go"] := by decide +kernel
  simp [hparts, htarget, FileSystem.trail, FileSystem.turn, FileSystem.looks, FileSystem.isDotted,
    vendoringFiles, vendoring, FileNode.at?, FileNode.child?, FileNode.entries]

end Vendoring

lemma read_linked {lib : String} (h : String.fromUTF8? lib.toUTF8 = some lib) :
    (vendoringFiles lib).read (Path.join "p" "d.go/lib.go") = .ok lib := by
  have hjoin : Path.join "p" "d.go/lib.go" = "p/d.go/lib.go" := by decide +kernel
  have hparts : FileSystem.parts "p/d.go/lib.go" = ["p", "d.go", "lib.go"] := by decide +kernel
  have htarget : FileSystem.parts "../vendor/lib.go" = ["..", "vendor", "lib.go"] := by decide +kernel
  have hlocate : (vendoringFiles lib).locate "p/d.go/lib.go" = .ok (.found ["p", "vendor", "lib.go"]) := by
    simp [FileSystem.locate, hparts, htarget, FileSystem.follow, vendoringFiles, vendoring, FileNode.at?,
      FileNode.child?, FileNode.entries]
  rw [hjoin]
  exact FileSystem.read_of_file (FileSystem.node_of_found hlocate) h

lemma linked_mem_sourcePaths (lib : String) : "d.go/lib.go" ∈
    sourcePaths true (Found.all [".git", "vendor"] (FileNode.listingAll (vendoring lib))) := by
  have hkept : FileNode.Kept [".git", "vendor"] (vendoring lib) ⟨["d.go", "lib.go"], false⟩ :=
    ⟨.inside (.tail _ (.tail _ (.tail _ (.head _)))) (.link (.tail _ (.head _))), by decide⟩
  rw [sourcePaths_eq]
  refine List.mem_map.mpr ⟨_, List.mem_filter.mpr ⟨mem_visited.mpr (FileNode.kept_iff.mp hkept), ?_⟩, ?_⟩
  · decide
  · decide

end Project

end CallAtlas
