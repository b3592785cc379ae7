import CallAtlas.Proofs.RankedSort
import CallAtlas.Proofs.UnitOrder
import CallAtlas.Report.Markdown
import Mathlib.Data.Prod.Lex
import Mathlib.Data.String.Basic
import Mathlib.Order.WithBot

/-! The tree of packages lists the registry in an order of its own, so that its text does not tell in which
order the units came. -/

namespace CallAtlas

def PackageKey.rank (k : PackageKey) : String ×ₗ String := toLex (k.name, k.path)

/-- Declarations are ranked by their names, and by their receivers where these are the same. No receiver is
below any receiver. -/
def SymbolKey.rank (k : SymbolKey) : String ×ₗ WithBot String :=
  toLex (k.name, k.receiver.elim ⊥ WithBot.some)

lemma PackageKey.rank_injective : Function.Injective rank := by
  rintro ⟨_, _⟩ ⟨_, _⟩ h
  obtain ⟨rfl, rfl⟩ := Prod.mk.inj (toLex.injective h)
  rfl

lemma SymbolKey.eq_of_rank_eq {k l : SymbolKey} (hp : k.package = l.package) (h : k.rank = l.rank) :
    k = l := by
  obtain ⟨p, r, n⟩ := k
  obtain ⟨q, s, m⟩ := l
  obtain ⟨rfl, hr⟩ := Prod.mk.inj (toLex.injective h)
  have hreceiver : r = s := by
    cases r <;> cases s <;> simp_all
  rw [hreceiver, show p = q from hp]

lemma Package.shownBefore_iff {a b : Package} : a.shownBefore b = true ↔ a.key.rank ≤ b.key.rank := by
  simp [shownBefore, PackageKey.rank, Prod.Lex.toLex_le_toLex]

lemma receiverLe_iff {r s : Option String} :
    receiverLe r s = true ↔ r.elim ⊥ WithBot.some ≤ s.elim (⊥ : WithBot String) WithBot.some := by
  cases r <;> cases s <;> simp [receiverLe]

lemma Declaration.shownBefore_iff {a b : Declaration} :
    a.shownBefore b = true ↔ a.key.rank ≤ b.key.rank := by
  simp [shownBefore, SymbolKey.rank, Prod.Lex.toLex_le_toLex, receiverLe_iff]

namespace Registry

variable {r : Registry}

lemma WellFormed.mem_declarations_iff (h : r.WellFormed) {p : Package} (hp : p ∈ r.packages)
    {d : Declaration} :
    d ∈ p.declarations.filterMap r.declaration? ↔ d ∈ r.declarations ∧ d.key.package = p.key := by
  rw [List.mem_filterMap]
  constructor
  · rintro ⟨i, hi, hd⟩
    obtain ⟨n, hn⟩ := List.mem_iff_getElem?.mp hp
    obtain ⟨e, he, rfl⟩ := (h.mem_declarations hn i).mp hi
    obtain rfl := Option.some.inj (hd.symm.trans he)
    obtain ⟨q, hq, hkey⟩ := h.declaration_package hd
    obtain rfl := Option.some.inj (hn.symm.trans hq)
    exact ⟨List.mem_of_getElem? hd, hkey.symm⟩
  · rintro ⟨hd, hkey⟩
    obtain ⟨i, hi⟩ := List.mem_iff_getElem?.mp hd
    obtain ⟨q, hq, hqkey⟩ := h.declaration_package hi
    have hpackage : p = q := List.inj_on_of_nodup_map h.package_keys_nodup hp (List.mem_of_getElem? hq)
      (hkey.symm.trans hqkey.symm)
    subst hpackage
    exact ⟨i, (h.mem_declarations hq i).mpr ⟨d, hi, rfl⟩, hi⟩

lemma WellFormed.nodup_declarations (h : r.WellFormed) {p : Package} (hp : p ∈ r.packages) :
    (p.declarations.filterMap r.declaration?).Nodup := by
  obtain ⟨n, hn⟩ := List.mem_iff_getElem?.mp hp
  have hids : p.declarations.Nodup := (h.declarations_increasing hn).imp Nat.ne_of_lt
  apply hids.filterMap
  intro i j d hi hj
  exact (h.declaration_id hi).symm.trans (h.declaration_id hj)

end Registry

namespace CodeModel

variable {m : CodeModel}

lemma mem_packageTree {n : PackageNode} :
    n ∈ m.packageTree ↔ ∃ p ∈ m.registry.packages, m.packageNode p = n := by
  rw [packageTree, List.mem_mergeSort, List.mem_map]

lemma packageTree_packages_perm (m : CodeModel) :
    (m.packageTree.map (·.package)).Perm m.registry.packages := by
  have hpackages : (m.registry.packages.map m.packageNode).map (·.package) = m.registry.packages := by
    rw [List.map_map]
    exact List.map_id _
  have hperm := (List.mergeSort_perm (m.registry.packages.map m.packageNode)
    fun a b => a.package.shownBefore b.package).map (·.package)
  rwa [hpackages] at hperm

section WellFormed

variable (h : m.registry.WellFormed)

include h

lemma mem_declarations_of_mem_packageTree {n : PackageNode} (hn : n ∈ m.packageTree) {d : Declaration} :
    d ∈ n.declarations ↔ d ∈ m.registry.declarations ∧ d.key.package = n.package.key := by
  obtain ⟨p, hp, rfl⟩ := mem_packageTree.mp hn
  rw [packageNode, List.mem_mergeSort]
  exact h.mem_declarations_iff hp

lemma packageTree_increasing : m.packageTree.Pairwise (·.package.key.rank < ·.package.key.rank) := by
  refine pairwise_mergeSort_lt (fun n : PackageNode => n.package.key.rank)
    (fun a b => Package.shownBefore_iff) ?_
  have hranks := h.package_keys_nodup.map PackageKey.rank_injective
  rw [List.map_map] at hranks ⊢
  exact hranks

lemma declarations_increasing {n : PackageNode} (hn : n ∈ m.packageTree) :
    n.declarations.Pairwise (·.key.rank < ·.key.rank) := by
  obtain ⟨p, hp, rfl⟩ := mem_packageTree.mp hn
  refine pairwise_mergeSort_lt (fun d : Declaration => d.key.rank)
    (fun a b => Declaration.shownBefore_iff) ?_
  -- Within one package the rank is all that a key tells.
  refine List.Nodup.map_on ?_ (h.nodup_declarations hp)
  intro d hd e he hrank
  obtain ⟨hd, hdp⟩ := (h.mem_declarations_iff hp).mp hd
  obtain ⟨he, hep⟩ := (h.mem_declarations_iff hp).mp he
  exact List.inj_on_of_nodup_map h.declaration_keys_nodup hd he
    (SymbolKey.eq_of_rank_eq (hdp.trans hep.symm) hrank)

lemma packageTree_declarations_perm :
    (m.packageTree.flatMap (·.declarations)).Perm m.registry.declarations := by
  have hnodup : (m.packageTree.flatMap (·.declarations)).Nodup := by
    refine List.nodup_flatMap.mpr ⟨fun n hn => nodup_of_pairwise_lt (declarations_increasing h hn), ?_⟩
    refine (packageTree_increasing h).imp_of_mem ?_
    intro a b ha hb hlt d hda hdb
    have hka := ((mem_declarations_of_mem_packageTree h ha).mp hda).2
    have hkb := ((mem_declarations_of_mem_packageTree h hb).mp hdb).2
    rw [← hka, ← hkb] at hlt
    exact lt_irrefl _ hlt
  refine (List.perm_ext_iff_of_nodup hnodup (h.declaration_keys_nodup.of_map _)).mpr ?_
  intro d
  rw [List.mem_flatMap]
  constructor
  · rintro ⟨n, hn, hd⟩
    exact ((mem_declarations_of_mem_packageTree h hn).mp hd).1
  · intro hd
    obtain ⟨i, hi⟩ := List.mem_iff_getElem?.mp hd
    obtain ⟨p, hp, hkey⟩ := h.declaration_package hi
    have hn : m.packageNode p ∈ m.packageTree := mem_packageTree.mpr ⟨p, List.mem_of_getElem? hp, rfl⟩
    exact ⟨_, hn, (mem_declarations_of_mem_packageTree h hn).mpr ⟨hd, hkey.symm⟩⟩

end WellFormed

end CodeModel

namespace PackageNode

def entry (d : Declaration) : SymbolKey × SymbolKind := (d.key, d.kind)

def outline (n : PackageNode) : PackageKey × List (SymbolKey × SymbolKind) :=
  (n.package.key, n.declarations.map entry)

lemma line_eq_of_entry_eq {d e : Declaration} (h : entry d = entry e) : line d = line e := by
  obtain ⟨hkey, hkind⟩ := Prod.mk.inj h
  rw [line, line, hkey, hkind]

lemma declarationLines_congr (margin : String) {ds es : List Declaration} (h : ds.map entry = es.map entry) :
    declarationLines margin ds = declarationLines margin es := by
  induction ds generalizing es with
  | nil =>
    obtain rfl := List.map_eq_nil_iff.mp h.symm
    rfl
  | cons d ds ih =>
    cases es with
    | nil => cases h
    | cons e es =>
      obtain ⟨hhead, htail⟩ := List.cons.inj h
      have hlast : ds.isEmpty = es.isEmpty := by
        rw [← List.isEmpty_map (f := entry), htail, List.isEmpty_map]
      rw [declarationLines, declarationLines, line_eq_of_entry_eq hhead, ih htail, hlast]

lemma lines_congr {ns ns' : List PackageNode} (h : ns.map outline = ns'.map outline) :
    lines ns = lines ns' := by
  induction ns generalizing ns' with
  | nil =>
    obtain rfl := List.map_eq_nil_iff.mp h.symm
    rfl
  | cons n ns ih =>
    cases ns' with
    | nil => cases h
    | cons n' ns' =>
      obtain ⟨hhead, htail⟩ := List.cons.inj h
      obtain ⟨hkey, hentries⟩ := Prod.mk.inj hhead
      have hlast : ns.isEmpty = ns'.isEmpty := by
        rw [← List.isEmpty_map (f := outline), htail, List.isEmpty_map]
      rw [lines, lines, ih htail, hlast, hkey]
      simp only [declarationLines_congr _ hentries]

end PackageNode

/-- Two registries that hold the same packages and declarations, whatever their numbers. -/
structure Registry.Alike (r r' : Registry) : Prop where
  packages : ∀ k, k ∈ r.packageKeys ↔ k ∈ r'.packageKeys
  entries : ∀ x, x ∈ r.declarations.map PackageNode.entry ↔ x ∈ r'.declarations.map PackageNode.entry

lemma Registry.Alike.symm {r r' : Registry} (h : r.Alike r') : r'.Alike r where
  packages k := (h.packages k).symm
  entries x := (h.entries x).symm

namespace CodeModel

open PackageNode

variable {m m' : CodeModel}

lemma mem_entries (h : m.registry.WellFormed) {n : PackageNode} (hn : n ∈ m.packageTree)
    {x : SymbolKey × SymbolKind} : x ∈ n.declarations.map entry ↔
      x ∈ m.registry.declarations.map entry ∧ x.1.package = n.package.key := by
  simp only [List.mem_map, mem_declarations_of_mem_packageTree h hn]
  constructor
  · rintro ⟨d, ⟨hd, hp⟩, rfl⟩
    exact ⟨⟨d, hd, rfl⟩, hp⟩
  · rintro ⟨⟨d, hd, rfl⟩, hp⟩
    exact ⟨d, ⟨hd, hp⟩, rfl⟩

section Alike

variable (h : m.registry.WellFormed) (h' : m'.registry.WellFormed) (ha : m.registry.Alike m'.registry)

include h h' ha

lemma entries_congr {n n' : PackageNode} (hn : n ∈ m.packageTree) (hn' : n' ∈ m'.packageTree)
    (hkey : n.package.key = n'.package.key) : n.declarations.map entry = n'.declarations.map entry := by
  have hs : (n.declarations.map entry).Pairwise (·.1.rank < ·.1.rank) :=
    List.pairwise_map.mpr (declarations_increasing h hn)
  have hs' : (n'.declarations.map entry).Pairwise (·.1.rank < ·.1.rank) :=
    List.pairwise_map.mpr (declarations_increasing h' hn')
  apply eq_of_pairwise_lt hs hs'
  intro x
  rw [mem_entries h hn, mem_entries h' hn', ha.entries, hkey]

lemma outline_subset : m.packageTree.map outline ⊆ m'.packageTree.map outline := by
  intro o ho
  obtain ⟨n, hn, rfl⟩ := List.mem_map.mp ho
  obtain ⟨p, hp, rfl⟩ := mem_packageTree.mp hn
  obtain ⟨q, hq, hkey⟩ := List.mem_map.mp ((ha.packages p.key).mp (List.mem_map_of_mem hp))
  have hn' : m'.packageNode q ∈ m'.packageTree := mem_packageTree.mpr ⟨q, hq, rfl⟩
  have hentries := entries_congr h h' ha hn hn' hkey.symm
  exact List.mem_map.mpr ⟨m'.packageNode q, hn', Prod.ext hkey hentries.symm⟩

lemma outline_congr : m.packageTree.map outline = m'.packageTree.map outline := by
  have hs : (m.packageTree.map outline).Pairwise (·.1.rank < ·.1.rank) :=
    List.pairwise_map.mpr (packageTree_increasing h)
  have hs' : (m'.packageTree.map outline).Pairwise (·.1.rank < ·.1.rank) :=
    List.pairwise_map.mpr (packageTree_increasing h')
  apply eq_of_pairwise_lt hs hs'
  intro o
  exact ⟨fun ho => outline_subset h h' ha ho, fun ho => outline_subset h' h ha.symm ho⟩

lemma renderTree_congr (hroot : m.rootName = m'.rootName) : m.renderTree = m'.renderTree := by
  rw [renderTree, renderTree, treeLines, treeLines, hroot, lines_congr (outline_congr h h' ha)]

end Alike

end CodeModel

/-- Declarations with one key are all of one kind. -/
def OneKindEach (us : List PackagedUnit) : Prop :=
  ∀ x ∈ declared us, ∀ y ∈ declared us, x.1 = y.1 → x.2.kind = y.2.kind

instance (us : List PackagedUnit) : Decidable (OneKindEach us) :=
  inferInstanceAs (Decidable (∀ x ∈ declared us, ∀ y ∈ declared us, _ → _))

variable {us vs : List PackagedUnit}

lemma OneKindEach.perm (h : OneKindEach us) (hp : us.Perm vs) : OneKindEach vs := by
  intro x hx y hy
  have hd := fun z => (declared_perm hp).mem_iff (a := z)
  exact h x ((hd x).mpr hx) y ((hd y).mpr hy)

lemma OneKindEach.mem_entries (h : OneKindEach us) {key : SymbolKey} {kind : SymbolKind} :
    (key, kind) ∈ (linked us).registry.declarations.map PackageNode.entry ↔
      ∃ x ∈ declared us, x.1 = key ∧ x.2.kind = kind := by
  rw [List.mem_map]
  constructor
  · rintro ⟨d, hd, hentry⟩
    obtain ⟨rfl, rfl⟩ := Prod.mk.inj hentry
    exact ⟨_, mem_declared_of_linked hd, rfl, rfl⟩
  · rintro ⟨x, hx, rfl, rfl⟩
    have hkey : x.1 ∈ (linked us).registry.declarationKeys := by
      rw [linked_declarationKeys, mem_registryOf_declarationKeys]
      exact ⟨x, hx, rfl⟩
    obtain ⟨d, hd, hdx⟩ := List.mem_map.mp hkey
    -- The declaration that is kept may be another one of this key.
    have hkind : d.kind = x.2.kind := h _ (mem_declared_of_linked hd) x hx hdx
    exact ⟨d, hd, Prod.ext hdx hkind⟩

lemma OneKindEach.alike (h : OneKindEach us) (hp : us.Perm vs) :
    (linked us).registry.Alike (linked vs).registry where
  packages k := by
    rw [linked_packageKeys, linked_packageKeys, (packageKeys_perm hp).mem_iff]
  entries x := by
    obtain ⟨key, kind⟩ := x
    rw [h.mem_entries, (h.perm hp).mem_entries]
    simp only [(declared_perm hp).mem_iff]

theorem package_tree_is_canonical (rootName : String) (module : Option String) (inputs : List UnitInput) :
    let m := analyze rootName module inputs
    let tree := m.packageTree
    (tree.map (·.package)).Perm m.registry.packages ∧ (tree.map (·.package.key)).Nodup ∧
    (tree.flatMap (·.declarations)).Perm m.registry.declarations ∧
    ((tree.flatMap (·.declarations)).map (·.key)).Nodup ∧
    (∀ n ∈ tree, ∀ d ∈ n.declarations, d.key.package = n.package.key) ∧
    tree.Pairwise (·.package.key.rank < ·.package.key.rank) ∧
    (∀ n ∈ tree, n.declarations.Pairwise (·.key.rank < ·.key.rank)) ∧
    ∀ inputs', inputs.Perm inputs' → OneKindEach (packagedUnits module inputs) →
      (analyze rootName module inputs').renderTree = m.renderTree := by
  intro m tree
  have hwell : ∀ inputs, (analyze rootName module inputs).registry.WellFormed := by
    intro inputs
    rw [CodeModel.registry, analyze_graph]
    exact (linked_consistent _).wellFormed
  have h : m.registry.WellFormed := hwell inputs
  have hpackages := CodeModel.packageTree_packages_perm m
  have hdeclarations := CodeModel.packageTree_declarations_perm h
  refine ⟨hpackages, ?_, hdeclarations, ?_, ?_, CodeModel.packageTree_increasing h,
    fun n => CodeModel.declarations_increasing h, ?_⟩
  · have hkeys := (hpackages.map (·.key)).nodup_iff.mpr h.package_keys_nodup
    rwa [List.map_map] at hkeys
  · exact (hdeclarations.map (·.key)).nodup_iff.mpr h.declaration_keys_nodup
  · intro n hn d hd
    exact ((CodeModel.mem_declarations_of_mem_packageTree h hn).mp hd).2
  · intro inputs' hp hkind
    have halike := hkind.alike (packagedUnits_perm hp module)
    rw [← analyze_graph rootName, ← analyze_graph rootName] at halike
    exact (CodeModel.renderTree_congr h (hwell inputs') halike rfl).symm

/-- Two packages of one name, in which functions and methods of one name are declared over and over. -/
def sharedNames : List UnitInput :=
  [⟨"b/x.go", .ok ⟨some "p", [], [.func ⟨"F", some ⟨some "T"⟩, 3, []⟩, .type "T" .struct 9], 12⟩⟩,
   ⟨"a/y.go", .ok ⟨some "p", [], [.func ⟨"F", none, 3, []⟩], 4⟩⟩,
   ⟨"b/z.go", .ok ⟨some "p", [], [.func ⟨"F", none, 3, []⟩, .func ⟨"F", some ⟨some "S"⟩, 5, []⟩,
     .func ⟨"F", none, 8, []⟩], 9⟩⟩]

theorem sharedNames_tree :
    let m := analyze "r" (some "m") sharedNames
    OneKindEach (packagedUnits (some "m") sharedNames) ∧ m.statistics.packages = 2 ∧
    m.statistics.declarations = 5 ∧ (m.packageTree.flatMap (·.declarations)).Perm m.registry.declarations ∧
    (analyze "r" (some "m") sharedNames.reverse).renderTree = m.renderTree := by
  have hkind : OneKindEach (packagedUnits (some "m") sharedNames) := by decide +kernel
  obtain ⟨-, -, hdeclarations, -, -, -, -, htext⟩ := package_tree_is_canonical "r" (some "m") sharedNames
  exact ⟨hkind, by decide +kernel, by decide +kernel, hdeclarations,
    htext _ (List.reverse_perm sharedNames).symm hkind⟩

end CallAtlas
