import CallAtlas.Proofs.FirstOfEach
import CallAtlas.Proofs.Linking

/-! Linking calls in order writes every live call down at both of its ends, where it first occurs. -/

namespace CallAtlas

/-- The distinct callees of `i` among pairs of a caller and a callee, in the order they first occur. -/
def firstCallees (live : List (Nat × Nat)) (i : Nat) : List Nat :=
  ((live.filter (·.1 = i)).map (·.2)).eraseDups

def firstCallers (live : List (Nat × Nat)) (j : Nat) : List Nat :=
  ((live.filter (·.2 = j)).map (·.1)).eraseDups

def recorded (live : List (Nat × Nat)) (i : Nat) (d : Declaration) : Declaration :=
  { d with
    calls := firstCallees live i
    calledBy := firstCallers live i
    callSites := live.countP (·.2 = i) }

lemma mem_firstCallees {live : List (Nat × Nat)} {i j : Nat} : j ∈ firstCallees live i ↔ (i, j) ∈ live := by
  simp [firstCallees]

lemma firstCallees_snoc (live : List (Nat × Nat)) (i j k : Nat) :
    firstCallees (live ++ [(i, j)]) k =
      if i = k ∧ (i, j) ∉ live then firstCallees live k ++ [j] else firstCallees live k := by
  by_cases hk : i = k
  · subst hk
    have hfilter : (live ++ [(i, j)]).filter (·.1 = i) = live.filter (·.1 = i) ++ [(i, j)] := by simp
    have hmem : j ∈ (live.filter (·.1 = i)).map (·.2) ↔ (i, j) ∈ live := by simp
    rw [firstCallees, hfilter, List.map_append, List.map_singleton, eraseDups_snoc]
    by_cases hm : (i, j) ∈ live <;> simp [hmem, hm, firstCallees]
  · simp [firstCallees, hk]

lemma firstCallers_eq_swap (live : List (Nat × Nat)) (j : Nat) :
    firstCallers live j = firstCallees (live.map Prod.swap) j := by
  simp [firstCallers, firstCallees, List.filter_map, Function.comp_def]

lemma firstCallers_snoc (live : List (Nat × Nat)) (i j k : Nat) :
    firstCallers (live ++ [(i, j)]) k =
      if j = k ∧ (i, j) ∉ live then firstCallers live k ++ [i] else firstCallers live k := by
  have hmem : (j, i) ∈ live.map Prod.swap ↔ (i, j) ∈ live := by simp
  rw [firstCallers_eq_swap, List.map_append, List.map_singleton, Prod.swap_prod_mk, firstCallees_snoc,
    ← firstCallers_eq_swap]
  simp only [hmem]

namespace CallGraph

structure Records (g : CallGraph) (live : List (Nat × Nat)) : Prop where
  calls_eq : ∀ i, g.callsAt i = firstCallees live i
  calledBy_eq : ∀ j, g.calledByAt j = firstCallers live j
  callSites_eq : ∀ j, g.callSitesAt j = live.countP (·.2 = j)
  edgeCount_eq : g.edgeCount = live.eraseDups.length

variable {g : CallGraph} {live : List (Nat × Nat)} {i j : Nat}

lemma Records.mem_callsAt (h : g.Records live) : j ∈ g.callsAt i ↔ (i, j) ∈ live := by
  rw [h.calls_eq, mem_firstCallees]

lemma records_ofRegistry {r : Registry} (hb : r.bare = r) : (ofRegistry r).Records [] where
  calls_eq i := callsAt_ofRegistry hb i
  calledBy_eq j := calledByAt_ofRegistry hb j
  callSites_eq j := callSitesAt_ofRegistry hb j
  edgeCount_eq := rfl

lemma Records.ensure (h : g.Records live) (hi : i < g.registry.declarations.length)
    (hj : j < g.registry.declarations.length) :
    (∀ k, (g.ensure i j).callsAt k = firstCallees (live ++ [(i, j)]) k) ∧
    (∀ k, (g.ensure i j).calledByAt k = firstCallers (live ++ [(i, j)]) k) ∧
    (g.ensure i j).edgeCount = (live ++ [(i, j)]).eraseDups.length := by
  -- only the caller's list is looked at, and it tells for both lists whether the pair is new
  simp only [firstCallees_snoc, firstCallers_snoc, eraseDups_snoc, ← h.calls_eq, ← h.calledBy_eq]
  by_cases hm : (i, j) ∈ live
  · rw [ensure_of_mem (h.mem_callsAt.mpr hm)]
    simp [hm, h.edgeCount_eq]
  · rw [ensure_of_notMem (mt h.mem_callsAt.mp hm)]
    refine ⟨?_, ?_, ?_⟩
    · simp [callsAt_connect hi, hm]
    · simp [calledByAt_connect hj, hm]
    · simp [connect, hm, h.edgeCount_eq]

lemma Records.countAt_ensure (h : g.Records live) (hi : i < g.registry.declarations.length)
    (hj : j < g.registry.declarations.length) (hj' : j < (g.ensure i j).registry.declarations.length) :
    ((g.ensure i j).countAt j).Records (live ++ [(i, j)]) := by
  obtain ⟨hcalls, hcalledBy, hcount⟩ := h.ensure hi hj
  constructor
  · intro k
    rw [callsAt_countAt, hcalls]
  · intro k
    rw [calledByAt_countAt, hcalledBy]
  · intro k
    rw [callSitesAt_countAt hj', callSitesAt_ensure, h.callSites_eq, List.countP_append]
    by_cases hk : j = k <;> simp [hk]
  · exact hcount

lemma Records.link (h : g.Records live) (call : Call) :
    (g.link call).1.Records (live ++ (g.live? call).toList) := by
  obtain ⟨hn, he⟩ | ⟨i, j, hl, he⟩ := link_cases g call
  · simpa [he, hn] using h
  · obtain ⟨_, _, hi, hj⟩ := live?_eq_some_iff.mp hl
    rw [he, hl]
    exact h.countAt_ensure (lt_of_isCallable hi) (lt_of_isCallable hj) (lt_ensure_of_live? hl)

lemma Records.linkAll (h : g.Records live) (calls : List Call) :
    (g.linkAll calls).Records (live ++ calls.filterMap g.live?) := by
  induction calls generalizing g live with
  | nil => simpa [CallGraph.linkAll] using h
  | cons call calls ih =>
    have hs := ih (h.link call)
    rw [live?_of_bare_eq (link_bare g call), List.append_assoc] at hs
    change ((g.link call).1.linkAll calls).Records _
    rw [List.filterMap_cons]
    cases hl : g.live? call <;> simpa [hl] using hs

lemma callSitesAt_eq {d : Declaration} (hd : g.registry.declaration? i = some d) :
    g.callSitesAt i = d.callSites := by
  simp [callSitesAt, hd]

lemma Records.declaration?_eq {r : Registry} (h : g.Records live) (hb : g.registry.bare = r.bare) (i : Nat) :
    g.registry.declaration? i = (r.declaration? i).map (recorded live i) := by
  have hmap := Registry.map_declaration?_of_bare_eq hb i (·.bare) fun _ => rfl
  cases hd : r.declaration? i with
  | none => simpa [hd] using hmap
  | some d =>
    rw [hd, Option.map_some, Option.map_eq_some_iff] at hmap
    obtain ⟨e, he, hbare⟩ := hmap
    have hcalls : e = { d with calls := e.calls, calledBy := e.calledBy, callSites := e.callSites } :=
      congrArg (fun b : Declaration =>
        { b with calls := e.calls, calledBy := e.calledBy, callSites := e.callSites }) hbare
    rw [he, hcalls, ← callsAt_eq he, h.calls_eq, ← calledByAt_eq he, h.calledBy_eq, ← callSitesAt_eq he,
      h.callSites_eq]
    rfl

lemma Records.registry_eq {r : Registry} (h : g.Records live) (hb : g.registry.bare = r.bare) :
    g.registry = { r with declarations := r.declarations.mapIdx (recorded live) } := by
  have hdeclarations : g.registry.declarations = r.declarations.mapIdx (recorded live) := by
    apply List.ext_getElem?
    intro i
    rw [List.getElem?_mapIdx]
    exact h.declaration?_eq hb i
  obtain ⟨hpackages, _, hpackageIds, howners, hids⟩ := Registry.bare_eq_iff.mp hb
  rw [← hdeclarations, ← hpackages, ← hpackageIds, ← howners, ← hids]

theorem linking_keeps_first_occurrences (packaged : List Registry.Op) (calls : List Call) :
    let r := Registry.empty.run packaged
    let live := calls.filterMap (ofRegistry r).live?
    let g := (ofRegistry r).linkAll calls
    g.registry = { r with declarations := r.declarations.mapIdx (recorded live) } ∧
    g.edgeCount = live.eraseDups.length ∧
    ∀ calls', calls'.Perm calls →
      let g' := (ofRegistry r).linkAll calls'
      (∀ i j, g'.hasEdge i j = g.hasEdge i j) ∧ g'.edgeCount = g.edgeCount ∧
      ∀ j, g'.callSitesAt j = g.callSitesAt j := by
  intro r live g
  have hb : r.bare = r := Registry.bare_run rfl packaged
  have hrecords : ∀ calls, ((ofRegistry r).linkAll calls).Records (calls.filterMap (ofRegistry r).live?) :=
    (records_ofRegistry hb).linkAll
  have h := hrecords calls
  refine ⟨h.registry_eq (linkAll_bare _ calls), h.edgeCount_eq, ?_⟩
  intro calls' hperm g'
  have h' := hrecords calls'
  have hlive : (calls'.filterMap (ofRegistry r).live?).Perm live := hperm.filterMap _
  refine ⟨?_, ?_, ?_⟩
  · intro i j
    rw [Bool.eq_iff_iff, hasEdge_iff, hasEdge_iff, h.mem_callsAt, h'.mem_callsAt, hlive.mem_iff]
  · rw [h.edgeCount_eq, h'.edgeCount_eq, length_eraseDups_of_perm hlive]
  · intro j
    rw [h.callSites_eq, h'.callSites_eq, hlive.countP_eq]

end CallGraph

end CallAtlas
