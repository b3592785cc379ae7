import CallAtlas.Proofs.GraphInvariant

/-! The edges of a consistent graph, and how many of them reach a key. -/

namespace CallAtlas

lemma filter_isCallable (ds : List Declaration) :
    ds.filter (·.kind.isCallable) = ds.filter fun d => d.kind = .function ∨ d.kind = .method := by
  congr 1
  funext d
  cases d.kind <;> rfl

namespace CallGraph

variable {g : CallGraph} {i j : Nat}

lemma callsAt_eq {d : Declaration} (hd : g.registry.declaration? i = some d) : g.callsAt i = d.calls := by
  simp [callsAt, hd]

lemma calledByAt_eq {d : Declaration} (hd : g.registry.declaration? i = some d) :
    g.calledByAt i = d.calledBy := by
  simp [calledByAt, hd]

section OfRegistry

variable {r : Registry} (hb : r.bare = r)

include hb

lemma declaration?_of_bare (i : Nat) : r.declaration? i = (r.declaration? i).map (·.bare) := by
  rw [← Registry.declaration?_bare, hb]

lemma callsAt_ofRegistry (i : Nat) : (ofRegistry r).callsAt i = [] := by
  rw [callsAt, ofRegistry, declaration?_of_bare hb]
  cases r.declaration? i <;> rfl

lemma calledByAt_ofRegistry (i : Nat) : (ofRegistry r).calledByAt i = [] := by
  rw [calledByAt, ofRegistry, declaration?_of_bare hb]
  cases r.declaration? i <;> rfl

lemma callSitesAt_ofRegistry (i : Nat) : (ofRegistry r).callSitesAt i = 0 := by
  rw [callSitesAt, ofRegistry, declaration?_of_bare hb]
  cases r.declaration? i <;> rfl

lemma sum_of_bare {w : Declaration → Nat} (hw : ∀ d : Declaration, w d.bare = 0) :
    (r.declarations.map w).sum = 0 := by
  have hd : r.declarations = r.declarations.map (·.bare) := (congrArg Registry.declarations hb).symm
  rw [hd, List.map_map, show w ∘ Declaration.bare = fun _ => 0 from funext hw]
  simp

lemma consistent_ofRegistry (h : r.WellFormed) : (ofRegistry r).Consistent where
  wellFormed := h
  callable_ends hm := by simp [callsAt_ofRegistry hb] at hm
  calls_nodup i := by simp [callsAt_ofRegistry hb]
  calledBy_nodup i := by simp [calledByAt_ofRegistry hb]
  symmetric := by simp [callsAt_ofRegistry hb, calledByAt_ofRegistry hb]
  edgeCount_calls := (sum_of_bare hb fun d => rfl).symm
  edgeCount_calledBy := (sum_of_bare hb fun d => rfl).symm
  callSiteCount_eq := (sum_of_bare hb fun d => rfl).symm

end OfRegistry

lemma length_filterMap_declaration? {ids : List Nat} (h : ∀ k ∈ ids, g.isCallable k = true) :
    (ids.filterMap g.registry.declaration?).length = ids.length := by
  rw [List.length_filterMap_eq_countP, List.countP_eq_length]
  intro k hk
  obtain ⟨d, hd, _⟩ := isCallable_iff.mp (h k hk)
  simp [hd]

lemma Consistent.edges_length (h : g.Consistent) : g.edges.length = g.edgeCount := by
  rw [edges, List.length_flatMap, h.edgeCount_calls]
  congr 1
  apply List.map_congr_left
  intro d hd
  obtain ⟨i, hi⟩ := List.mem_iff_getElem?.mp hd
  rw [List.length_map]
  apply length_filterMap_declaration?
  intro k hk
  exact (h.callable_ends (callsAt_eq hi ▸ hk)).2

lemma mem_edges {e : Edge} : e ∈ g.edges ↔ ∃ i j, g.registry.declaration? i = some e.caller ∧
    g.registry.declaration? j = some e.callee ∧ j ∈ g.callsAt i := by
  simp only [edges, List.mem_flatMap, List.mem_map, List.mem_filterMap]
  constructor
  · rintro ⟨d, hd, c, ⟨j, hj, hc⟩, rfl⟩
    obtain ⟨i, hi⟩ := List.mem_iff_getElem?.mp hd
    exact ⟨i, j, hi, hc, callsAt_eq hi ▸ hj⟩
  · rintro ⟨i, j, hi, hj, hm⟩
    exact ⟨e.caller, List.mem_of_getElem? hi, e.callee, ⟨j, callsAt_eq hi ▸ hm, hj⟩, rfl⟩

lemma Consistent.callable_of_mem_edges (h : g.Consistent) {e : Edge} (he : e ∈ g.edges) :
    (e.caller ∈ g.registry.declarations ∧ e.caller.kind.isCallable = true) ∧
      e.callee ∈ g.registry.declarations ∧ e.callee.kind.isCallable = true := by
  obtain ⟨i, j, hi, hj, hm⟩ := mem_edges.mp he
  obtain ⟨hci, hcj⟩ := h.callable_ends hm
  obtain ⟨d, hd, hcaller⟩ := isCallable_iff.mp hci
  obtain ⟨d', hd', hcallee⟩ := isCallable_iff.mp hcj
  obtain rfl := Option.some.inj (hi.symm.trans hd)
  obtain rfl := Option.some.inj (hj.symm.trans hd')
  exact ⟨⟨List.mem_of_getElem? hi, hcaller⟩, List.mem_of_getElem? hj, hcallee⟩

def edgeKeys (g : CallGraph) : List (SymbolKey × SymbolKey) :=
  g.edges.map fun e => (e.caller.key, e.callee.key)

lemma Consistent.mem_edgeKeys (h : g.Consistent) {a b : SymbolKey} : (a, b) ∈ g.edgeKeys ↔
    ∃ i j, g.registry.declarationId? a = some i ∧ g.registry.declarationId? b = some j ∧
      j ∈ g.callsAt i := by
  simp only [edgeKeys, List.mem_map, Prod.mk.injEq, mem_edges, h.wellFormed.declarationId_iff]
  constructor
  · rintro ⟨e, ⟨i, j, hi, hj, hm⟩, rfl, rfl⟩
    exact ⟨i, j, ⟨_, hi, rfl⟩, ⟨_, hj, rfl⟩, hm⟩
  · rintro ⟨i, j, ⟨d, hi, rfl⟩, ⟨e, hj, rfl⟩, hm⟩
    exact ⟨⟨d, e⟩, ⟨i, j, hi, hj, hm⟩, rfl, rfl⟩

lemma Consistent.keys_nodup (h : g.Consistent) {ids : List Nat} (hn : ids.Nodup) :
    ((ids.filterMap g.registry.declaration?).map (·.key)).Nodup := by
  refine List.Nodup.map_on ?_ (hn.filterMap ?_)
  · intro d hd e he hk
    obtain ⟨i, _, hi⟩ := List.mem_filterMap.mp hd
    obtain ⟨j, _, hj⟩ := List.mem_filterMap.mp he
    obtain rfl := h.wellFormed.key_injective hi hj hk
    exact Option.some.inj (hi.symm.trans hj)
  · intro i j d hi hj
    exact h.wellFormed.key_injective (Option.mem_def.mp hi) (Option.mem_def.mp hj) rfl

lemma Consistent.edgeKeys_nodup (h : g.Consistent) : g.edgeKeys.Nodup := by
  rw [edgeKeys, edges, List.map_flatMap, List.nodup_flatMap]
  constructor
  · intro d hd
    obtain ⟨i, hi⟩ := List.mem_iff_getElem?.mp hd
    have hk := h.keys_nodup (callsAt_eq hi ▸ h.calls_nodup i)
    simpa [List.map_map, Function.comp_def] using hk.map (f := fun k => (d.key, k)) (by
      intro a b hab
      exact (Prod.mk.inj hab).2)
  · refine (List.pairwise_map.mp h.wellFormed.declaration_keys_nodup).imp ?_
    intro d e hne x hx hy
    simp only [List.mem_map] at hx hy
    obtain ⟨_, ⟨_, _, rfl⟩, rfl⟩ := hx
    obtain ⟨_, ⟨_, _, rfl⟩, he⟩ := hy
    exact hne (Prod.mk.inj he).1.symm

lemma lookup_eq {key : SymbolKey} (hj : g.registry.declarationId? key = some j) :
    g.registry.lookup key = g.registry.declaration? j := by
  simp [Registry.lookup, hj]

lemma Consistent.incomingCount_eq (h : g.Consistent) {key : SymbolKey} {j : Nat}
    (hj : g.registry.declarationId? key = some j) : g.incomingCount key = (g.calledByAt j).length := by
  obtain ⟨d, hd, _⟩ := h.wellFormed.declarationId_iff.mp hj
  simp [incomingCount, lookup_eq hj, calledByAt, hd]

lemma incomingCount_of_unregistered {key : SymbolKey} (hk : g.registry.declarationId? key = none) :
    g.incomingCount key = 0 := by
  simp [incomingCount, Registry.lookup, hk]

lemma Consistent.callersOf_length (h : g.Consistent) (key : SymbolKey) :
    (g.callersOf key).length = g.incomingCount key := by
  cases hj : g.registry.declarationId? key with
  | none => simp [callersOf, incomingCount, Registry.lookup, hj]
  | some j =>
    obtain ⟨d, hd, _⟩ := h.wellFormed.declarationId_iff.mp hj
    rw [h.incomingCount_eq hj, calledByAt_eq hd]
    simp only [callersOf, lookup_eq hj, hd, Option.map_some, Option.getD_some]
    apply length_filterMap_declaration?
    intro i hi
    exact (h.callable_ends (h.symmetric.mpr (calledByAt_eq hd ▸ hi))).1

lemma Consistent.incomingCount_eq_countP (h : g.Consistent) (key : SymbolKey) :
    g.incomingCount key = g.edgeKeys.countP (·.2 = key) := by
  cases hj : g.registry.declarationId? key with
  | none =>
    rw [incomingCount_of_unregistered hj, eq_comm, List.countP_eq_zero]
    rintro ⟨a, b⟩ hab hb
    obtain ⟨_, j, _, hid, _⟩ := h.mem_edgeKeys.mp hab
    obtain rfl := of_decide_eq_true hb
    cases hj.symm.trans hid
  | some j =>
    have hn : ((g.edgeKeys.filter (·.2 = key)).map (·.1)).Nodup := by
      refine List.Nodup.map_on ?_ (h.edgeKeys_nodup.filter _)
      rintro ⟨a, b⟩ hab ⟨a', b'⟩ hab' rfl
      have hb : b = key := by simpa using (List.mem_filter.mp hab).2
      have hb' : b' = key := by simpa using (List.mem_filter.mp hab').2
      rw [hb, hb']
    have hp : ((g.edgeKeys.filter (·.2 = key)).map (·.1)).Perm
        (((g.calledByAt j).filterMap g.registry.declaration?).map (·.key)) := by
      refine (List.perm_ext_iff_of_nodup hn (h.keys_nodup (h.calledBy_nodup j))).mpr ?_
      intro a
      simp only [List.mem_map, List.mem_filter, List.mem_filterMap]
      constructor
      · rintro ⟨⟨a, b⟩, ⟨hab, hb⟩, rfl⟩
        obtain ⟨i, j', hi, hj', hm⟩ := h.mem_edgeKeys.mp hab
        obtain rfl : b = key := of_decide_eq_true hb
        obtain rfl := Option.some.inj (hj.symm.trans hj')
        obtain ⟨d, hd, hk⟩ := h.wellFormed.declarationId_iff.mp hi
        exact ⟨d, ⟨i, h.symmetric.mp hm, hd⟩, hk⟩
      · rintro ⟨d, ⟨i, hi, hd⟩, rfl⟩
        refine ⟨(d.key, key), ⟨?_, by simp⟩, rfl⟩
        exact h.mem_edgeKeys.mpr
          ⟨i, j, h.wellFormed.declarationId_iff.mpr ⟨d, hd, rfl⟩, hj, h.symmetric.mpr hi⟩
    have hlen := hp.length_eq
    rw [List.length_map, List.length_map, ← List.countP_eq_length_filter,
      length_filterMap_declaration?] at hlen
    · rw [h.incomingCount_eq hj, hlen]
    · intro i hi
      exact (h.callable_ends (h.symmetric.mpr hi)).1

lemma Consistent.calledBy_length (h : g.Consistent) {d : Declaration} (hd : d ∈ g.registry.declarations) :
    d.calledBy.length = g.edgeKeys.countP (·.2 = d.key) := by
  obtain ⟨i, hi⟩ := List.mem_iff_getElem?.mp hd
  rw [← h.incomingCount_eq_countP, h.incomingCount_eq (h.wellFormed.declarationId_iff.mpr ⟨d, hi, rfl⟩),
    calledByAt_eq hi]

def Counted (g : CallGraph) : Prop := ∀ i, (g.calledByAt i).length ≤ g.callSitesAt i

lemma Counted.link (h : g.Counted) (call : Call) : (g.link call).1.Counted := by
  obtain ⟨_, he⟩ | ⟨i, j, hl, he⟩ := link_cases g call
  · rwa [he]
  · rw [he]
    intro k
    have hj := lt_of_isCallable (live?_eq_some_iff.mp hl).2.2.2
    have hk := h k
    rw [calledByAt_countAt, callSitesAt_countAt (lt_ensure_of_live? hl)]
    by_cases hm : j ∈ g.callsAt i
    · rw [ensure_of_mem hm]
      split <;> omega
    · rw [ensure_of_notMem hm, calledByAt_connect hj, callSitesAt_connect]
      split
      · rw [List.length_append, List.length_singleton]
        omega
      · exact hk

lemma Counted.run (h : g.Counted) {ops : List Op} (hops : ∀ op ∈ ops, ∃ call, op = .link call) :
    (g.run ops).Counted := by
  induction ops generalizing g with
  | nil => exact h
  | cons op ops ih =>
    obtain ⟨call, rfl⟩ := hops op List.mem_cons_self
    exact ih (h.link call) fun op hop => hops op (List.mem_cons_of_mem _ hop)

theorem edges_and_counts_agree (packaged : List Registry.Op) (ops : List Op) :
    let g := (ofRegistry (Registry.empty.run packaged)).run ops
    (∀ i j, j ∈ g.callsAt i ∨ j ∈ g.calledByAt i → g.isCallable j = true) ∧
    (∀ i, (g.callsAt i).Nodup ∧ (g.calledByAt i).Nodup) ∧
    (∀ i j, j ∈ g.callsAt i ↔ i ∈ g.calledByAt j) ∧
    g.edgeCount = (g.registry.declarations.map (·.calls.length)).sum ∧
    g.edgeCount = (g.registry.declarations.map (·.calledBy.length)).sum ∧
    g.edgeCount = g.edges.length ∧
    g.callSiteCount = (g.registry.declarations.map (·.callSites)).sum ∧
    (∀ key, g.incomingCount key = (g.callersOf key).length ∧
      g.incomingCount key = g.edges.countP (·.callee.key = key)) ∧
    ((∀ op ∈ ops, ∃ call, op = .link call) →
      ∀ d ∈ g.registry.declarations, d.calledBy.length ≤ d.callSites) := by
  have hb : (Registry.empty.run packaged).bare = Registry.empty.run packaged :=
    Registry.bare_run rfl packaged
  have h := (consistent_ofRegistry hb (Registry.wellFormed_empty.run packaged)).run ops
  refine ⟨?_, fun i => ⟨h.calls_nodup i, h.calledBy_nodup i⟩, fun i j => h.symmetric, h.edgeCount_calls,
    h.edgeCount_calledBy, h.edges_length.symm, h.callSiteCount_eq, ?_, ?_⟩
  · rintro i j (hj | hj)
    · exact (h.callable_ends hj).2
    · exact (h.callable_ends (h.symmetric.mpr hj)).1
  · intro key
    refine ⟨(h.callersOf_length key).symm, ?_⟩
    rw [h.incomingCount_eq_countP, edgeKeys, List.countP_map]
    rfl
  · intro hops d hd
    have hc : (ofRegistry (Registry.empty.run packaged)).Counted := by
      intro i
      rw [calledByAt_ofRegistry hb, callSitesAt_ofRegistry hb]
      exact Nat.le_refl 0
    obtain ⟨i, hi⟩ := List.mem_iff_getElem?.mp hd
    have hi' : ((ofRegistry (Registry.empty.run packaged)).run ops).registry.declaration? i = some d := hi
    have hle := hc.run hops i
    simpa only [calledByAt, callSitesAt, hi', Option.map_some, Option.getD_some] using hle

end CallGraph

end CallAtlas
