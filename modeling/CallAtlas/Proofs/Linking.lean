import CallAtlas.Proofs.GraphCounts

/-! The graph that a list of calls links: its edges are the live calls, and its call sites count them. -/

namespace CallAtlas

namespace CallGraph

variable {g : CallGraph} {i j : Nat}

lemma mem_callsAt_ensure (hi : i < g.registry.declarations.length) {k l : Nat} :
    l ∈ (g.ensure i j).callsAt k ↔ l ∈ g.callsAt k ∨ (k = i ∧ l = j) := by
  by_cases hm : j ∈ g.callsAt i
  · rw [ensure_of_mem hm]
    constructor
    · exact Or.inl
    · rintro (hl | ⟨rfl, rfl⟩)
      · exact hl
      · exact hm
  · rw [ensure_of_notMem hm, callsAt_connect hi]
    split
    next hk =>
      subst hk
      simp
    next hk => simp [Ne.symm hk]

lemma callSitesAt_ensure (k : Nat) : (g.ensure i j).callSitesAt k = g.callSitesAt k := by
  by_cases hm : j ∈ g.callsAt i
  · rw [ensure_of_mem hm]
  · rw [ensure_of_notMem hm, callSitesAt_connect]

lemma mem_callsAt_link (g : CallGraph) (call : Call) (k l : Nat) :
    l ∈ (g.link call).1.callsAt k ↔ l ∈ g.callsAt k ∨ g.live? call = some (k, l) := by
  obtain ⟨hn, he⟩ | ⟨i, j, hl, he⟩ := link_cases g call
  · simp [he, hn]
  · have hi := lt_of_isCallable (live?_eq_some_iff.mp hl).2.2.1
    rw [he, callsAt_countAt, mem_callsAt_ensure hi, hl]
    simp [eq_comm]

lemma callSitesAt_link (g : CallGraph) (call : Call) (k : Nat) :
    (g.link call).1.callSitesAt k =
      g.callSitesAt k + (g.live? call).toList.countP (·.2 = k) := by
  obtain ⟨hn, he⟩ | ⟨i, j, hl, he⟩ := link_cases g call
  · simp [he, hn]
  · rw [he, callSitesAt_countAt (lt_ensure_of_live? hl), callSitesAt_ensure, hl]
    by_cases hk : j = k <;> simp [hk]

lemma linkAll_bare (g : CallGraph) (calls : List Call) :
    (g.linkAll calls).registry.bare = g.registry.bare := by
  induction calls generalizing g with
  | nil => rfl
  | cons call calls ih => exact (ih _).trans (link_bare g call)

lemma Consistent.linkAll (h : g.Consistent) (calls : List Call) : (g.linkAll calls).Consistent := by
  induction calls generalizing g with
  | nil => exact h
  | cons call calls ih => exact ih (h.link call)

lemma Counted.linkAll (h : g.Counted) (calls : List Call) : (g.linkAll calls).Counted := by
  induction calls generalizing g with
  | nil => exact h
  | cons call calls ih => exact ih (h.link call)

lemma mem_callsAt_linkAll (g : CallGraph) (calls : List Call) (k l : Nat) :
    l ∈ (g.linkAll calls).callsAt k ↔ l ∈ g.callsAt k ∨ (k, l) ∈ calls.filterMap g.live? := by
  induction calls generalizing g with
  | nil => simp [linkAll]
  | cons call calls ih =>
    have hs := ih (g.link call).1
    rw [live?_of_bare_eq (link_bare g call), mem_callsAt_link] at hs
    change l ∈ ((g.link call).1.linkAll calls).callsAt k ↔ _
    rw [hs, or_assoc, List.filterMap_cons]
    cases g.live? call <;> simp [eq_comm]

lemma callSitesAt_linkAll (g : CallGraph) (calls : List Call) (k : Nat) :
    (g.linkAll calls).callSitesAt k =
      g.callSitesAt k + (calls.filterMap g.live?).countP (·.2 = k) := by
  induction calls generalizing g with
  | nil => simp [linkAll]
  | cons call calls ih =>
    have hs := ih (g.link call).1
    rw [live?_of_bare_eq (link_bare g call), callSitesAt_link] at hs
    change ((g.link call).1.linkAll calls).callSitesAt k = _
    rw [hs, List.filterMap_cons]
    cases g.live? call
    · simp
    · simp only [Option.toList_some, List.countP_cons, List.countP_nil]
      omega

def callSitesOf (g : CallGraph) (key : SymbolKey) : Nat :=
  ((g.registry.lookup key).map (·.callSites)).getD 0

lemma callSitesOf_eq {key : SymbolKey} (hj : g.registry.declarationId? key = some j) :
    g.callSitesOf key = g.callSitesAt j := by
  rw [callSitesOf, lookup_eq hj, callSitesAt]

lemma callSitesOf_of_unregistered {key : SymbolKey} (hk : g.registry.declarationId? key = none) :
    g.callSitesOf key = 0 := by
  simp [callSitesOf, Registry.lookup, hk]

end CallGraph

namespace Registry

def callable (r : Registry) (key : SymbolKey) : Bool := (r.lookup key).any (·.kind.isCallable)

variable {r : Registry}

lemma callable_iff {key : SymbolKey} : r.callable key = true ↔
    ∃ i, r.declarationId? key = some i ∧ (CallGraph.ofRegistry r).isCallable i = true := by
  cases hi : r.declarationId? key with
  | none => simp [callable, lookup, hi]
  | some i => cases hd : r.declaration? i <;>
      simp [callable, lookup, hi, hd, CallGraph.isCallable, CallGraph.ofRegistry]

lemma WellFormed.id_injective (h : r.WellFormed) {a b : SymbolKey} {i : Nat}
    (ha : r.declarationId? a = some i) (hb : r.declarationId? b = some i) : a = b := by
  obtain ⟨d, hd, rfl⟩ := h.declarationId_iff.mp ha
  obtain ⟨e, he, rfl⟩ := h.declarationId_iff.mp hb
  rw [Option.some.inj (hd.symm.trans he)]

end Registry

namespace CallGraph

variable {r : Registry} (hb : r.bare = r) (h : r.WellFormed) (calls : List Call)

include hb h

lemma mem_edgeKeys_linkAll {a b : SymbolKey} : (a, b) ∈ ((ofRegistry r).linkAll calls).edgeKeys ↔
    ⟨a, b⟩ ∈ calls ∧ r.callable a = true ∧ r.callable b = true := by
  have hbare := linkAll_bare (ofRegistry r) calls
  rw [((consistent_ofRegistry hb h).linkAll calls).mem_edgeKeys, Registry.callable_iff, Registry.callable_iff]
  simp only [declarationId?_of_bare_eq hbare, mem_callsAt_linkAll, callsAt_ofRegistry hb,
    List.not_mem_nil, false_or, List.mem_filterMap, live?_eq_some_iff]
  constructor
  · rintro ⟨i, j, ha, hb', ⟨caller, callee⟩, hc, hi, hj, hci, hcj⟩
    obtain rfl := h.id_injective ha hi
    obtain rfl := h.id_injective hb' hj
    exact ⟨hc, ⟨i, hi, hci⟩, ⟨j, hj, hcj⟩⟩
  · rintro ⟨hc, ⟨i, hi, hci⟩, ⟨j, hj, hcj⟩⟩
    exact ⟨i, j, hi, hj, _, hc, hi, hj, hci, hcj⟩

lemma callSitesOf_linkAll (key : SymbolKey) : ((ofRegistry r).linkAll calls).callSitesOf key =
    calls.countP (fun c => c.callee = key ∧ r.callable c.caller ∧ r.callable c.callee) := by
  have hid : ((ofRegistry r).linkAll calls).registry.declarationId? key = r.declarationId? key :=
    declarationId?_of_bare_eq (linkAll_bare (ofRegistry r) calls) key
  cases hj : r.declarationId? key with
  | none =>
    rw [callSitesOf_of_unregistered (hid.trans hj), eq_comm, List.countP_eq_zero]
    rintro c _ hc
    obtain ⟨rfl, _, hcj⟩ := of_decide_eq_true hc
    obtain ⟨j, hj', _⟩ := Registry.callable_iff.mp hcj
    cases hj.symm.trans hj'
  | some j =>
    have hlive : ∀ o : Option (Nat × Nat),
        (o.map fun e => decide (e.2 = j)).getD false = true ↔ ∃ i, o = some (i, j) := by
      rintro (_ | ⟨i, k⟩) <;> simp
    rw [callSitesOf_eq (hid.trans hj), callSitesAt_linkAll, callSitesAt_ofRegistry hb, Nat.zero_add,
      List.countP_filterMap]
    apply List.countP_congr
    intro c _
    rw [hlive, decide_eq_true_eq, Registry.callable_iff, Registry.callable_iff]
    simp only [live?_eq_some_iff]
    constructor
    · rintro ⟨i, hi, hj', hci, hcj⟩
      exact ⟨h.id_injective hj' hj, ⟨i, hi, hci⟩, ⟨j, hj', hcj⟩⟩
    · rintro ⟨rfl, ⟨i, hi, hci⟩, ⟨k, hk, hck⟩⟩
      obtain rfl := Option.some.inj (hk.symm.trans hj)
      exact ⟨i, hi, hk, hci, hck⟩

end CallGraph

end CallAtlas
