import CallAtlas.CallGraph
import CallAtlas.Proofs.BareRegistry
import Mathlib.Algebra.Ring.Nat

/-! The two ends of every edge and the two counters of a call graph stay in step, whatever edges are
added and calls linked. -/

namespace CallAtlas

lemma sum_map_modify {α : Type} {l : List α} {f : α → α} {w : α → Nat} {n i : Nat} (hi : i < l.length)
    (hf : ∀ a, w (f a) = w a + n) : ((l.modify i f).map w).sum = (l.map w).sum + n := by
  induction l generalizing i with
  | nil => simp at hi
  | cons a l ih =>
    cases i with
    | zero =>
      simp only [List.modify_zero_cons, List.map_cons, List.sum_cons, hf]
      omega
    | succ i =>
      have ht := ih (Nat.lt_of_succ_lt_succ hi)
      simp only [List.modify_succ_cons, List.map_cons, List.sum_cons, ht]
      omega

namespace CallGraph

inductive Op where
  | addEdge (caller callee : SymbolKey)
  | link (call : Call)

def apply (g : CallGraph) : Op → CallGraph
  | .addEdge caller callee => (g.addEdge caller callee).1
  | .link call => (g.link call).1

def run (g : CallGraph) (ops : List Op) : CallGraph := ops.foldl apply g

def callsAt (g : CallGraph) (i : Nat) : List Nat :=
  ((g.registry.declaration? i).map (·.calls)).getD []

def calledByAt (g : CallGraph) (i : Nat) : List Nat :=
  ((g.registry.declaration? i).map (·.calledBy)).getD []

def callSitesAt (g : CallGraph) (i : Nat) : Nat :=
  ((g.registry.declaration? i).map (·.callSites)).getD 0

variable {g : CallGraph} {i j : Nat}

lemma isCallable_iff : g.isCallable i = true ↔
    ∃ d, g.registry.declaration? i = some d ∧ d.kind.isCallable = true := by
  cases hd : g.registry.declaration? i <;> simp [isCallable, hd]

lemma hasEdge_iff : g.hasEdge i j = true ↔ j ∈ g.callsAt i := by
  cases hd : g.registry.declaration? i <;> simp [hasEdge, callsAt, hd]

lemma lt_of_isCallable (h : g.isCallable i = true) : i < g.registry.declarations.length := by
  obtain ⟨d, hd, _⟩ := isCallable_iff.mp h
  exact Registry.declaration?_lt hd

lemma exists_of_lt (hi : i < g.registry.declarations.length) : ∃ d, g.registry.declaration? i = some d :=
  ⟨_, List.getElem?_eq_getElem hi⟩

lemma callsAt_connect (hi : i < g.registry.declarations.length) (k : Nat) :
    (g.connect i j).callsAt k = if i = k then g.callsAt k ++ [j] else g.callsAt k := by
  obtain ⟨d, hd⟩ := exists_of_lt hi
  simp only [callsAt, connect, Registry.declaration?_modifyDeclaration, Option.map_map]
  by_cases hk : i = k
  · subst hk
    by_cases hj : j = i <;> simp [hd, hj]
  · cases g.registry.declaration? k <;> by_cases hj : j = k <;> simp [hk, hj]

lemma calledByAt_connect (hj : j < g.registry.declarations.length) (k : Nat) :
    (g.connect i j).calledByAt k = if j = k then g.calledByAt k ++ [i] else g.calledByAt k := by
  obtain ⟨d, hd⟩ := exists_of_lt hj
  simp only [calledByAt, connect, Registry.declaration?_modifyDeclaration, Option.map_map]
  by_cases hk : j = k
  · subst hk
    by_cases hi : i = j <;> simp [hd, hi]
  · cases g.registry.declaration? k <;> by_cases hi : i = k <;> simp [hk, hi]

lemma callSitesAt_connect (k : Nat) : (g.connect i j).callSitesAt k = g.callSitesAt k := by
  simp only [callSitesAt, connect, Registry.declaration?_modifyDeclaration, Option.map_map]
  cases g.registry.declaration? k <;> by_cases hi : i = k <;> by_cases hj : j = k <;> simp [hi, hj]

lemma callsAt_countAt (k : Nat) : (g.countAt j).callsAt k = g.callsAt k := by
  simp only [callsAt, countAt, Registry.declaration?_modifyDeclaration, Option.map_map]
  cases g.registry.declaration? k <;> by_cases hj : j = k <;> simp [hj]

lemma calledByAt_countAt (k : Nat) : (g.countAt j).calledByAt k = g.calledByAt k := by
  simp only [calledByAt, countAt, Registry.declaration?_modifyDeclaration, Option.map_map]
  cases g.registry.declaration? k <;> by_cases hj : j = k <;> simp [hj]

lemma callSitesAt_countAt (hj : j < g.registry.declarations.length) (k : Nat) :
    (g.countAt j).callSitesAt k = if j = k then g.callSitesAt k + 1 else g.callSitesAt k := by
  obtain ⟨d, hd⟩ := exists_of_lt hj
  simp only [callSitesAt, countAt, Registry.declaration?_modifyDeclaration, Option.map_map]
  by_cases hk : j = k
  · subst hk
    simp [hd]
  · cases g.registry.declaration? k <;> simp [hk]

lemma connect_bare : (g.connect i j).registry.bare = g.registry.bare := by
  rw [connect, Registry.modifyDeclaration_bare, Registry.modifyDeclaration_bare]
  · exact fun d => rfl
  · exact fun d => rfl

lemma countAt_bare : (g.countAt j).registry.bare = g.registry.bare :=
  Registry.modifyDeclaration_bare _ _ fun _ => rfl

lemma isCallable_of_bare_eq {g' : CallGraph} (hb : g'.registry.bare = g.registry.bare) (k : Nat) :
    g'.isCallable k = g.isCallable k := by
  rw [isCallable, Registry.map_declaration?_of_bare_eq hb k _ (fun _ => rfl), isCallable]

lemma declarationId?_of_bare_eq {g' : CallGraph} (hb : g'.registry.bare = g.registry.bare)
    (key : SymbolKey) : g'.registry.declarationId? key = g.registry.declarationId? key := by
  rw [Registry.declarationId?, (Registry.bare_eq_iff.mp hb).2.2.2.2, Registry.declarationId?]

/-- What a new edge adds to a total over the declarations: `m` at the caller and `n` at the callee. -/
lemma sum_connect {w : Declaration → Nat} {m n : Nat} (hi : i < g.registry.declarations.length)
    (hj : j < g.registry.declarations.length)
    (hm : ∀ d : Declaration, w { d with calls := d.calls ++ [j] } = w d + m)
    (hn : ∀ d : Declaration, w { d with calledBy := d.calledBy ++ [i] } = w d + n) :
    ((g.connect i j).registry.declarations.map w).sum =
      (g.registry.declarations.map w).sum + m + n := by
  simp only [connect, Registry.modifyDeclaration]
  rw [sum_map_modify (by simpa using hj) hn, sum_map_modify hi hm]

lemma sum_countAt {w : Declaration → Nat} {n : Nat} (hj : j < g.registry.declarations.length)
    (hn : ∀ d : Declaration, w { d with callSites := d.callSites + 1 } = w d + n) :
    ((g.countAt j).registry.declarations.map w).sum = (g.registry.declarations.map w).sum + n :=
  sum_map_modify hj hn

structure Consistent (g : CallGraph) : Prop where
  wellFormed : g.registry.WellFormed
  callable_ends : ∀ {i j}, j ∈ g.callsAt i → g.isCallable i = true ∧ g.isCallable j = true
  calls_nodup : ∀ i, (g.callsAt i).Nodup
  calledBy_nodup : ∀ i, (g.calledByAt i).Nodup
  symmetric : ∀ {i j}, j ∈ g.callsAt i ↔ i ∈ g.calledByAt j
  edgeCount_calls : g.edgeCount = (g.registry.declarations.map (·.calls.length)).sum
  edgeCount_calledBy : g.edgeCount = (g.registry.declarations.map (·.calledBy.length)).sum
  callSiteCount_eq : g.callSiteCount = (g.registry.declarations.map (·.callSites)).sum

lemma Consistent.connect (h : g.Consistent) (hi : g.isCallable i = true) (hj : g.isCallable j = true)
    (hnew : j ∉ g.callsAt i) : (g.connect i j).Consistent where
  wellFormed := h.wellFormed.of_bare_eq connect_bare
  callable_ends {k l} hl := by
    rw [isCallable_of_bare_eq connect_bare, isCallable_of_bare_eq connect_bare]
    rw [callsAt_connect (lt_of_isCallable hi)] at hl
    split at hl
    next hk =>
      rcases List.mem_append.mp hl with hl | hl
      · exact h.callable_ends hl
      · obtain rfl := List.mem_singleton.mp hl
        exact ⟨hk ▸ hi, hj⟩
    next => exact h.callable_ends hl
  calls_nodup k := by
    rw [callsAt_connect (lt_of_isCallable hi)]
    split
    next hk =>
      subst hk
      simpa using List.Nodup.concat hnew (h.calls_nodup i)
    next => exact h.calls_nodup k
  calledBy_nodup k := by
    rw [calledByAt_connect (lt_of_isCallable hj)]
    split
    next hk =>
      subst hk
      -- only the other end was looked at, so symmetry says that the caller is new here too
      have hnew' : i ∉ g.calledByAt j := fun hm => hnew (h.symmetric.mpr hm)
      simpa using List.Nodup.concat hnew' (h.calledBy_nodup j)
    next => exact h.calledBy_nodup k
  symmetric {k l} := by
    rw [callsAt_connect (lt_of_isCallable hi), calledByAt_connect (lt_of_isCallable hj)]
    by_cases hk : i = k <;> by_cases hl : j = l <;> simp [hk, hl, h.symmetric, Ne.symm]
  edgeCount_calls := by
    have hsum := sum_connect (w := (·.calls.length)) (lt_of_isCallable hi) (lt_of_isCallable hj)
      (m := 1) (n := 0) (fun d => List.length_append) (fun d => rfl)
    rw [hsum, ← h.edgeCount_calls]
    rfl
  edgeCount_calledBy := by
    have hsum := sum_connect (w := (·.calledBy.length)) (lt_of_isCallable hi) (lt_of_isCallable hj)
      (m := 0) (n := 1) (fun d => rfl) (fun d => List.length_append)
    rw [hsum, ← h.edgeCount_calledBy]
    rfl
  callSiteCount_eq := by
    have hsum := sum_connect (w := (·.callSites)) (lt_of_isCallable hi) (lt_of_isCallable hj)
      (m := 0) (n := 0) (fun d => rfl) (fun d => rfl)
    rw [hsum, ← h.callSiteCount_eq]
    rfl

lemma Consistent.countAt (h : g.Consistent) (hj : j < g.registry.declarations.length) :
    (g.countAt j).Consistent where
  wellFormed := h.wellFormed.of_bare_eq countAt_bare
  callable_ends hl := by
    rw [isCallable_of_bare_eq countAt_bare, isCallable_of_bare_eq countAt_bare]
    exact h.callable_ends (callsAt_countAt _ ▸ hl)
  calls_nodup k := callsAt_countAt (g := g) k ▸ h.calls_nodup k
  calledBy_nodup k := calledByAt_countAt (g := g) k ▸ h.calledBy_nodup k
  symmetric := by
    intro k l
    rw [callsAt_countAt, calledByAt_countAt]
    exact h.symmetric
  edgeCount_calls := by
    have hsum := sum_countAt (w := (·.calls.length)) (n := 0) hj (fun d => rfl)
    rw [hsum, ← h.edgeCount_calls]
    rfl
  edgeCount_calledBy := by
    have hsum := sum_countAt (w := (·.calledBy.length)) (n := 0) hj (fun d => rfl)
    rw [hsum, ← h.edgeCount_calledBy]
    rfl
  callSiteCount_eq := by
    have hsum := sum_countAt (w := (·.callSites)) (n := 1) hj (fun d => rfl)
    rw [hsum, ← h.callSiteCount_eq]
    rfl

def ensure (g : CallGraph) (i j : Nat) : CallGraph := if g.hasEdge i j then g else g.connect i j

lemma ensure_of_mem (h : j ∈ g.callsAt i) : g.ensure i j = g := if_pos (hasEdge_iff.mpr h)

lemma ensure_of_notMem (h : j ∉ g.callsAt i) : g.ensure i j = g.connect i j :=
  if_neg fun he => h (hasEdge_iff.mp he)

lemma ensure_bare : (g.ensure i j).registry.bare = g.registry.bare := by
  by_cases h : j ∈ g.callsAt i
  · rw [ensure_of_mem h]
  · rw [ensure_of_notMem h, connect_bare]

lemma Consistent.ensure (h : g.Consistent) (hi : g.isCallable i = true) (hj : g.isCallable j = true) :
    (g.ensure i j).Consistent := by
  by_cases hm : j ∈ g.callsAt i
  · rwa [ensure_of_mem hm]
  · rw [ensure_of_notMem hm]
    exact h.connect hi hj hm

/-- The ends of the edge that a call makes, if both of its keys are registered and callable. -/
def live? (g : CallGraph) (call : Call) : Option (Nat × Nat) :=
  (g.registry.declarationId? call.caller).bind fun i =>
    (g.registry.declarationId? call.callee).bind fun j =>
      if g.isCallable i && g.isCallable j then some (i, j) else none

lemma live?_eq_some_iff {call : Call} : g.live? call = some (i, j) ↔
    g.registry.declarationId? call.caller = some i ∧ g.registry.declarationId? call.callee = some j ∧
      g.isCallable i = true ∧ g.isCallable j = true := by
  simp only [live?, Option.bind_eq_some_iff, Option.ite_none_right_eq_some, Bool.and_eq_true,
    Option.some.injEq, Prod.mk.injEq]
  constructor
  · rintro ⟨_, hi, _, hj, hc, rfl, rfl⟩
    exact ⟨hi, hj, hc⟩
  · rintro ⟨hi, hj, hc⟩
    exact ⟨i, hi, j, hj, hc, rfl, rfl⟩

lemma live?_of_bare_eq {g' : CallGraph} (hb : g'.registry.bare = g.registry.bare) :
    g'.live? = g.live? := by
  funext call
  simp only [live?, declarationId?_of_bare_eq hb, isCallable_of_bare_eq hb]

lemma addEdge_eq (g : CallGraph) (caller callee : SymbolKey) :
    (g.addEdge caller callee).1 = (g.live? ⟨caller, callee⟩).elim g (fun e => g.ensure e.1 e.2) ∧
      (g.addEdge caller callee).2.isPresent = (g.live? ⟨caller, callee⟩).isSome := by
  cases hi : g.registry.declarationId? caller with
  | none => simp [addEdge, live?, hi, EdgeOutcome.isPresent]
  | some i =>
    cases hj : g.registry.declarationId? callee with
    | none => simp [addEdge, live?, hi, hj, EdgeOutcome.isPresent]
    | some j =>
      cases hci : g.isCallable i <;> cases hcj : g.isCallable j <;> cases he : g.hasEdge i j <;>
        simp [addEdge, live?, hi, hj, hci, hcj, he, ensure, EdgeOutcome.isPresent]

lemma addEdge_cases (g : CallGraph) (caller callee : SymbolKey) :
    (g.live? ⟨caller, callee⟩ = none ∧ (g.addEdge caller callee).1 = g) ∨
      ∃ i j, g.live? ⟨caller, callee⟩ = some (i, j) ∧ (g.addEdge caller callee).1 = g.ensure i j := by
  have he := (addEdge_eq g caller callee).1
  cases hl : g.live? ⟨caller, callee⟩ with
  | none => exact Or.inl ⟨rfl, by simpa [hl] using he⟩
  | some e => exact Or.inr ⟨e.1, e.2, rfl, by simpa [hl] using he⟩

lemma link_cases (g : CallGraph) (call : Call) :
    (g.live? call = none ∧ (g.link call).1 = g) ∨
      ∃ i j, g.live? call = some (i, j) ∧ (g.link call).1 = (g.ensure i j).countAt j := by
  obtain ⟨he, ho⟩ := addEdge_eq g call.caller call.callee
  cases hl : g.live? call with
  | none =>
    rw [hl] at he ho
    exact Or.inl ⟨rfl, by simpa [link, ho] using he⟩
  | some e =>
    obtain ⟨i, j⟩ := e
    rw [hl] at he ho
    have hj : (g.ensure i j).registry.declarationId? call.callee = some j :=
      (declarationId?_of_bare_eq ensure_bare _).trans (live?_eq_some_iff.mp hl).2.1
    exact Or.inr ⟨i, j, rfl, by simp [link, ho, he, countSite, hj]⟩

lemma lt_ensure_of_live? {call : Call} (h : g.live? call = some (i, j)) :
    j < (g.ensure i j).registry.declarations.length :=
  lt_of_isCallable ((isCallable_of_bare_eq ensure_bare j).trans (live?_eq_some_iff.mp h).2.2.2)

lemma link_bare (g : CallGraph) (call : Call) : (g.link call).1.registry.bare = g.registry.bare := by
  obtain ⟨_, he⟩ | ⟨i, j, _, he⟩ := link_cases g call
  · rw [he]
  · rw [he, countAt_bare, ensure_bare]

lemma Consistent.addEdge (h : g.Consistent) (caller callee : SymbolKey) :
    (g.addEdge caller callee).1.Consistent := by
  obtain ⟨_, he⟩ | ⟨i, j, hl, he⟩ := addEdge_cases g caller callee
  · rwa [he]
  · rw [he]
    obtain ⟨_, _, hi, hj⟩ := live?_eq_some_iff.mp hl
    exact h.ensure hi hj

lemma Consistent.link (h : g.Consistent) (call : Call) : (g.link call).1.Consistent := by
  obtain ⟨_, he⟩ | ⟨i, j, hl, he⟩ := link_cases g call
  · rwa [he]
  · rw [he]
    obtain ⟨_, _, hi, hj⟩ := live?_eq_some_iff.mp hl
    exact (h.ensure hi hj).countAt (lt_ensure_of_live? hl)

lemma Consistent.run (h : g.Consistent) (ops : List Op) : (g.run ops).Consistent := by
  induction ops generalizing g with
  | nil => exact h
  | cons op ops ih =>
    apply ih
    cases op with
    | addEdge caller callee => exact h.addEdge caller callee
    | link call => exact h.link call

end CallGraph

end CallAtlas
