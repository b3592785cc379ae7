import CallAtlas.Proofs.GraphCounts
import CallAtlas.Report.Markdown

/-! The ranking of the functions and methods by their callers, and the table that shows the head of it. -/

namespace CallAtlas

section StableSort

variable {α : Type} {le : α → α → Bool}

lemma pairwise_mergeSort_stable (htrans : ∀ a b c, le a b = true → le b c = true → le a c = true)
    (htotal : ∀ a b, (le a b || le b a) = true) {before : α → α → Prop} {l : List α}
    (hl : l.Pairwise before) :
    (l.mergeSort le).Pairwise fun a b => le a b = true ∧ (le b a = true → before a b) := by
  induction l with
  | nil => simp
  | cons a l ih =>
    obtain ⟨ha, hl⟩ := List.pairwise_cons.mp hl
    obtain ⟨front, back, hsort, hrest, hfront⟩ := List.mergeSort_cons htrans htotal a l
    have hsorted := List.pairwise_mergeSort htrans htotal (a :: l)
    have ih := ih hl
    rw [hsort] at hsorted
    rw [hrest] at ih
    obtain ⟨hpairs, hpairs', hcross⟩ := List.pairwise_append.mp ih
    rw [hsort, List.pairwise_append, List.pairwise_cons]
    refine ⟨hpairs, ⟨?_, hpairs'⟩, ?_⟩
    · intro b hb
      have hmem : b ∈ l := List.mem_mergeSort.mp (hrest ▸ List.mem_append_right front hb)
      have hle := List.rel_of_pairwise_cons (List.pairwise_append.mp hsorted).2.1 hb
      exact ⟨hle, fun _ => ha b hmem⟩
    · intro b hb c hc
      rcases List.mem_cons.mp hc with rfl | hc
      · -- what comes to stand before the head of the list is told apart from it
        have hno : le c b = false := by simpa using hfront b hb
        have hle : le b c = true := by simpa [hno] using htotal b c
        exact ⟨hle, fun h => absurd h (by simp [hno])⟩
      · exact hcross b hb c hc

lemma take_filter_of_pairwise {p : α → Bool} {l : List α}
    (h : l.Pairwise fun a b => p b = true → p a = true) (n : Nat) :
    (l.filter p).take n = (l.take n).filter p := by
  induction l generalizing n with
  | nil => simp
  | cons a l ih =>
    obtain ⟨ha, hl⟩ := List.pairwise_cons.mp h
    cases n with
    | zero => simp
    | succ n =>
      by_cases hp : p a = true
      · rw [List.take_succ_cons, List.filter_cons_of_pos hp, List.filter_cons_of_pos hp,
          List.take_succ_cons, ih hl]
      · -- nothing behind an element that is left out is kept
        have hnone : ∀ b ∈ a :: l, ¬p b = true := by
          intro b hb hpb
          rcases List.mem_cons.mp hb with rfl | hb
          · exact hp hpb
          · exact hp (ha b hb hpb)
        have hall : (a :: l).filter p = [] := List.filter_eq_nil_iff.mpr hnone
        have hhead : ((a :: l).take (n + 1)).filter p = [] :=
          List.filter_eq_nil_iff.mpr fun b hb => hnone b (List.mem_of_mem_take hb)
        rw [hall, hhead, List.take_nil]

end StableSort

lemma sum_map_filter {α : Type} {p : α → Bool} {w : α → Nat} {l : List α}
    (h : ∀ a ∈ l, p a = false → w a = 0) : ((l.filter p).map w).sum = (l.map w).sum := by
  induction l with
  | nil => rfl
  | cons a l ih =>
    obtain ⟨ha, hl⟩ := List.forall_mem_cons.mp h
    cases hp : p a with
    | true => rw [List.filter_cons_of_pos hp, List.map_cons, List.map_cons, List.sum_cons, List.sum_cons, ih hl]
    | false =>
      rw [List.filter_cons_of_neg (by simp [hp]), List.map_cons, List.sum_cons, ha hp, ih hl, Nat.zero_add]

lemma Registry.WellFormed.ids_increasing {r : Registry} (h : r.WellFormed) :
    r.declarations.Pairwise (·.id < ·.id) := by
  rw [List.pairwise_iff_getElem]
  intro i j hi hj hij
  rw [h.declaration_id (List.getElem?_eq_getElem hi), h.declaration_id (List.getElem?_eq_getElem hj)]
  exact hij

namespace CallGraph

variable {g : CallGraph}

def counted (g : CallGraph) : List (Declaration × Nat) :=
  (g.registry.declarations.filter (·.kind.isCallable)).map fun d => (d, d.calledBy.length)

lemma ranked_none (g : CallGraph) : g.ranked none = g.counted.mergeSort fun a b => b.2 ≤ a.2 := rfl

lemma ranked_some (g : CallGraph) (n : Nat) : g.ranked (some n) = (g.ranked none).take n := rfl

lemma ranked_perm (g : CallGraph) : (g.ranked none).Perm g.counted := List.mergeSort_perm _ _

lemma Consistent.ranked_pairwise (h : g.Consistent) :
    (g.ranked none).Pairwise fun a b => b.2 < a.2 ∨ a.2 = b.2 ∧ a.1.id < b.1.id := by
  have hids : g.counted.Pairwise (·.1.id < ·.1.id) := by
    rw [counted, List.pairwise_map]
    exact h.wellFormed.ids_increasing.filter _
  have htrans : ∀ a b c : Declaration × Nat, decide (b.2 ≤ a.2) = true → decide (c.2 ≤ b.2) = true →
      decide (c.2 ≤ a.2) = true := by
    simp only [decide_eq_true_eq]
    omega
  have htotal : ∀ a b : Declaration × Nat, (decide (b.2 ≤ a.2) || decide (a.2 ≤ b.2)) = true := by
    simp only [Bool.or_eq_true, decide_eq_true_eq]
    omega
  rw [ranked_none]
  refine (pairwise_mergeSort_stable htrans htotal hids).imp ?_
  intro a b hab
  simp only [decide_eq_true_eq] at hab
  rcases Nat.lt_or_eq_of_le hab.1 with hlt | heq
  · exact Or.inl hlt
  · exact Or.inr ⟨heq.symm, hab.2 (Nat.le_of_eq heq.symm)⟩

lemma Consistent.calledBy_of_not_callable (h : g.Consistent) {d : Declaration}
    (hd : d ∈ g.registry.declarations) (hk : d.kind.isCallable = false) : d.calledBy = [] := by
  obtain ⟨j, hj⟩ := List.mem_iff_getElem?.mp hd
  rw [List.eq_nil_iff_forall_not_mem]
  intro i hi
  obtain ⟨_, hcallable⟩ := h.callable_ends (h.symmetric.mpr (calledByAt_eq hj ▸ hi))
  obtain ⟨e, he, hek⟩ := isCallable_iff.mp hcallable
  obtain rfl := Option.some.inj (he.symm.trans hj)
  rw [hk] at hek
  cases hek

lemma Consistent.ranked_sum (h : g.Consistent) : ((g.ranked none).map (·.2)).sum = g.edgeCount := by
  rw [((ranked_perm g).map _).sum_nat, counted, List.map_map, h.edgeCount_calledBy]
  apply sum_map_filter
  intro d hd hk
  exact List.length_eq_zero_iff.mpr (h.calledBy_of_not_callable hd hk)

lemma Consistent.take_called (h : g.Consistent) (n : Nat) :
    ((g.ranked none).filter (0 < ·.2)).take n = (g.ranked (some n)).filter (0 < ·.2) := by
  rw [ranked_some]
  apply take_filter_of_pairwise
  refine h.ranked_pairwise.imp ?_
  intro a b hab
  simp only [decide_eq_true_eq]
  omega

open Report in
theorem ranking_orders_callables (packaged : List Registry.Op) (ops : List Op) :
    let g := (ofRegistry (Registry.empty.run packaged)).run ops
    let callables := g.registry.declarations.filter fun d => d.kind = .function ∨ d.kind = .method
    (g.ranked none).Perm (callables.map fun d => (d, d.calledBy.length)) ∧
    (g.ranked none).Pairwise (fun a b => b.2 < a.2 ∨ a.2 = b.2 ∧ a.1.id < b.1.id) ∧
    ((g.ranked none).map (·.2)).sum = g.edgeCount ∧
    (∀ n, g.ranked (some n) = (g.ranked none).take n) ∧
    ∀ (rootName : String) (module : Option String) (statistics : Statistics) (census : Option Census)
      (tree : Option DirTree) (createdAt : String) (limit : Option Nat),
      let report := Report.mk ⟨rootName, module, g, statistics⟩ census tree createdAt limit
      let called := (g.ranked limit).filter (0 < ·.2)
      Markdown.mostCalled report = called ∧
      (Markdown.mostCalledTable report).drop 4 = called.map fun x => Markdown.row
        [Markdown.displayName x.1, x.1.kind.word, x.1.file, x.2.repr, x.1.callSites.repr] := by
  intro g callables
  have hb : (Registry.empty.run packaged).bare = Registry.empty.run packaged :=
    Registry.bare_run rfl packaged
  have h : g.Consistent := (consistent_ofRegistry hb (Registry.wellFormed_empty.run packaged)).run ops
  refine ⟨?_, h.ranked_pairwise, h.ranked_sum, ranked_some g, ?_⟩
  · have hperm := ranked_perm g
    rwa [counted, filter_isCallable] at hperm
  · intro rootName module statistics census tree createdAt limit report called
    have hrows : Markdown.mostCalled report = called := by
      cases limit with
      | none => rfl
      | some n => exact h.take_called n
    refine ⟨hrows, ?_⟩
    rw [← hrows]
    rfl

end CallGraph

end CallAtlas
