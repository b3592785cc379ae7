import CallAtlas.Proofs.Balance
import CallAtlas.Proofs.KeyText
import CallAtlas.Report.Graph

/-! The graph report names its nodes by the text of their keys, and its edges and counts fit its nodes. -/

namespace CallAtlas

lemma filter_eq_singleton {α β : Type} [DecidableEq β] {l : List α} {f : α → β} {a : α}
    (hn : (l.map f).Nodup) (ha : a ∈ l) : l.filter (fun b => f b = f a) = [a] := by
  induction l with
  | nil => cases ha
  | cons b l ih =>
    obtain ⟨hb, hn⟩ := List.nodup_cons.mp hn
    rcases List.mem_cons.mp ha with rfl | ha
    · have hrest : l.filter (fun b => f b = f a) = [] := by
        rw [List.filter_eq_nil_iff]
        intro c hc hca
        exact hb (List.mem_map.mpr ⟨c, hc, of_decide_eq_true hca⟩)
      simp [hrest]
    · have hba : f b ≠ f a := by
        intro hba
        exact hb (List.mem_map.mpr ⟨a, ha, hba.symm⟩)
      simp [hba, ih hn ha]

lemma callSites_of_linked {us : List PackagedUnit} {d : Declaration}
    (hd : d ∈ (linked us).registry.declarations) :
    d.calledBy.length ≤ d.callSites ∧ (d.calledBy.length = 0 ↔ d.callSites = 0) := by
  have hc := linked_consistent us
  obtain ⟨i, hi⟩ := List.mem_iff_getElem?.mp hd
  have hi' : (linked us).registry.declaration? i = some d := hi
  have hle := linked_counted us i
  rw [CallGraph.calledByAt_eq hi', CallGraph.callSitesAt, hi'] at hle
  refine ⟨hle, fun hnone => ?_, fun hnone => Nat.le_zero.mp (hnone ▸ hle)⟩
  have hsites : d.callSites = (linked us).callSitesOf d.key := by
    have hid := hc.wellFormed.declarationId_iff.mpr ⟨d, hi', rfl⟩
    rw [CallGraph.callSitesOf_eq hid, CallGraph.callSitesAt, hi']
    rfl
  rw [hsites, linked_callSitesOf, List.countP_eq_zero]
  intro x hx hlinks
  simp only [decide_eq_true_eq] at hlinks
  obtain ⟨a, ha⟩ := hlinks
  have hedge := mem_linked_edgeKeys.mpr ⟨x, hx, ha⟩
  rw [hc.calledBy_length hd, List.countP_eq_zero] at hnone
  exact hnone _ hedge (by simp)

namespace Report

/-- No two declarations of a graph have keys of the same text. -/
def TextTellsKey (g : CallGraph) : Prop :=
  ∀ d ∈ g.registry.declarations, ∀ e ∈ g.registry.declarations, d.key.text = e.key.text → d.key = e.key

lemma textTellsKey_linked {inputs : List UnitInput} (h : PlainNames inputs) (module : Option String) :
    TextTellsKey (linked (packagedUnits module inputs)) := by
  intro d hd e he htext
  have hplain := h.declared (mem_declared_of_linked hd)
  exact hplain.text_injective (h.declared (mem_declared_of_linked he)) htext

variable {g : CallGraph}

lemma TextTellsKey.nodeIds_nodup (ht : TextTellsKey g) (h : g.Consistent) :
    ((g.registry.declarations.map GraphNode.ofDeclaration).map (·.id)).Nodup := by
  rw [List.map_map]
  have hkeys : (g.registry.declarations.map (·.key)).Nodup := h.wellFormed.declaration_keys_nodup
  refine List.Nodup.map_on ?_ (hkeys.of_map _)
  intro d hd e he htext
  exact List.inj_on_of_nodup_map hkeys hd he (ht d hd e he htext)

lemma TextTellsKey.edges_nodup (ht : TextTellsKey g) (h : g.Consistent) :
    (g.edges.map GraphEdge.ofEdge).Nodup := by
  have hkeys : (g.edges.map fun e => (e.caller.key, e.callee.key)).Nodup := h.edgeKeys_nodup
  refine List.Nodup.map_on ?_ (hkeys.of_map _)
  intro e he e' he' htext
  obtain ⟨hcaller, hcallee⟩ := GraphEdge.mk.inj htext
  obtain ⟨⟨hd, _⟩, hc, _⟩ := h.callable_of_mem_edges he
  obtain ⟨⟨hd', _⟩, hc', _⟩ := h.callable_of_mem_edges he'
  apply List.inj_on_of_nodup_map hkeys he he'
  rw [ht _ hd _ hd' hcaller, ht _ hc _ hc' hcallee]

lemma TextTellsKey.callers_eq (ht : TextTellsKey g) (h : g.Consistent) {d : Declaration}
    (hd : d ∈ g.registry.declarations) :
    d.calledBy.length = (g.edges.map GraphEdge.ofEdge).countP (·.target = d.key.text) := by
  rw [h.calledBy_length hd, CallGraph.edgeKeys, List.countP_map, List.countP_map]
  apply List.countP_congr
  intro e he
  have hc := (h.callable_of_mem_edges he).2.1
  constructor
  · intro hkey
    exact decide_eq_true (congrArg SymbolKey.text (of_decide_eq_true hkey))
  · intro htext
    exact decide_eq_true (ht _ hc _ hd (of_decide_eq_true htext))

lemma TextTellsKey.unique_node (ht : TextTellsKey g) (h : g.Consistent) {d : Declaration}
    (hd : d ∈ g.registry.declarations) (hcallable : d.kind.isCallable = true) :
    ∃ n, (g.registry.declarations.map GraphNode.ofDeclaration).filter (·.id = d.key.text) = [n] ∧
      (n.kind = .function ∨ n.kind = .method) := by
  refine ⟨.ofDeclaration d, filter_eq_singleton (ht.nodeIds_nodup h) (List.mem_map_of_mem hd), ?_⟩
  change d.kind = .function ∨ d.kind = .method
  cases hk : d.kind <;> simp_all [SymbolKind.isCallable]

theorem graph_is_self_consistent (rootName : String) (module : Option String) (inputs : List UnitInput)
    (census : Option Census) (h : PlainNames inputs) :
    let m := analyze rootName module inputs
    let g := Graph.ofModel m census
    (g.nodes.map (·.id)).Nodup ∧
    (∀ e ∈ g.edges, ∀ id ∈ [e.source, e.target],
      ∃ n, g.nodes.filter (·.id = id) = [n] ∧ (n.kind = .function ∨ n.kind = .method)) ∧
    g.edges.Nodup ∧
    (∀ n ∈ g.nodes, n.callers = g.edges.countP (·.target = n.id) ∧ n.callers ≤ n.callSites ∧
      (n.callers = 0 ↔ n.callSites = 0)) ∧
    g.nodes.length = m.statistics.declarations ∧ g.edges.length = m.statistics.callEdges ∧
    (g.nodes.map (·.callSites)).sum = m.statistics.callSites := by
  intro m g
  have hg : m.graph = linked (packagedUnits module inputs) := analyze_graph rootName module inputs
  have hc : m.graph.Consistent := hg ▸ linked_consistent _
  have ht : TextTellsKey m.graph := hg ▸ textTellsKey_linked h module
  have hnodes : g.nodes = m.graph.registry.declarations.map .ofDeclaration := rfl
  have hedges : g.edges = m.graph.edges.map .ofEdge := rfl
  have hstats : m.statistics.declarations = m.graph.registry.declarations.length ∧
      m.statistics.callEdges = m.graph.edgeCount ∧ m.statistics.callSites = m.graph.callSiteCount :=
    ⟨rfl, rfl, rfl⟩
  rw [hnodes, hedges]
  refine ⟨ht.nodeIds_nodup hc, ?_, ht.edges_nodup hc, ?_, ?_, ?_, ?_⟩
  · intro e' he' id hid
    obtain ⟨e, he, rfl⟩ := List.mem_map.mp he'
    obtain ⟨⟨hd, hdc⟩, hd', hdc'⟩ := hc.callable_of_mem_edges he
    rcases List.mem_pair.mp hid with rfl | rfl
    · exact ht.unique_node hc hd hdc
    · exact ht.unique_node hc hd' hdc'
  · intro n hn
    obtain ⟨d, hd, rfl⟩ := List.mem_map.mp hn
    exact ⟨ht.callers_eq hc hd, callSites_of_linked (hg ▸ hd)⟩
  · rw [List.length_map, hstats.1]
  · rw [List.length_map, hc.edges_length, hstats.2.1]
  · rw [List.map_map, hstats.2.2, hc.callSiteCount_eq]
    rfl

/-- Two packages whose paths hold the marks that join names, and a function that calls both. -/
def dottedPaths : List UnitInput :=
  [⟨"b.c/x.go", .ok ⟨some "p", [⟨none, "m.io/a:b/b:p"⟩], [.func ⟨"F", none, 3,
      [.call (.selector (.name "b:p") "F") [.call (.name "G") []], .call (.name "G") []]⟩,
    .func ⟨"G", none, 9, []⟩, .type "T" .struct 12, .func ⟨"F", some ⟨some "T"⟩, 14, []⟩], 15⟩⟩,
   ⟨"b:p/y.go", .ok ⟨some "p", [], [.func ⟨"F", none, 3, []⟩], 4⟩⟩]

lemma plainNames_dottedPaths : PlainNames dottedPaths := by
  intro input hinput unit hunit
  simp only [dottedPaths, List.mem_cons, List.not_mem_nil, or_false] at hinput
  rcases hinput with rfl | rfl
  all_goals
    cases hunit
    decide

theorem dottedPaths_graph :
    let m := analyze "r" (some "m.io/a:b") dottedPaths
    let g := Graph.ofModel m none
    PlainNames dottedPaths ∧ g.edges.length = 2 ∧ m.statistics.callSites = 3 ∧
    (g.nodes.map (·.id)).Nodup ∧
    (∀ e ∈ g.edges, ∀ id ∈ [e.source, e.target],
      ∃ n, g.nodes.filter (·.id = id) = [n] ∧ (n.kind = .function ∨ n.kind = .method)) := by
  intro m g
  obtain ⟨hids, hends, -⟩ :=
    graph_is_self_consistent "r" (some "m.io/a:b") dottedPaths none plainNames_dottedPaths
  exact ⟨plainNames_dottedPaths, by decide +kernel, by decide +kernel, hids, hends⟩

end Report

end CallAtlas
