import CallAtlas.Proofs.KeyText
import CallAtlas.Report.Markdown

/-! The Mermaid graph has a node for each function and method and a line for each edge, and none of them
merge: the number of a declaration can be read off the end of its node id. -/

namespace CallAtlas

lemma isAsciiAlphanumeric_iff {c : Char} : isAsciiAlphanumeric c = true ↔
    'A' ≤ c ∧ c ≤ 'Z' ∨ 'a' ≤ c ∧ c ≤ 'z' ∨ '0' ≤ c ∧ c ≤ '9' := by
  have hupper : c.isUpper = true ↔ 'A' ≤ c ∧ c ≤ 'Z' := decide_eq_true_iff
  have hlower : c.isLower = true ↔ 'a' ≤ c ∧ c ≤ 'z' := by
    change (decide ('a' ≤ c) && decide (c ≤ 'z')) = true ↔ _
    simp
  have hdigit : c.isDigit = true ↔ '0' ≤ c ∧ c ≤ '9' := by
    change (decide ('0' ≤ c) && decide (c ≤ '9')) = true ↔ _
    simp
  change (c.isUpper || c.isLower || c.isDigit) = true ↔ _
  rw [Bool.or_eq_true, Bool.or_eq_true, hupper, hlower, hdigit, or_assoc]

namespace Declaration

variable {d e : Declaration}

lemma nodeId_chars {c : Char} (hc : c ∈ d.nodeId.toList) : isAsciiAlphanumeric c = true ∨ c = '_' := by
  simp only [nodeId, String.toList_append, String.toList_ofList, List.mem_append, List.mem_map,
    Nat.toList_repr] at hc
  rcases hc with (⟨x, _, rfl⟩ | hmark) | hdigit
  · split
    next hx => exact Or.inl hx
    next => exact Or.inr rfl
  · exact Or.inr (by simpa using hmark)
  · have hd := Nat.isDigit_of_mem_toDigits (by decide) (by decide) hdigit
    exact Or.inl (by simp [isAsciiAlphanumeric, hd])

lemma id_eq_of_nodeId_eq (h : d.nodeId = e.nodeId) : d.id = e.id := by
  have hmark : ∀ n : Nat, '_' ∉ n.repr.toList := by
    intro n
    rw [Nat.toList_repr]
    exact Nat.underscore_not_in_toDigits
  obtain ⟨_, hrepr⟩ := Text.cut_at_last rfl (hmark d.id) (hmark e.id) h
  have hdigits : Nat.toDigits 10 d.id = Nat.toDigits 10 e.id := by
    rw [← Nat.toList_repr, ← Nat.toList_repr, hrepr]
  calc d.id = Nat.ofDigitChars 10 (Nat.toDigits 10 d.id) 0 := Nat.ofDigitChars_ten_toDigits.symm
    _ = e.id := by rw [hdigits, Nat.ofDigitChars_ten_toDigits]

end Declaration

namespace Registry

variable {r : Registry}

lemma WellFormed.eq_of_nodeId_eq (h : r.WellFormed) {d e : Declaration} (hd : d ∈ r.declarations)
    (he : e ∈ r.declarations) (hid : d.nodeId = e.nodeId) : d = e := by
  obtain ⟨i, hi⟩ := List.mem_iff_getElem?.mp hd
  obtain ⟨j, hj⟩ := List.mem_iff_getElem?.mp he
  have hij : i = j := by
    rw [← h.declaration_id hi, ← h.declaration_id hj, Declaration.id_eq_of_nodeId_eq hid]
  subst hij
  exact Option.some.inj (hi.symm.trans hj)

lemma WellFormed.nodeIds_nodup (h : r.WellFormed) : (r.declarations.map (·.nodeId)).Nodup := by
  have hkeys : (r.declarations.map (·.key)).Nodup := h.declaration_keys_nodup
  refine List.Nodup.map_on ?_ (hkeys.of_map _)
  intro d hd e he
  exact h.eq_of_nodeId_eq hd he

end Registry

namespace Report

lemma Mermaid.text_edge_injective {d d' e e' : Declaration}
    (h : (Line.edge d.nodeId d'.nodeId).text = (Line.edge e.nodeId e'.nodeId).text) :
    d.nodeId = e.nodeId ∧ d'.nodeId = e'.nodeId := by
  have hblank : ∀ x : Declaration, ' ' ∉ x.nodeId.toList := by
    intro x hx
    rcases Declaration.nodeId_chars hx with hc | hc
    · exact absurd hc (by decide)
    · exact absurd hc (by decide)
  have hcut : ∀ s t : String, (Line.edge s t).text = ("    " ++ s ++ " -->") ++ " " ++ t := by
    intro s t
    simp [Line.text, String.append_assoc]
  rw [hcut, hcut] at h
  obtain ⟨hsource, htarget⟩ := Text.cut_at_last rfl (hblank d') (hblank e') h
  refine ⟨?_, htarget⟩
  rw [← String.toList_inj] at hsource ⊢
  simpa using hsource

lemma Mermaid.edge_eq_of_text_eq {g : CallGraph} (h : g.Consistent) {e e' : Edge} (he : e ∈ g.edges)
    (he' : e' ∈ g.edges) (htext : (Line.edge e.caller.nodeId e.callee.nodeId).text =
      (Line.edge e'.caller.nodeId e'.callee.nodeId).text) : e = e' := by
  obtain ⟨⟨hd, _⟩, hd', _⟩ := h.callable_of_mem_edges he
  obtain ⟨⟨hf, _⟩, hf', _⟩ := h.callable_of_mem_edges he'
  obtain ⟨hcaller, hcallee⟩ := text_edge_injective htext
  cases e
  cases e'
  rw [Edge.mk.injEq]
  exact ⟨h.wellFormed.eq_of_nodeId_eq hd hf hcaller, h.wellFormed.eq_of_nodeId_eq hd' hf' hcallee⟩

/-- The document holds the Mermaid graph, fenced off from what stands before and after it. -/
lemma exists_lines_eq (r : Report) : ∃ before after, Markdown.lines r =
    before ++ (["```mermaid", "graph TD"] ++ (Mermaid.lines r.model).map (·.text) ++ ["```"]) ++ after := by
  refine ⟨["## Code Structure Analysis", "", "*Created at: " ++ r.createdAt ++ "*", ""] ++
      Markdown.statistics r ++ Markdown.module r ++ Markdown.entries r ++ Markdown.directories r ++
      Markdown.folded "Code Structure" "bash" r.model.treeLines ++
      ["## Function Call Graph", "", "<details>", "<summary>View Function Call Graph</summary>", ""],
    ["</details>", ""] ++ Markdown.mostCalledTable r ++
      ["", "---", "*This document was automatically generated by gomap*"], ?_⟩
  simp [Markdown.lines, Markdown.callGraph, Markdown.folded]

lemma exists_markdown_eq (r : Report) : ∃ before after, r.markdown = before ++ "```mermaid\ngraph TD\n" ++
    String.join ((Mermaid.lines r.model).map (·.text ++ "\n")) ++ "```\n" ++ after := by
  obtain ⟨before, after, hlines⟩ := exists_lines_eq r
  refine ⟨String.join (before.map (· ++ "\n")), String.join (after.map (· ++ "\n")), ?_⟩
  have hopen : String.join (["```mermaid", "graph TD"].map (· ++ "\n")) = "```mermaid\ngraph TD\n" := rfl
  have hclose : String.join (["```"].map (· ++ "\n")) = "```\n" := rfl
  rw [markdown, hlines]
  simp only [List.map_append, List.map_map, String.join_append, hopen, hclose, String.append_assoc]
  rfl

lemma callables_eq (m : CodeModel) :
    m.callables = m.registry.declarations.filter fun d => d.kind = .function ∨ d.kind = .method :=
  filter_isCallable _

end Report

end CallAtlas
