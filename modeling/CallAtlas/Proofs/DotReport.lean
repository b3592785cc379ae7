import CallAtlas.Proofs.DotStrings
import CallAtlas.Proofs.GraphReport
import CallAtlas.Proofs.MermaidReport

/-! The DOT document, read statement by statement, declares each function and method once and joins declared
nodes only. -/

namespace CallAtlas.Report

namespace Dot

inductive Piece where
  | bare (text : String)
  | quoted (text : String)

namespace Piece

def text : Piece → List Char
  | .bare text => text.toList
  | .quoted text => '"' :: text.toList ++ ['"']

def tokens : Piece → List Token
  | .bare text => marks text.toList
  | .quoted text => [.quoted text]

def Sound : Piece → Prop
  | .bare text => text.toList.all isPlainChar = true
  | .quoted text => Inert text.toList

lemma Sound.lex_eq {p : Piece} (h : p.Sound) (rest : List Char) :
    lex .outside (p.text ++ rest) = p.tokens ++ lex .outside rest := by
  cases p with
  | bare text => exact lex_of_plain h rest
  | quoted text =>
    have hquoted := Inert.lex_quoted h rest
    rw [String.ofList_toList] at hquoted
    rw [Piece.text, List.append_assoc]
    exact hquoted

lemma lex_flatMap {ps : List Piece} (h : ∀ p ∈ ps, p.Sound) (rest : List Char) :
    lex .outside (ps.flatMap text ++ rest) = ps.flatMap tokens ++ lex .outside rest := by
  induction ps with
  | nil => rfl
  | cons p ps ih =>
    rw [List.forall_mem_cons] at h
    rw [List.flatMap_cons, List.append_assoc, h.1.lex_eq, ih h.2, List.flatMap_cons, List.append_assoc]

lemma Sound.semicolon_notMem {p : Piece} (h : p.Sound) : .mark ';' ∉ p.tokens := by
  cases p with
  | bare text =>
    intro hmem
    simp only [tokens, marks, List.mem_map, List.mem_filter, Token.mark.injEq, exists_eq_right] at hmem
    exact absurd (List.all_eq_true.mp h ';' hmem.1) (by decide)
  | quoted text => simp [tokens]

end Piece

namespace Statement

def pieces : Statement → List Piece
  | .node id label file line style =>
    [.bare "    ", .quoted (escape id), .bare " [label=", .quoted (escape label), .bare ", tooltip=",
     .quoted (escape file ++ ":" ++ line.repr), .bare (", shape=" ++ style.shape ++ ", style="),
     .quoted "filled,rounded", .bare ", fillcolor=", .quoted style.fill, .bare ", color=",
     .quoted style.border, .bare "]"]
  | .edge source target =>
    [.bare "    ", .quoted (escape source), .bare " -> ", .quoted (escape target)]

lemma text_eq (s : Statement) : s.text.toList = s.pieces.flatMap Piece.text ++ [';'] := by
  have hopen : "    \"".toList = "    ".toList ++ ['"'] := rfl
  cases s with
  | node id label file line style =>
    have hlabel : "\" [label=\"".toList = '"' :: " [label=".toList ++ ['"'] := rfl
    have htooltip : "\", tooltip=\"".toList = '"' :: ", tooltip=".toList ++ ['"'] := rfl
    have hshape : "\", shape=".toList = '"' :: ", shape=".toList := rfl
    have hfill : ", style=\"filled,rounded\", fillcolor=\"".toList = ", style=".toList ++
        '"' :: "filled,rounded".toList ++ '"' :: ", fillcolor=".toList ++ ['"'] := rfl
    have hcolor : "\", color=\"".toList = '"' :: ", color=".toList ++ ['"'] := rfl
    have hclose : "\"];".toList = '"' :: "]".toList ++ [';'] := rfl
    -- Rewriting by the equations of the two instead would evaluate the literals.
    unfold text pieces
    simp only [String.toList_append, hopen, hlabel, htooltip, hshape, hfill, hcolor, hclose, Piece.text,
      List.flatMap_cons, List.flatMap_nil, List.append_assoc, List.cons_append, List.nil_append]
  | edge source target =>
    have harrow : "\" -> \"".toList = '"' :: " -> ".toList ++ ['"'] := rfl
    have hclose : "\";".toList = ['"', ';'] := rfl
    unfold text pieces
    simp only [String.toList_append, hopen, harrow, hclose, Piece.text, List.flatMap_cons, List.flatMap_nil,
      List.append_assoc, List.cons_append, List.nil_append]

def Sound (s : Statement) : Prop := ∀ p ∈ s.pieces, p.Sound

def tokens (s : Statement) : List Token := s.pieces.flatMap Piece.tokens

lemma Sound.lex_eq {s : Statement} (h : s.Sound) (rest : List Char) :
    lex .outside (s.text.toList ++ rest) = s.tokens ++ .mark ';' :: lex .outside rest := by
  rw [text_eq, List.append_assoc, Piece.lex_flatMap h]
  rfl

lemma sound_edge (source target : String) : (edge source target).Sound := by
  unfold Sound pieces
  simp only [List.forall_mem_cons, List.not_mem_nil, false_implies, implies_true, and_true]
  exact ⟨rfl, inert_escape source, rfl, inert_escape target⟩

end Statement

def Style.isPlain (style : Style) : Bool :=
  style.shape.toList.all isPlainChar && style.fill.toList.all isPlainChar &&
    style.border.toList.all isPlainChar

lemma styleOf_isPlain (entries : List EntryPoint) (d : Declaration) : (styleOf entries d).isPlain = true := by
  unfold styleOf
  split
  · rfl
  · split <;> rfl

lemma all_isPlainChar_repr (n : Nat) : n.repr.toList.all isPlainChar = true := by
  rw [List.all_eq_true, Nat.toList_repr]
  intro c hc
  have hdigit := Nat.isDigit_of_mem_toDigits (by decide) (by decide) hc
  simp only [isPlainChar, Bool.and_eq_true, bne_iff_ne]
  refine ⟨⟨?_, ?_⟩, ?_⟩ <;> rintro rfl <;> exact absurd hdigit (by decide)

namespace Statement

lemma sound_node (id label file : String) (line : Nat) {style : Style} (h : style.isPlain = true) :
    (node id label file line style).Sound := by
  obtain ⟨⟨hshape, hfill⟩, hborder⟩ :
      (style.shape.toList.all isPlainChar = true ∧ style.fill.toList.all isPlainChar = true) ∧
        style.border.toList.all isPlainChar = true := by
    simpa only [Style.isPlain, Bool.and_eq_true] using h
  have htooltip : Inert (escape file ++ ":" ++ line.repr).toList := by
    rw [String.toList_append, String.toList_append]
    exact ((inert_escape file).append (inert_of_plain rfl)).append
      (inert_of_plain (all_isPlainChar_repr line))
  have hstyle : (", shape=" ++ style.shape ++ ", style=").toList.all isPlainChar = true := by
    rw [String.toList_append, String.toList_append, List.all_append, List.all_append, hshape]
    rfl
  unfold Sound pieces
  simp only [List.forall_mem_cons, List.not_mem_nil, false_implies, implies_true, and_true]
  exact ⟨rfl, inert_escape id, rfl, inert_escape label, rfl, htooltip, hstyle, inert_of_plain rfl, rfl,
    inert_of_plain hfill, rfl, inert_of_plain hborder, rfl⟩

end Statement

inductive Entry where
  | node (id : String)
  | edge (source target : String)
  deriving DecidableEq

/-- A node is a quoted id with a list of attributes, and an edge is two quoted ids and an arrow. -/
def Entry.ofTokens? : List Token → Option Entry
  | .quoted id :: .mark '[' :: rest => if rest.getLast? = some (.mark ']') then some (.node id) else none
  | [.quoted source, .mark '-', .mark '>', .quoted target] => some (.edge source target)
  | _ => none

def entriesIn (tokens : List Token) : List Entry :=
  (tokens.splitOnP (· == .mark ';')).filterMap Entry.ofTokens?

def read (text : String) : List Entry := entriesIn (lex .outside text.toList)

def statementsIn (tokens : List Token) : List (List Token) := tokens.splitOnP (· == .mark ';')

lemma statementsIn_append (xs ys : List Token) :
    statementsIn (xs ++ .mark ';' :: ys) = statementsIn xs ++ statementsIn ys :=
  List.splitOnP_append_cons _ _ (by decide)

namespace Statement

def entry : Statement → Entry
  | .node id _ _ _ _ => .node (escape id)
  | .edge source target => .edge (escape source) (escape target)

lemma ofTokens?_tokens (s : Statement) : Entry.ofTokens? s.tokens = some s.entry := by
  cases s with
  | node id label file line style =>
    have hblank : marks "    ".toList = [] := rfl
    have hopen : marks " [label=".toList = .mark '[' :: marks "label=".toList := rfl
    have hclose : marks "]".toList = [.mark ']'] := rfl
    unfold tokens pieces
    simp only [List.flatMap_cons, List.flatMap_nil, Piece.tokens, hblank, hopen, hclose, List.append_nil,
      List.nil_append, List.cons_append, Entry.ofTokens?, List.getLast?_append, List.getLast?_cons,
      List.getLast?_nil, Option.some_or, Option.getD_some, Option.getD_none, if_true, entry]
  | edge source target => rfl

lemma Sound.statementsIn_tokens {s : Statement} (h : s.Sound) : statementsIn s.tokens = [s.tokens] := by
  apply List.splitOnP_eq_singleton
  intro t ht
  obtain ⟨p, hp, htp⟩ := List.mem_flatMap.mp ht
  have hne : t ≠ .mark ';' := by
    rintro rfl
    exact (h p hp).semicolon_notMem htp
  simpa using hne

end Statement

lemma statementsIn_flatMap {ss : List Statement} (h : ∀ s ∈ ss, s.Sound) (rest : List Token) :
    statementsIn (ss.flatMap (fun s => s.tokens ++ [.mark ';']) ++ rest) =
      ss.map Statement.tokens ++ statementsIn rest := by
  induction ss with
  | nil => rfl
  | cons s ss ih =>
    rw [List.forall_mem_cons] at h
    rw [List.flatMap_cons, List.append_assoc, List.append_assoc, List.singleton_append, statementsIn_append,
      h.1.statementsIn_tokens, ih h.2]
    rfl

/-- A line that does not end within a string. -/
def Whole (line : String) : Prop :=
  ∀ rest, lex .outside (line.toList ++ rest) = lex .outside line.toList ++ lex .outside rest

lemma Statement.Sound.lex_text {s : Statement} (h : s.Sound) :
    lex .outside s.text.toList = s.tokens ++ [.mark ';'] := by
  have hlex := h.lex_eq []
  rwa [List.append_nil] at hlex

lemma Statement.Sound.whole {s : Statement} (h : s.Sound) : Whole s.text := by
  intro rest
  rw [h.lex_eq, h.lex_text, List.append_assoc]
  rfl

lemma whole_header : ∀ line ∈ header, Whole line := by
  intro line hline
  simp only [header, List.mem_cons, List.not_mem_nil, or_false] at hline
  rcases hline with rfl | rfl | rfl | rfl | rfl | rfl | rfl <;> exact fun rest => rfl

lemma lex_intercalate {lines : List String} (h : ∀ line ∈ lines, Whole line) :
    lex .outside ("\n".intercalate lines).toList = lines.flatMap fun line => lex .outside line.toList := by
  induction lines with
  | nil => rfl
  | cons line lines ih =>
    rw [List.forall_mem_cons] at h
    by_cases hlines : lines = []
    · subst hlines
      simp
    · have hnewline : ∀ rest, lex .outside ("\n".toList ++ rest) = lex .outside rest := fun rest => rfl
      rw [String.intercalate_cons_of_ne_nil hlines, String.toList_append, String.toList_append,
        List.append_assoc, h.1, hnewline, ih h.2, List.flatMap_cons]

def headerTokens : List Token := header.flatMap fun line => lex .outside line.toList

def headerStatements : List (List Token) := statementsIn headerTokens.dropLast

lemma sound_of_mem {m : CodeModel} {s : Statement} (hs : s ∈ nodes m ++ edges m) : s.Sound := by
  rcases List.mem_append.mp hs with hs | hs
  · obtain ⟨d, _, rfl⟩ := List.mem_map.mp hs
    exact Statement.sound_node _ _ _ _ (styleOf_isPlain _ d)
  · obtain ⟨e, _, rfl⟩ := List.mem_map.mp hs
    exact Statement.sound_edge _ _

lemma lex_texts {ss : List Statement} (h : ∀ s ∈ ss, s.Sound) :
    (ss.map Statement.text).flatMap (fun line => lex .outside line.toList) =
      ss.flatMap fun s => s.tokens ++ [.mark ';'] := by
  rw [List.flatMap_map]
  exact List.flatMap_congr fun s hs => (h s hs).lex_text

lemma lex_dot (r : Report) : lex .outside r.dot.toList = headerTokens ++
    ((nodes r.model ++ edges r.model).flatMap (fun s => s.tokens ++ [.mark ';']) ++ [.mark '\x7d']) := by
  have hnodes : ∀ s ∈ nodes r.model, s.Sound := fun s hs => sound_of_mem (List.mem_append_left _ hs)
  have hedges : ∀ s ∈ edges r.model, s.Sound := fun s hs => sound_of_mem (List.mem_append_right _ hs)
  rw [dot, lex_intercalate]
  · have hclose : ["\x7d"].flatMap (fun line => lex .outside line.toList) = [.mark '\x7d'] := rfl
    have hempty : [""].flatMap (fun line => lex .outside line.toList) = [] := rfl
    simp only [List.flatMap_append, lex_texts hnodes, lex_texts hedges, hclose, hempty, List.nil_append,
      List.append_assoc, headerTokens]
  · intro line hline
    simp only [List.mem_append, List.mem_map, List.mem_singleton] at hline
    rcases hline with (((hline | ⟨s, hs, rfl⟩) | rfl) | ⟨s, hs, rfl⟩) | rfl
    · exact whole_header line hline
    · exact (hnodes s hs).whole
    · exact fun rest => rfl
    · exact (hedges s hs).whole
    · exact fun rest => rfl

lemma statementsIn_dot (r : Report) : statementsIn (lex .outside r.dot.toList) = headerStatements ++
    ((nodes r.model ++ edges r.model).map Statement.tokens ++ [[.mark '\x7d']]) := by
  have hlast : headerTokens = headerTokens.dropLast ++ [.mark ';'] := by decide +kernel
  have hclose : statementsIn [.mark '\x7d'] = [[.mark '\x7d']] := rfl
  rw [lex_dot, hlast, List.append_assoc, List.singleton_append, statementsIn_append,
    statementsIn_flatMap fun s => sound_of_mem, hclose, headerStatements]

lemma read_dot (r : Report) : read r.dot = (nodes r.model ++ edges r.model).map Statement.entry := by
  have hheader : headerStatements.filterMap Entry.ofTokens? = [] := by decide +kernel
  have hclose : [[Token.mark '\x7d']].filterMap Entry.ofTokens? = [] := rfl
  have htokens : Entry.ofTokens? ∘ Statement.tokens = some ∘ Statement.entry :=
    funext Statement.ofTokens?_tokens
  rw [read, entriesIn, ← statementsIn, statementsIn_dot, List.filterMap_append, List.filterMap_append, hheader,
    hclose, List.filterMap_map, htokens, List.filterMap_eq_map, List.nil_append, List.append_nil]

lemma unclosed_notMem_lex_dot (r : Report) : .unclosed ∉ lex .outside r.dot.toList := by
  have hheader : .unclosed ∉ headerTokens := by decide +kernel
  have htokens : ∀ s : Statement, .unclosed ∉ s.tokens := by
    intro s hs
    obtain ⟨p, _, hp⟩ := List.mem_flatMap.mp hs
    cases p <;> simp [Piece.tokens, marks] at hp
  simp [lex_dot, hheader, htokens]

end Dot

variable {g : CallGraph}

lemma TextTellsKey.quotedIds_nodup (ht : TextTellsKey g) (h : g.Consistent) :
    (g.registry.declarations.map fun d => Dot.escape d.key.text).Nodup := by
  have htexts := ht.nodeIds_nodup h
  rw [List.map_map] at htexts
  have hmap := htexts.map Dot.escape_injective
  rwa [List.map_map] at hmap

lemma TextTellsKey.quotedEdges_nodup (ht : TextTellsKey g) (h : g.Consistent) :
    (g.edges.map fun e =>
      Dot.Entry.edge (Dot.escape e.caller.key.text) (Dot.escape e.callee.key.text)).Nodup := by
  have hedges := ht.edges_nodup h
  refine List.Nodup.map_on ?_ (hedges.of_map _)
  intro e he e' he' heq
  obtain ⟨hcaller, hcallee⟩ := Dot.Entry.edge.inj heq
  apply List.inj_on_of_nodup_map hedges he he'
  rw [GraphEdge.ofEdge, GraphEdge.ofEdge, Dot.escape_injective hcaller, Dot.escape_injective hcallee]

lemma read_dot_eq (r : Report) : Dot.read r.dot =
    r.model.callables.map (fun d => .node (Dot.escape d.key.text)) ++
      r.model.graph.edges.map fun e => .edge (Dot.escape e.caller.key.text) (Dot.escape e.callee.key.text) := by
  rw [Dot.read_dot, List.map_append, Dot.nodes, Dot.edges, List.map_map, List.map_map]
  rfl

lemma node_mem_read {r : Report} {id : String} :
    .node id ∈ Dot.read r.dot ↔ ∃ d ∈ r.model.callables, Dot.escape d.key.text = id := by
  simp [read_dot_eq]

lemma edge_mem_read {r : Report} {source target : String} :
    .edge source target ∈ Dot.read r.dot ↔ ∃ e ∈ r.model.graph.edges,
      Dot.escape e.caller.key.text = source ∧ Dot.escape e.callee.key.text = target := by
  simp [read_dot_eq]

lemma TextTellsKey.read_nodup {r : Report} (ht : TextTellsKey r.model.graph) (h : r.model.graph.Consistent) :
    (Dot.read r.dot).Nodup := by
  have hids : (r.model.callables.map fun d => Dot.escape d.key.text).Nodup :=
    (List.filter_sublist.map _).nodup (ht.quotedIds_nodup h)
  have hnodes := hids.map (f := Dot.Entry.node) fun _ _ => Dot.Entry.node.inj
  rw [List.map_map] at hnodes
  rw [read_dot_eq]
  refine List.nodup_append.mpr ⟨hnodes, ht.quotedEdges_nodup h, ?_⟩
  intro x hx y hy
  obtain ⟨d, _, rfl⟩ := List.mem_map.mp hx
  obtain ⟨e, _, rfl⟩ := List.mem_map.mp hy
  exact Dot.Entry.noConfusion

lemma TextTellsKey.count_node {r : Report} (ht : TextTellsKey r.model.graph)
    (h : r.model.graph.Consistent) {d : Declaration} (hd : d ∈ r.model.registry.declarations) :
    (Dot.read r.dot).count (.node (Dot.escape d.key.text)) = if d.kind.isCallable then 1 else 0 := by
  cases hk : d.kind.isCallable with
  | true =>
    have hmem : .node (Dot.escape d.key.text) ∈ Dot.read r.dot :=
      node_mem_read.mpr ⟨d, List.mem_filter.mpr ⟨hd, hk⟩, rfl⟩
    exact List.count_eq_one_of_mem (ht.read_nodup h) hmem
  | false =>
    -- A node of this id would be that of another declaration, and ids are told apart.
    apply List.count_eq_zero.mpr
    intro hmem
    obtain ⟨e, he, heq⟩ := node_mem_read.mp hmem
    obtain ⟨he, hek⟩ := List.mem_filter.mp he
    obtain rfl := List.inj_on_of_nodup_map (ht.quotedIds_nodup h) he hd heq
    rw [hk] at hek
    cases hek

lemma isCallable_iff_kind {k : SymbolKind} : k.isCallable = true ↔ k = .function ∨ k = .method := by
  cases k <;> decide

/-- Two packages whose paths hold quotes, backslashes and a line break. -/
def quotedPaths : List UnitInput :=
  [⟨"a\"b\\/x.go", .ok ⟨some "p", [], [.func ⟨"F", none, 3, [.call (.name "G") []]⟩,
    .func ⟨"G", none, 9, [.call (.name "F") []]⟩, .type "T" .struct 12], 15⟩⟩,
   ⟨"a\\\"b/c\nd/y.go", .ok ⟨some "p", [], [.func ⟨"F", none, 3, [.call (.name "F") []]⟩], 4⟩⟩]

lemma plainNames_quotedPaths : PlainNames quotedPaths := by
  intro input hinput unit hunit
  simp only [quotedPaths, List.mem_cons, List.not_mem_nil, or_false] at hinput
  rcases hinput with rfl | rfl
  all_goals
    cases hunit
    decide

end CallAtlas.Report
