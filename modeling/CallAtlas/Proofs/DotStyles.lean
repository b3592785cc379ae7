import CallAtlas.Proofs.DotReport

/-! The style of each node, read from its attributes in the DOT document. -/

namespace CallAtlas.Report.Dot

def Token.text : Token → List Char
  | .quoted text => text.toList
  | .mark c => [c]
  | .unclosed => []

/-- A name and a value with `=` between them. -/
def attribute? (tokens : List Token) : Option (List Char × String) :=
  match tokens.splitOnP (· == .mark '=') with
  | [name, value] => some (name.flatMap Token.text, String.ofList (value.flatMap Token.text))
  | _ => none

def attributes (tokens : List Token) : List (List Char × String) :=
  (tokens.splitOnP (· == .mark ',')).filterMap attribute?

def Style.ofAttributes? (attributes : List (List Char × String)) : Option Style := do
  return ⟨← attributes.lookup "shape".toList, ← attributes.lookup "fillcolor".toList,
    ← attributes.lookup "color".toList⟩

/-- A node is a quoted id with a list of attributes in brackets. -/
def styledNode? : List Token → Option (String × Style)
  | .quoted id :: .mark '[' :: rest =>
    if rest.getLast? = some (.mark ']') then
      (Style.ofAttributes? (attributes rest.dropLast)).map (id, ·)
    else none
  | _ => none

def readStyles (text : String) : List (String × Style) :=
  (statementsIn (lex .outside text.toList)).filterMap styledNode?

lemma styledNode?_nodeOf (entries : List EntryPoint) (d : Declaration) :
    styledNode? (nodeOf entries d).tokens = some (escape d.key.text, styleOf entries d) := by
  -- with the style known, the attributes are computed whatever the texts in quotes are
  unfold nodeOf styleOf
  split
  · rfl
  · split <;> rfl

lemma filterMap_nodes (m : CodeModel) : ((nodes m).map Statement.tokens).filterMap styledNode? =
    m.callables.map fun d => (escape d.key.text, styleOf m.entryPoints d) := by
  rw [nodes, List.map_map, List.filterMap_map, ← List.filterMap_eq_map]
  congr 1
  funext d
  exact styledNode?_nodeOf m.entryPoints d

lemma filterMap_edges (m : CodeModel) : ((edges m).map Statement.tokens).filterMap styledNode? = [] := by
  rw [edges, List.map_map, List.filterMap_map, List.filterMap_eq_nil_iff]
  intro e _
  rfl

lemma readStyles_dot (r : Report) : readStyles r.dot =
    r.model.callables.map fun d => (escape d.key.text, styleOf r.model.entryPoints d) := by
  have hheader : headerStatements.filterMap styledNode? = [] := by decide +kernel
  have hclose : [[Token.mark '\x7d']].filterMap styledNode? = [] := rfl
  rw [readStyles, statementsIn_dot, List.map_append, List.filterMap_append, List.filterMap_append,
    List.filterMap_append, hheader, hclose, filterMap_nodes, filterMap_edges, List.nil_append, List.append_nil,
    List.append_nil]

end CallAtlas.Report.Dot
