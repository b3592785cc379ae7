import CallAtlas.Proofs.CallerKeys
import CallAtlas.Unit.OfSource

/-! A method belongs to the type name that its receiver is built on, unless a comment stands before the type in
a pointer or a parenthesis. Such a comment is taken for the type, and the method is lost. -/

namespace CallAtlas

namespace Go

/-- Syntax around a type, with the numbers of comments before and behind the type. -/
inductive Layer where
  | pointer (before : Nat)
  | paren (before behind : Nat)
  | generic (typeArgs : List Node)

namespace Layer

def around : Layer → Node → Node
  | pointer before, n => .branch .pointerType (List.replicate before .comment ++ [n])
  | paren before behind, n =>
    .branch .parenType (List.replicate before .comment ++ n :: List.replicate behind .comment)
  | generic typeArgs, n => .generic n typeArgs

def covers : Layer → Bool
  | pointer before | paren before _ => before != 0
  | generic _ => false

end Layer

namespace Node

def wrapped (layers : List Layer) (core : Node) : Node := layers.foldr Layer.around core

/-- Syntax that is no plain type name and not built around another type. -/
def isOther : Node → Bool
  | .typeName _ | .generic _ _ | .branch .pointerType _ | .branch .parenType _ => false
  | _ => true

lemma baseName_around (l : Layer) (n : Node) :
    (l.around n).baseName = if l.covers then none else n.baseName := by
  cases l with
  | pointer before => cases before <;> rfl
  | paren before behind => cases before <;> rfl
  | generic typeArgs => rfl

lemma baseName_wrapped (layers : List Layer) (core : Node) :
    (wrapped layers core).baseName = if layers.any Layer.covers then none else core.baseName := by
  induction layers with
  | nil => rfl
  | cons l layers ih =>
    rw [wrapped, List.foldr_cons, baseName_around, ← wrapped, ih, List.any_cons]
    cases l.covers <;> rfl

lemma baseName_of_isOther {core : Node} (h : core.isOther = true) : core.baseName = none := by
  unfold baseName
  split
  next => cases h
  next => cases h
  next => cases h
  next => cases h
  next => rfl

end Node

def FuncSpec.ReceiverIs (spec : FuncSpec) (type : Node) : Prop :=
  ∃ params, spec.receiver = some params ∧ (params.find? (!·.isVariadic)).map Param.type = some type

end Go

open Go

lemma SourceUnit.itemsOf_method {spec : FuncSpec} {type : Node} (h : spec.ReceiverIs type) :
    itemsOf (.func spec) = [.func ⟨spec.name, some ⟨type.baseName⟩, spec.line, Node.callsIn spec.body⟩] := by
  obtain ⟨params, hparams, htype⟩ := h
  obtain ⟨p, hp, rfl⟩ := Option.map_eq_some_iff.mp htype
  simp [itemsOf, hparams, receiver, hp]

lemma mem_declarationKeys_analyze {rootName : String} {module : Option String} {inputs : List UnitInput}
    {input : UnitInput} {unit : SourceUnit} {name : String} {item : Item} {c : Candidate}
    (hinput : input ∈ inputs)
    (hparsed : input.parsed = .ok unit) (hname : unit.package = some name) (hne : name ≠ "")
    (hitem : item ∈ unit.items) (hc : item.candidate? input.path = some c) :
    c.key ⟨Path.package module (Path.unitDir input.path), name⟩ ∈
      (analyze rootName module inputs).registry.declarationKeys := by
  have hpackaged : input.packaged? module =
      some ⟨input.path, ⟨Path.package module (Path.unitDir input.path), name⟩, unit⟩ := by
    simp [UnitInput.packaged?, hparsed, hname, hne]
  rw [CodeModel.registry, analyze_graph, linked_declarationKeys, mem_registryOf_declarationKeys]
  refine ⟨(_, c), List.mem_flatMap.mpr ⟨_, List.mem_filterMap.mpr ⟨input, hinput, hpackaged⟩, ?_⟩, rfl⟩
  exact List.mem_map.mpr ⟨c, List.mem_filterMap.mpr ⟨item, hitem, hc⟩, rfl⟩

theorem receivers_are_named_unless_covered (layers : List Layer) :
    (∀ T, (Node.wrapped layers (.typeName T)).baseName =
      if layers.any Layer.covers then none else some T) ∧
    (∀ core, core.isOther = true → (Node.wrapped layers core).baseName = none) ∧
    ∀ T spec, spec.ReceiverIs (Node.wrapped layers (.typeName T)) →
      ∃ f, SourceUnit.itemsOf (.func spec) = [.func f] ∧
        (∀ file, (Item.func f).candidate? file =
          if layers.any Layer.covers then none else some ⟨spec.name, some T, .method, file, spec.line⟩) ∧
        (layers.any Layer.covers = true → ∀ s : Scope, s.callsOf f = []) ∧
        (layers.any Layer.covers = false → ∀ rootName module inputs input file lineCount name, input ∈ inputs →
          input.parsed = .ok (SourceUnit.ofFile file lineCount) → SourceUnit.packageOf file.items = some name →
          name ≠ "" → .func spec ∈ file.items →
          .method ⟨Path.package module (Path.unitDir input.path), name⟩ T spec.name ∈
            (analyze rootName module inputs).registry.declarationKeys) := by
  have hbase : ∀ T, (Node.wrapped layers (.typeName T)).baseName =
      if layers.any Layer.covers then none else some T :=
    fun T => Node.baseName_wrapped layers (.typeName T)
  refine ⟨hbase, ?_, ?_⟩
  · intro core hcore
    rw [Node.baseName_wrapped, Node.baseName_of_isOther hcore, ite_self]
  · intro T spec hspec
    have hitems := SourceUnit.itemsOf_method hspec
    rw [hbase] at hitems
    refine ⟨_, hitems, ?_, ?_, ?_⟩
    · intro file
      cases layers.any Layer.covers <;> rfl
    · intro hcovered s
      rw [hcovered]
      rfl
    · intro hopen rootName module inputs input file lineCount name hinput hparsed hname hne hfunc
      rw [hopen] at hitems
      have hitem : .func ⟨spec.name, some ⟨some T⟩, spec.line, Node.callsIn spec.body⟩ ∈
          (SourceUnit.ofFile file lineCount).items := by
        refine List.mem_flatMap.mpr ⟨_, hfunc, ?_⟩
        rw [hitems]
        exact List.mem_singleton.mpr rfl
      exact mem_declarationKeys_analyze hinput hparsed hname hne hitem rfl

/-- The method `Add`, whose receiver is `*( Set /* c */ [A])` with `i` comments before the name. -/
def addMethod (i : Nat) : FuncSpec :=
  ⟨"Add", 3, some [⟨Node.wrapped [.pointer 0, .paren i 0, .generic [.comment, .typeName "A"]] (.typeName "Set"),
    false⟩], [.call (.name "grow") [] []]⟩

lemma addMethod_receiverIs (i : Nat) : (addMethod i).ReceiverIs
    (Node.wrapped [.pointer 0, .paren i 0, .generic [.comment, .typeName "A"]] (.typeName "Set")) :=
  ⟨_, rfl, rfl⟩

theorem addMethod_registered :
    (∃ f, SourceUnit.itemsOf (.func (addMethod 1)) = [.func f] ∧ ∀ s : Scope, s.callsOf f = []) ∧
    (Node.wrapped [.pointer 0] (.branch .elementType [.typeName "Set"])).baseName = none ∧
    .method ⟨"m/lib", "lib"⟩ "Set" "Add" ∈ (analyze "repo" (some "m") [⟨"lib/a.go",
      .ok (SourceUnit.ofFile ⟨[.package "lib", .func (addMethod 0)]⟩ 4)⟩]).registry.declarationKeys := by
  have hpath : Path.package (some "m") (Path.unitDir "lib/a.go") = "m/lib" := by decide +kernel
  refine ⟨?_, ?_, ?_⟩
  · obtain ⟨f, hf, _, hcovered, _⟩ :=
      (receivers_are_named_unless_covered _).2.2 "Set" (addMethod 1) (addMethod_receiverIs 1)
    exact ⟨f, hf, hcovered rfl⟩
  · exact (receivers_are_named_unless_covered [.pointer 0]).2.1 _ rfl
  · obtain ⟨_, _, _, _, hopen⟩ :=
      (receivers_are_named_unless_covered _).2.2 "Set" (addMethod 0) (addMethod_receiverIs 0)
    exact hpath ▸ hopen rfl "repo" (some "m") _ ⟨"lib/a.go", .ok _⟩ _ 4 "lib"
      (List.mem_singleton.mpr rfl) rfl rfl
      (by decide) (.tail _ (.head _))

theorem comment_hides_receiver :
    (¬∀ layers T, (Node.wrapped layers (.typeName T)).baseName = some T) ∧
    (SourceUnit.ofSource "package p\n\nfunc (s * /* c */ T) M() \x7b\x7d\n").toOption.map
      (·.funcs.map (·.receiver)) = some [some ⟨none⟩] := by
  refine ⟨fun h => ?_, by decide +kernel⟩
  cases h [.pointer 1] "T"

end CallAtlas
