import CallAtlas.Proofs.CallEdges

/-! The text of a key tells the key, as long as names are free of the marks that join them. -/

namespace CallAtlas

namespace Path

variable {c : Char} {a b : List Char}

lemma forall_mem_reverse_ne (hb : c ∉ b) : ∀ x ∈ b.reverse, (x != c) = true := by
  intro x hx
  exact bne_iff_ne.mpr fun h => hb (h ▸ List.mem_reverse.mp hx)

lemma behindLast_append (hb : c ∉ b) : behindLast c (a ++ c :: b) = b := by
  rw [behindLast, List.reverse_append, List.reverse_cons, List.append_assoc,
    List.takeWhile_append_of_pos (forall_mem_reverse_ne hb)]
  simp

lemma beforeLast?_append (hb : c ∉ b) : beforeLast? c (a ++ c :: b) = some a := by
  rw [beforeLast?, List.reverse_append, List.reverse_cons, List.append_assoc,
    List.dropWhile_append_of_pos (forall_mem_reverse_ne hb)]
  simp

lemma beforeLast?_of_notMem (hb : c ∉ b) : beforeLast? c b = none := by
  rw [beforeLast?, ← List.append_nil b.reverse, List.dropWhile_append_of_pos (forall_mem_reverse_ne hb),
    List.dropWhile_nil]

lemma behindLast_of_notMem (hb : c ∉ b) : behindLast c b = b := by
  rw [behindLast, ← List.append_nil b.reverse, List.takeWhile_append_of_pos (forall_mem_reverse_ne hb),
    List.takeWhile_nil, List.append_nil, List.reverse_reverse]

lemma exists_eq_append_of_mem (h : c ∈ b) : ∃ before behind, b = before ++ c :: behind ∧ c ∉ behind := by
  obtain ⟨behind, before, he, hc⟩ := List.eq_append_cons_of_mem (List.mem_reverse.mpr h)
  refine ⟨before.reverse, behind.reverse, ?_, mt List.mem_reverse.mp hc⟩
  rw [← List.reverse_reverse b, he, List.reverse_append, List.reverse_cons, List.append_assoc,
    List.singleton_append]

end Path

namespace Text

variable {c : Char} {mark a b a' b' : String}

def cutLast? (c : Char) (text : String) : Option (String × String) :=
  (Path.beforeLast? c text.toList).map fun before =>
    (String.ofList before, String.ofList (Path.behindLast c text.toList))

lemma cutLast?_append (hm : mark.toList = [c]) (hb : c ∉ b.toList) :
    cutLast? c (a ++ mark ++ b) = some (a, b) := by
  have htext : (a ++ mark ++ b).toList = a.toList ++ c :: b.toList := by
    simp [hm]
  rw [cutLast?, htext, Path.beforeLast?_append hb, Path.behindLast_append hb, Option.map_some,
    String.ofList_toList, String.ofList_toList]

lemma cutLast?_of_notMem (hb : c ∉ b.toList) : cutLast? c b = none := by
  rw [cutLast?, Path.beforeLast?_of_notMem hb, Option.map_none]

lemma cut_at_last (hm : mark.toList = [c]) (hb : c ∉ b.toList) (hb' : c ∉ b'.toList)
    (h : a ++ mark ++ b = a' ++ mark ++ b') : a = a' ∧ b = b' := by
  have hcut := cutLast?_append (a := a) hm hb
  rw [h, cutLast?_append hm hb'] at hcut
  exact Prod.mk.inj (Option.some.inj hcut.symm)

end Text

/-- A name without the marks that join names. -/
structure IsPlain (n : String) : Prop where
  no_colon : ':' ∉ n.toList
  no_dot : '.' ∉ n.toList

instance (n : String) : Decidable (IsPlain n) :=
  decidable_of_iff (':' ∉ n.toList ∧ '.' ∉ n.toList) ⟨fun h => ⟨h.1, h.2⟩, fun h => ⟨h.1, h.2⟩⟩

namespace SymbolKey

structure Plain (k : SymbolKey) : Prop where
  package : IsPlain k.package.name
  receiver : ∀ r ∈ k.receiver, IsPlain r
  name : IsPlain k.name

variable {k l : SymbolKey}

lemma Plain.colon_notMem_localName (h : k.Plain) : ':' ∉ k.localName.toList := by
  rw [localName]
  split
  next => exact h.name.no_colon
  next r hr => simp [h.name.no_colon, (h.receiver r hr).no_colon]

/-- The key that a text prints, read from the right. -/
def ofText? (text : String) : Option SymbolKey :=
  (Text.cutLast? ':' text).bind fun (package, localName) =>
    (Text.cutLast? ':' package).map fun (path, name) =>
      match Text.cutLast? '.' localName with
      | none => function ⟨path, name⟩ localName
      | some (receiver, member) => method ⟨path, name⟩ receiver member

lemma Plain.ofText?_text (h : k.Plain) : ofText? k.text = some k := by
  have hlocal : Text.cutLast? ':' k.text = some (k.package.text, k.localName) :=
    Text.cutLast?_append rfl h.colon_notMem_localName
  have hpackage : Text.cutLast? ':' k.package.text = some (k.package.path, k.package.name) :=
    Text.cutLast?_append rfl h.package.no_colon
  simp only [ofText?, hlocal, hpackage, Option.bind_some, Option.map_some]
  obtain ⟨p, _ | r, n⟩ := k
  · have hnone : Text.cutLast? '.' (localName ⟨p, none, n⟩) = none :=
      Text.cutLast?_of_notMem h.name.no_dot
    rw [hnone]
    rfl
  · have hsome : Text.cutLast? '.' (localName ⟨p, some r, n⟩) = some (r, n) :=
      Text.cutLast?_append rfl h.name.no_dot
    rw [hsome]
    rfl

lemma Plain.text_injective (hk : k.Plain) (hl : l.Plain) (h : k.text = l.text) : k = l := by
  have hread := hk.ofText?_text
  rw [h, hl.ofText?_text] at hread
  exact (Option.some.inj hread).symm

theorem printed_key_identifies_symbol (k l : SymbolKey) (hk : k.Plain) (hl : l.Plain) :
    ofText? k.text = some k ∧
    (k.text = l.text → k.package.path = l.package.path ∧ k.package.name = l.package.name ∧
      k.receiver.isSome = l.receiver.isSome ∧ k.receiver = l.receiver ∧ k.name = l.name) := by
  refine ⟨hk.ofText?_text, ?_⟩
  intro h
  obtain rfl := hk.text_injective hl h
  exact ⟨rfl, rfl, rfl, rfl, rfl⟩

theorem lookalike_keys_told_apart :
    let k := function ⟨"m.io/a:b", "c"⟩ "D"
    let l := method ⟨"m.io/a", "b"⟩ "c" "D"
    k.Plain ∧ l.Plain ∧ ofText? "m.io/a:b:c:D" = some k ∧ ofText? "m.io/a:b:c.D" = some l ∧
      k.text ≠ l.text := by
  intro k l
  have hk : k.Plain := ⟨by decide, by decide, by decide⟩
  have hl : l.Plain := ⟨by decide, by decide, by decide⟩
  obtain ⟨hread, htext⟩ := printed_key_identifies_symbol k l hk hl
  obtain ⟨hread', -⟩ := printed_key_identifies_symbol l k hl hk
  refine ⟨hk, hl, hread, hread', ?_⟩
  intro h
  exact absurd (htext h).1 (by decide)

end SymbolKey

def Item.names : Item → List String
  | .func f => f.name :: (f.receiver.bind (·.base)).toList
  | .type name _ _ => [name]
  | .value _ => []

def SourceUnit.names (unit : SourceUnit) : List String :=
  unit.package.toList ++ unit.items.flatMap Item.names

lemma Item.candidate?_names {file : String} {item : Item} {c : Candidate}
    (h : item.candidate? file = some c) : c.name ∈ item.names ∧ ∀ r ∈ c.receiver, r ∈ item.names := by
  cases item with
  | func f =>
    obtain ⟨name, _ | ⟨_ | base⟩, line, body⟩ := f
    · cases h
      simp [names]
    · cases h
    · cases h
      simp [names]
  | type name shape line =>
    cases h
    simp [names]
  | value calls => cases h

def PlainNames (inputs : List UnitInput) : Prop :=
  ∀ input ∈ inputs, ∀ unit, input.parsed = .ok unit → ∀ n ∈ unit.names, IsPlain n

lemma PlainNames.declared {inputs : List UnitInput} (h : PlainNames inputs) {module : Option String}
    {x : SymbolKey × Candidate} (hx : x ∈ declared (packagedUnits module inputs)) : x.1.Plain := by
  obtain ⟨u, hu, hxu⟩ := List.mem_flatMap.mp hx
  obtain ⟨input, hinput, hpackaged⟩ := List.mem_filterMap.mp hu
  obtain ⟨_, hparsed, hpackage⟩ := UnitInput.of_packaged? hpackaged
  have hplain := h input hinput u.unit hparsed
  obtain ⟨c, hc, rfl⟩ := List.mem_map.mp hxu
  obtain ⟨item, hitem, hcandidate⟩ := List.mem_filterMap.mp hc
  obtain ⟨hname, hreceiver⟩ := Item.candidate?_names hcandidate
  have hmem : ∀ n ∈ item.names, n ∈ u.unit.names := fun n hn =>
    List.mem_append_right _ (List.mem_flatMap.mpr ⟨item, hitem, hn⟩)
  refine ⟨hplain _ ?_, fun r hr => hplain _ (hmem r (hreceiver r hr)), hplain _ (hmem _ hname)⟩
  apply List.mem_append_left
  simp [hpackage, Candidate.key]

end CallAtlas
