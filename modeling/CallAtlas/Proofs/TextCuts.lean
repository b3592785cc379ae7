import CallAtlas.Proofs.PathNames
import Mathlib.Data.List.Chain
import Mathlib.Data.List.DropRight

/-! What trimming a text, cutting off a remark and reading the lines of a text leave of it. -/

namespace CallAtlas

namespace Text

/-- A text made of lines. A line feed ends each but the last, perhaps with a carriage return before it. -/
inductive Lines : List String → String → Prop
  | last {line : String} (h : '\n' ∉ line.toList) : Lines [line] line
  | cons {line ending text : String} {lines : List String} (h : '\n' ∉ line.toList)
      (hending : ending = "\n" ∨ ending = "\r\n") (htext : Lines lines text) :
      Lines (line :: lines) (line ++ ending ++ text)

def AllBlank (text : String) : Prop := ∀ c ∈ text.toList, isBlank c = true

lemma beq_eq_false_of_notMem {c : Char} {text : List Char} (h : c ∉ text) : ∀ d ∈ text, (d == c) = false := by
  intro d hd
  exact beq_eq_false_iff_ne.mpr (ne_of_mem_of_not_mem hd h)

section Strip

variable {p : Char → Bool} {a b text : List Char}

lemma dropEndWhile_append (hb : ∀ c ∈ b, p c = true) : dropEndWhile p (text ++ b) = dropEndWhile p text := by
  rw [dropEndWhile, List.reverse_append, List.dropWhile_append_of_pos (by simpa using hb), dropEndWhile]

lemma dropEndWhile_of_getLast {c : Char} (hc : p c = false) (rest : List Char) :
    dropEndWhile p (text ++ c :: rest) = text ++ c :: dropEndWhile p rest := by
  induction rest using List.reverseRecOn with
  | nil => simp [dropEndWhile, hc]
  | append_singleton rest d ih =>
    by_cases hd : p d = true
    · have hlast : ∀ x ∈ [d], p x = true := by simpa using hd
      rw [← List.cons_append, ← List.append_assoc, dropEndWhile_append hlast, dropEndWhile_append hlast, ih]
    · simp [dropEndWhile, hd]

lemma strip_append_left (ha : ∀ c ∈ a, p c = true) : strip p (a ++ text) = strip p text := by
  rw [strip, List.dropWhile_append_of_pos ha, strip]

lemma strip_append_right (hb : ∀ c ∈ b, p c = true) : strip p (text ++ b) = strip p text := by
  rw [strip, List.dropWhile_append, strip]
  split
  next h =>
    have hnone : b.dropWhile p = [] := List.dropWhile_eq_nil_iff.mpr hb
    rw [hnone, List.isEmpty_iff.mp h]
  next => exact dropEndWhile_append hb

lemma strip_between {c d : Char} (hc : p c = false) (hd : p d = false) (rest : List Char) :
    strip p (c :: text ++ d :: rest) = c :: text ++ d :: dropEndWhile p rest := by
  rw [strip, List.cons_append, List.dropWhile_cons_of_neg (by simp [hc]), ← List.cons_append,
    dropEndWhile_of_getLast hd]

lemma strip_isInfix (p : Char → Bool) (text : List Char) : strip p text <:+: text :=
  (List.rdropWhile_prefix p _).isInfix.trans (List.dropWhile_suffix p).isInfix

lemma strip_of_forall (h : ∀ c ∈ text, p c = false) : strip p text = text := by
  cases text with
  | nil => rfl
  | cons c rest =>
    rw [strip, List.dropWhile_cons_of_neg (by simp [h c])]
    refine List.rdropWhile_eq_self_iff.mpr fun hne => ?_
    simp [h _ (List.getLast_mem hne)]

end Strip

/-- No two slashes stand in a row. -/
def Unremarked (text : List Char) : Prop := text.IsChain fun c d => ¬(c = '/' ∧ d = '/')

section Remark

variable {a b text : List Char}

lemma unremarked_iff : Unremarked text ↔ ¬['/', '/'] <:+: text := by
  rw [Unremarked, List.isChain_iff_forall_rel_of_append_cons_cons]
  constructor
  · rintro h ⟨a, b, rfl⟩
    exact h (List.append_assoc a _ b) ⟨rfl, rfl⟩
  · rintro h _ _ a b rfl ⟨rfl, rfl⟩
    exact h ⟨a, b, by simp⟩

lemma unremarked_of_notMem (h : '/' ∉ text) : Unremarked text := by
  refine unremarked_iff.mpr fun hpair => h (hpair.subset ?_)
  simp

lemma Unremarked.append (ha : Unremarked a) (hb : Unremarked b)
    (h : '/' ∉ a.getLast? ∨ '/' ∉ b.head?) : Unremarked (a ++ b) := by
  refine List.isChain_append.mpr ⟨ha, hb, ?_⟩
  rintro c hc d hd ⟨rfl, rfl⟩
  exact h.elim (· hc) (· hd)

lemma before_of_unremarked (h : Unremarked text) : before ['/', '/'] text = text := by
  induction text with
  | nil => rfl
  | cons c text ih =>
    have hpre : ¬['/', '/'] <+: c :: text := fun hpre => unremarked_iff.mp h hpre.isInfix
    rw [before, if_neg (by simpa using hpre), ih (List.isChain_cons.mp h).2]

lemma before_append_remark (h : Unremarked (text ++ ['/'])) (rest : List Char) :
    before ['/', '/'] (text ++ '/' :: '/' :: rest) = text := by
  induction text with
  | nil => simp [before]
  | cons c text ih =>
    have hpre : ¬['/', '/'] <+: c :: (text ++ '/' :: '/' :: rest) := by
      intro hpre
      -- two characters reach no further than to the first slash of the remark
      have hreach : ['/', '/'] <+: c :: text ++ ['/'] :=
        List.prefix_of_prefix_length_le hpre (by simp) (by simp)
      exact unremarked_iff.mp h hreach.isInfix
    rw [List.cons_append, before, if_neg (by simpa using hpre), ih (List.isChain_cons.mp h).2]

lemma before_isPrefix (mark text : List Char) : before mark text <+: text := by
  induction text with
  | nil => exact List.prefix_rfl
  | cons c text ih =>
    rw [before]
    split
    · exact List.nil_prefix
    · exact List.cons_prefix_cons.mpr ⟨rfl, ih⟩

lemma unremarked_before (text : List Char) : Unremarked (before ['/', '/'] text) := by
  induction text with
  | nil => exact List.isChain_nil
  | cons c text ih =>
    rw [before]
    split
    next => exact List.isChain_nil
    next hpre =>
      refine unremarked_iff.mpr fun hpair => ?_
      rcases List.infix_cons_iff.mp hpair with h | h
      · refine hpre (List.isPrefixOf_iff_prefix.mpr (h.trans ?_))
        exact List.cons_prefix_cons.mpr ⟨rfl, before_isPrefix _ _⟩
      · exact unremarked_iff.mp ih h

end Remark

lemma Lines.newline_notMem {lines : List String} {text : String} (h : Lines lines text) :
    ∀ line ∈ lines, '\n' ∉ line.toList := by
  induction h with
  | last h => simpa using h
  | cons h _ _ ih => exact List.forall_mem_cons.mpr ⟨h, ih⟩

lemma exists_lines (text : List Char) : ∃ lines, Lines lines (String.ofList text) := by
  induction text with
  | nil => exact ⟨[""], .last (by simp)⟩
  | cons c text ih =>
    obtain ⟨lines, hlines⟩ := ih
    by_cases hc : c = '\n'
    · subst hc
      have htext : String.ofList ('\n' :: text) = "" ++ "\n" ++ String.ofList text := by
        simp
      exact ⟨"" :: lines, htext ▸ .cons (by simp) (Or.inl rfl) hlines⟩
    · have hcons : ∀ line : String, '\n' ∉ line.toList → '\n' ∉ (String.ofList [c] ++ line).toList := by
        intro line hline
        simpa [Ne.symm hc] using hline
      have htext : String.ofList (c :: text) = String.ofList [c] ++ String.ofList text := by
        simp
      rw [htext]
      generalize String.ofList text = rest at hlines
      -- the first line takes the character, whether another one follows or not
      cases hlines with
      | last h => exact ⟨_, .last (hcons _ h)⟩
      | cons h hending hrest =>
        rw [← String.append_assoc, ← String.append_assoc]
        exact ⟨_, .cons (hcons _ h) hending hrest⟩

end Text

end CallAtlas
