import CallAtlas.Report.Dot
import Mathlib.Algebra.Ring.Nat
import Mathlib.Algebra.Ring.Parity
import Mathlib.Data.List.DropRight
import Mathlib.Data.List.Induction
import Mathlib.Tactic.Lemma

/-! Quoted strings in the DOT language: an escaped text stays within its quotes. -/

namespace CallAtlas.Report.Dot

lemma toList_escape (s : String) : (escape s).toList = s.toList.flatMap escapeChar :=
  String.toList_ofList

lemma escapeChar_cases (c : Char) :
    (c = '\\' ∧ escapeChar c = ['\\', '\\']) ∨ (c = '"' ∧ escapeChar c = ['\\', '"']) ∨
      (c = '\n' ∧ escapeChar c = ['\\', 'n']) ∨
      (c ≠ '\\' ∧ c ≠ '"' ∧ c ≠ '\n' ∧ escapeChar c = [c]) := by
  by_cases hb : c = '\\'
  · exact Or.inl ⟨hb, by simp [escapeChar, hb]⟩
  · by_cases hq : c = '"'
    · exact Or.inr (Or.inl ⟨hq, by simp [escapeChar, hq]⟩)
    · by_cases hn : c = '\n'
      · exact Or.inr (Or.inr (Or.inl ⟨hn, by simp [escapeChar, hn]⟩))
      · exact Or.inr (Or.inr (Or.inr ⟨hb, hq, hn, by simp [escapeChar, hb, hq, hn]⟩))

def replace (c : Char) (new : List Char) (text : List Char) : List Char :=
  text.flatMap fun d => if d = c then new else [d]

lemma escape_eq_replace (s : String) : (escape s).toList =
    replace '\n' ['\\', 'n'] (replace '"' ['\\', '"'] (replace '\\' ['\\', '\\'] s.toList)) := by
  rw [toList_escape, replace, replace, replace, List.flatMap_assoc, List.flatMap_assoc]
  congr 1
  funext c
  -- The backslashes that the later replacements bring in are not met by the first one, and stay single.
  obtain ⟨rfl, he⟩ | ⟨rfl, he⟩ | ⟨rfl, he⟩ | ⟨hb, hq, hn, he⟩ := escapeChar_cases c
  · rfl
  · rfl
  · rfl
  · simp [he, hb, hq, hn]

def unescape : List Char → List Char
  | [] => []
  | '\\' :: 'n' :: rest => '\n' :: unescape rest
  | '\\' :: c :: rest => c :: unescape rest
  | c :: rest => c :: unescape rest

lemma unescape_flatMap_escapeChar (text : List Char) : unescape (text.flatMap escapeChar) = text := by
  induction text with
  | nil => rfl
  | cons c text ih =>
    rw [List.flatMap_cons]
    obtain ⟨rfl, he⟩ | ⟨rfl, he⟩ | ⟨rfl, he⟩ | ⟨hb, hq, hn, he⟩ := escapeChar_cases c
    · simp [he, unescape, ih]
    · simp [he, unescape, ih]
    · simp [he, unescape, ih]
    · simp [he, unescape, hb, ih]

lemma escape_injective : Function.Injective escape := by
  intro s t h
  rw [← String.toList_inj, ← unescape_flatMap_escapeChar s.toList, ← toList_escape, h, toList_escape,
    unescape_flatMap_escapeChar]

lemma newline_notMem_escape (s : String) : '\n' ∉ (escape s).toList := by
  rw [toList_escape, List.mem_flatMap]
  rintro ⟨c, _, hc⟩
  obtain ⟨_, he⟩ | ⟨_, he⟩ | ⟨_, he⟩ | ⟨_, _, hn, he⟩ := escapeChar_cases c
  · simp [he] at hc
  · simp [he] at hc
  · simp [he] at hc
  · simp [he, Ne.symm hn] at hc

def backslashes (text : List Char) : Nat := (text.rtakeWhile (· == '\\')).length

lemma backslashes_snoc (text : List Char) (c : Char) :
    backslashes (text ++ [c]) = if c = '\\' then backslashes text + 1 else 0 := by
  by_cases hc : c = '\\' <;> simp [backslashes, hc]

lemma even_backslashes (text : List Char) : Even (backslashes (text.flatMap escapeChar)) := by
  induction text using List.reverseRecOn with
  | nil => exact ⟨0, rfl⟩
  | append_singleton text c ih =>
    rw [List.flatMap_append, List.flatMap_singleton]
    obtain ⟨_, he⟩ | ⟨_, he⟩ | ⟨_, he⟩ | ⟨hb, _, _, he⟩ := escapeChar_cases c
    · rw [he, List.append_cons, backslashes_snoc, backslashes_snoc, if_pos rfl, if_pos rfl, Nat.add_assoc]
      exact ih.add ⟨1, rfl⟩
    · rw [he, List.append_cons, backslashes_snoc, if_neg (by decide)]
      exact ⟨0, rfl⟩
    · rw [he, List.append_cons, backslashes_snoc, if_neg (by decide)]
      exact ⟨0, rfl⟩
    · rw [he, backslashes_snoc, if_neg hb]
      exact ⟨0, rfl⟩

lemma quote_in_escapeChar {c : Char} {a b : List Char} (h : escapeChar c = a ++ '"' :: b) :
    a = ['\\'] ∧ b = [] := by
  have hmem : '"' ∈ escapeChar c := by simp [h]
  obtain ⟨_, he⟩ | ⟨_, he⟩ | ⟨_, he⟩ | ⟨_, hq, _, he⟩ := escapeChar_cases c
  · simp [he] at hmem
  · rw [he] at h
    match a with
    | [] => simp at h
    | [x] => simpa [eq_comm] using h
    | x :: y :: a => simp at h
  · simp [he] at hmem
  · simp [he, Ne.symm hq] at hmem

lemma odd_backslashes {text a b : List Char} (h : text.flatMap escapeChar = a ++ '"' :: b) :
    Odd (backslashes a) := by
  induction text using List.reverseRecOn generalizing b with
  | nil => simp at h
  | append_singleton text c ih =>
    rw [List.flatMap_append, List.flatMap_singleton] at h
    rcases List.append_eq_append_iff.mp h with ⟨x, ha, hc⟩ | ⟨x, ha, hb⟩
    · -- the quote is part of what the last character became
      obtain ⟨rfl, rfl⟩ := quote_in_escapeChar hc
      rw [ha, backslashes_snoc, if_pos rfl]
      exact (even_backslashes text).add_one
    · cases x with
      | nil =>
        obtain ⟨hnil, _⟩ := quote_in_escapeChar (a := []) (c := c) hb.symm
        cases hnil
      | cons q x =>
        obtain ⟨rfl, _⟩ := List.cons.inj hb
        exact ih ha

inductive Token where
  | quoted (text : String)
  | mark (c : Char)
  | unclosed
  deriving DecidableEq

inductive Mode where
  | outside
  | inside (text : List Char)
  | escaping (text : List Char)

/-- Cuts a document into strings and other characters. A backslash in a string takes the next character with
it, and blanks and line ends count in strings only. -/
def lex : Mode → List Char → List Token
  | .outside, [] => []
  | .inside _, [] => [.unclosed]
  | .escaping _, [] => [.unclosed]
  | .outside, c :: rest =>
    if c = '"' then lex (.inside []) rest
    else if c = ' ' ∨ c = '\n' then lex .outside rest
    else .mark c :: lex .outside rest
  | .inside text, c :: rest =>
    if c = '"' then .quoted (String.ofList text) :: lex .outside rest
    else if c = '\\' then lex (.escaping (text ++ [c])) rest
    else lex (.inside (text ++ [c])) rest
  | .escaping text, c :: rest => lex (.inside (text ++ [c])) rest

/-- A text that, within a string, neither ends it nor leaves a backslash open. -/
def Inert (a : List Char) : Prop :=
  ∀ text rest, lex (.inside text) (a ++ rest) = lex (.inside (text ++ a)) rest

lemma Inert.append {a b : List Char} (ha : Inert a) (hb : Inert b) : Inert (a ++ b) := by
  intro text rest
  rw [List.append_assoc, ha, hb, List.append_assoc]

lemma inert_escapeChar (c : Char) : Inert (escapeChar c) := by
  intro text rest
  obtain ⟨_, he⟩ | ⟨_, he⟩ | ⟨_, he⟩ | ⟨hb, hq, _, he⟩ := escapeChar_cases c
  · simp [he, lex]
  · simp [he, lex]
  · simp [he, lex]
  · simp [he, lex, hb, hq]

lemma inert_escape (s : String) : Inert (escape s).toList := by
  rw [toList_escape]
  induction s.toList with
  | nil =>
    intro text rest
    rw [List.flatMap_nil, List.nil_append, List.append_nil]
  | cons c text ih =>
    rw [List.flatMap_cons]
    exact (inert_escapeChar c).append ih

lemma Inert.lex_quoted {a : List Char} (h : Inert a) (rest : List Char) :
    lex .outside ('"' :: a ++ '"' :: rest) = .quoted (String.ofList a) :: lex .outside rest := by
  rw [List.cons_append, lex, if_pos rfl, h, lex, if_pos rfl, List.nil_append]

structure Quotable (a : List Char) : Prop where
  no_newline : '\n' ∉ a
  odd_before_quote : ∀ x y, a = x ++ '"' :: y → Odd (backslashes x)
  even_at_end : Even (backslashes a)
  closes : ∀ rest, lex .outside ('"' :: a ++ '"' :: rest) = .quoted (String.ofList a) :: lex .outside rest

lemma quotable_escape (s : String) : Quotable (escape s).toList where
  no_newline := newline_notMem_escape s
  odd_before_quote x y h := by
    rw [toList_escape] at h
    exact odd_backslashes h
  even_at_end := by
    rw [toList_escape]
    exact even_backslashes s.toList
  closes := (inert_escape s).lex_quoted

def isPlainChar (c : Char) : Bool := c != '"' && c != '\\' && c != ';'

lemma inert_of_plain {a : List Char} (h : a.all isPlainChar = true) : Inert a := by
  intro text rest
  induction a generalizing text with
  | nil => rw [List.nil_append, List.append_nil]
  | cons c a ih =>
    simp only [List.all_cons, Bool.and_eq_true, isPlainChar, bne_iff_ne] at h
    rw [List.cons_append, lex, if_neg h.1.1.1, if_neg h.1.1.2, ih h.2, List.append_assoc]
    rfl

def marks (a : List Char) : List Token := (a.filter fun c => c != ' ' && c != '\n').map .mark

lemma lex_of_plain {a : List Char} (h : a.all isPlainChar = true) (rest : List Char) :
    lex .outside (a ++ rest) = marks a ++ lex .outside rest := by
  induction a with
  | nil => rfl
  | cons c a ih =>
    simp only [List.all_cons, Bool.and_eq_true, isPlainChar, bne_iff_ne] at h
    rw [List.cons_append, lex, if_neg h.1.1.1, ih h.2]
    by_cases hc : c = ' ' ∨ c = '\n'
    · rw [if_pos hc]
      rcases hc with rfl | rfl <;> rfl
    · rw [if_neg hc]
      simp [marks, not_or.mp hc]

end CallAtlas.Report.Dot
