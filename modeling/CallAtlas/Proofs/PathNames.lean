import CallAtlas.DirTree
import Mathlib.Tactic.Lemma

/-! The path of an entry and the names that lead to it say the same. -/

namespace CallAtlas

/-- What an entry of a directory can be called, backslashes apart. -/
structure IsName (n : String) : Prop where
  ne_empty : n ≠ ""
  ne_dot : n ≠ "."
  no_separator : ∀ c ∈ n.toList, DirTree.isSeparator c = false

lemma isName_iff {n : String} :
    IsName n ↔ n ≠ "" ∧ n ≠ "." ∧ n.toList.any DirTree.isSeparator = false := by
  rw [List.any_eq_false]
  constructor
  · intro h
    exact ⟨h.ne_empty, h.ne_dot, by simpa using h.no_separator⟩
  · rintro ⟨hempty, hdot, hseparator⟩
    exact ⟨hempty, hdot, by simpa using hseparator⟩

instance (n : String) : Decidable (IsName n) := decidable_of_iff' _ isName_iff

/-- Where an entry stands below a root: the names that lead to it, and whether it is a directory. -/
@[ext]
structure Location where
  names : List String
  isDir : Bool
  deriving DecidableEq

def Location.under (name : String) (x : Location) : Location := ⟨name :: x.names, x.isDir⟩

def Path.relative (names : List String) : String := "/".intercalate names

namespace Text

variable {p : Char → Bool} {a : List Char}

lemma pieces_of_forall (h : ∀ c ∈ a, p c = false) : pieces p a = [a] := by
  induction a with
  | nil => rfl
  | cons c a ih =>
    rw [List.forall_mem_cons] at h
    simp [pieces, h.1, ih h.2]

lemma pieces_append_cons {s : Char} (h : ∀ c ∈ a, p c = false) (hs : p s = true) (rest : List Char) :
    pieces p (a ++ s :: rest) = a :: pieces p rest := by
  induction a with
  | nil => simp [pieces, hs]
  | cons c a ih =>
    rw [List.forall_mem_cons] at h
    simp [pieces, h.1, ih h.2]

lemma pieces_intercalate {s : Char} (hs : p s = true) {ls : List (List Char)} (hne : ls ≠ [])
    (h : ∀ l ∈ ls, ∀ c ∈ l, p c = false) : pieces p ([s].intercalate ls) = ls := by
  induction ls with
  | nil => exact absurd rfl hne
  | cons l ls ih =>
    rw [List.forall_mem_cons] at h
    by_cases hls : ls = []
    · rw [hls, List.intercalate_singleton, pieces_of_forall h.1]
    · rw [List.intercalate_cons_of_ne_nil hls, List.append_assoc, List.singleton_append,
        pieces_append_cons h.1 hs, ih hls h.2]

end Text

namespace Path

variable {p q : List String}

lemma relative_cons {n : String} (h : p ≠ []) : relative (n :: p) = n ++ "/" ++ relative p :=
  String.intercalate_cons_of_ne_nil h

lemma pieces_relative {sep : Char → Bool} (hs : sep '/' = true) (hp : p ≠ [])
    (h : ∀ n ∈ p, ∀ c ∈ n.toList, sep c = false) :
    (Text.pieces sep (relative p).toList).map String.ofList = p := by
  have hpieces : Text.pieces sep (relative p).toList = p.map String.toList := by
    rw [relative, String.toList_intercalate]
    refine Text.pieces_intercalate hs (by simpa using hp) ?_
    intro l hl
    obtain ⟨n, hn, rfl⟩ := List.mem_map.mp hl
    exact h n hn
  rw [hpieces, List.map_map]
  simp [Function.comp_def]

lemma components_relative (h : ∀ n ∈ p, IsName n) : DirTree.components (relative p) = p := by
  by_cases hp : p = []
  · subst hp
    rfl
  · rw [DirTree.components, pieces_relative rfl hp fun n hn => (h n hn).no_separator, List.filter_eq_self]
    intro n hn
    simp [(h n hn).ne_empty, (h n hn).ne_dot]

lemma relative_injective (hp : ∀ n ∈ p, IsName n) (hq : ∀ n ∈ q, IsName n)
    (h : relative p = relative q) : p = q := by
  rw [← components_relative hp, h, components_relative hq]

end Path

end CallAtlas
