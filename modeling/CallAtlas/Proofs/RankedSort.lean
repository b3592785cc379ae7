import Mathlib.Data.List.Sort

/-! Lists that are sorted by a rank. Where ranks are distinct, the members alone tell the list. -/

namespace CallAtlas

variable {α κ : Type} [LinearOrder κ] (rank : α → κ)

section MergeSort

variable {le : α → α → Bool} (hle : ∀ a b, le a b = true ↔ rank a ≤ rank b)

include hle

lemma pairwise_mergeSort_le (l : List α) : (l.mergeSort le).Pairwise (rank · ≤ rank ·) := by
  have htrans : ∀ a b c, le a b = true → le b c = true → le a c = true := by
    intro a b c hab hbc
    exact (hle a c).mpr (((hle a b).mp hab).trans ((hle b c).mp hbc))
  have htotal : ∀ a b, (le a b || le b a) = true := by
    intro a b
    rw [Bool.or_eq_true, hle, hle]
    exact le_total (rank a) (rank b)
  exact (List.pairwise_mergeSort htrans htotal l).imp fun {a b} => (hle a b).mp

lemma pairwise_mergeSort_lt {l : List α} (hn : (l.map rank).Nodup) :
    (l.mergeSort le).Pairwise (rank · < rank ·) := by
  have hne : (l.mergeSort le).Pairwise (rank · ≠ rank ·) :=
    List.pairwise_map.mp (((List.mergeSort_perm l le).map rank).nodup_iff.mpr hn)
  refine (pairwise_mergeSort_le rank hle l).imp₂ ?_ hne
  intro a b hab hab'
  exact lt_of_le_of_ne hab hab'

end MergeSort

variable {rank}

lemma nodup_of_pairwise_lt {l : List α} (h : l.Pairwise (rank · < rank ·)) : l.Nodup := by
  apply h.imp
  rintro a b hab rfl
  exact lt_irrefl _ hab

lemma eq_of_pairwise_lt {l l' : List α} (h : l.Pairwise (rank · < rank ·))
    (h' : l'.Pairwise (rank · < rank ·)) (hmem : ∀ a, a ∈ l ↔ a ∈ l') : l = l' := by
  have hperm := (List.perm_ext_iff_of_nodup (nodup_of_pairwise_lt h) (nodup_of_pairwise_lt h')).mpr hmem
  refine hperm.eq_of_pairwise ?_ h h'
  intro a b _ _ hab hba
  exact absurd hba hab.asymm

end CallAtlas
