import Mathlib.Data.List.Induction
import Mathlib.Data.List.Perm.Lattice
import Mathlib.Tactic.Lemma

/-! Lists that keep only the first of the elements with one key. -/

namespace CallAtlas

variable {α κ : Type} [BEq κ] [LawfulBEq κ]

lemma eraseDupsBy_snoc (f : α → κ) (l : List α) (a : α) :
    (l ++ [a]).eraseDupsBy (f · == f ·) =
      if f a ∈ l.map f then l.eraseDupsBy (f · == f ·) else l.eraseDupsBy (f · == f ·) ++ [a] := by
  match l with
  | [] => simp [List.eraseDupsBy_cons]
  | b :: l =>
    have hrec := eraseDupsBy_snoc f (l.filter fun c => decide ((f c == f b) = false)) a
    rw [List.cons_append, List.eraseDupsBy_cons, List.eraseDupsBy_cons, List.filter_append]
    by_cases hab : f a = f b
    · simp [hab]
    · have hlast : [a].filter (fun c => decide ((f c == f b) = false)) = [a] := by simp [hab]
      have hmem : f a ∈ (l.filter fun c => decide ((f c == f b) = false)).map f ↔ f a ∈ (b :: l).map f := by
        simp only [List.mem_map, List.mem_filter, List.mem_cons]
        constructor
        · rintro ⟨c, ⟨hc, _⟩, he⟩
          exact ⟨c, Or.inr hc, he⟩
        · rintro ⟨c, rfl | hc, he⟩
          · exact absurd he.symm hab
          · exact ⟨c, ⟨hc, by simpa [he] using hab⟩, he⟩
      rw [hlast, hrec]
      simp only [hmem]
      split <;> rfl
termination_by l.length
decreasing_by exact Nat.lt_succ_of_le (List.length_filter_le _ _)

lemma mem_map_eraseDupsBy (f : α → κ) (l : List α) (k : κ) :
    k ∈ (l.eraseDupsBy (f · == f ·)).map f ↔ k ∈ l.map f := by
  induction l using List.reverseRecOn with
  | nil => rfl
  | append_singleton l a ih =>
    rw [eraseDupsBy_snoc, List.map_append, List.mem_append]
    split
    next ha =>
      rw [ih]
      constructor
      · exact Or.inl
      · rintro (hk | hk)
        · exact hk
        · exact List.mem_singleton.mp hk ▸ ha
    next => rw [List.map_append, List.mem_append, ih]

lemma find?_eraseDupsBy (f : α → κ) (p : κ → Bool) (l : List α) :
    (l.eraseDupsBy (f · == f ·)).find? (fun a => p (f a)) = l.find? fun a => p (f a) := by
  induction l using List.reverseRecOn with
  | nil => rfl
  | append_singleton l a ih =>
    rw [eraseDupsBy_snoc, List.find?_append]
    split
    next ha =>
      obtain ⟨b, hb, hab⟩ := List.mem_map.mp ha
      cases hp : p (f a) with
      | false => simp [ih, hp]
      | true =>
        -- an earlier element with the same value has already been found
        obtain ⟨c, hc⟩ := Option.isSome_iff_exists.mp
          (List.find?_isSome (p := fun a => p (f a)).mpr ⟨b, hb, by rw [hab, hp]⟩)
        rw [ih, hc, Option.some_or]
    next => rw [List.find?_append, ih]

lemma eraseDups_snoc (l : List κ) (a : κ) :
    (l ++ [a]).eraseDups = if a ∈ l then l.eraseDups else l.eraseDups ++ [a] := by
  rw [List.eraseDups_append]
  by_cases ha : a ∈ l <;> simp [List.removeAll, ha, List.eraseDups_cons]

lemma nodup_eraseDups (l : List κ) : l.eraseDups.Nodup := by
  induction l using List.reverseRecOn with
  | nil => exact List.nodup_nil
  | append_singleton l a ih =>
    rw [eraseDups_snoc]
    split
    next => exact ih
    next ha => simpa using ih.concat (mt List.mem_eraseDups.mp ha)

lemma length_eraseDups_of_perm {l l' : List κ} (h : l.Perm l') :
    l.eraseDups.length = l'.eraseDups.length := by
  refine List.Perm.length_eq ((List.perm_ext_iff_of_nodup (nodup_eraseDups l) (nodup_eraseDups l')).mpr ?_)
  intro a
  rw [List.mem_eraseDups, List.mem_eraseDups, h.mem_iff]

end CallAtlas
