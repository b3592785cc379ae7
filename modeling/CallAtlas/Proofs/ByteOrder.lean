import Mathlib.Tactic.Lemma
import Mathlib.Tactic.SplitIfs

/-! Texts in the order of their characters are in the order of their bytes. -/

namespace CallAtlas.Text

def bytes (s : String) : List UInt8 := s.toUTF8.data.toList

lemma bytes_eq (s : String) : bytes s = s.toList.flatMap String.utf8EncodeChar := by
  obtain ⟨l, rfl⟩ : ∃ l, s = String.ofList l := ⟨s.toList, String.ofList_toList.symm⟩
  simp [bytes, List.utf8Encode]

lemma toNat_lt (c : Char) : c.toNat < 0x110000 := by
  rcases c.valid with h | h
  · exact Nat.lt_trans h (by decide)
  · exact h.2

/-- Numbers compare as their digits to the base 64 do. -/
lemma digits_lt {v w : Nat} (h : v < w) :
    v / 262144 < w / 262144 ∨ v / 262144 = w / 262144 ∧
      (v / 4096 % 64 < w / 4096 % 64 ∨ v / 4096 % 64 = w / 4096 % 64 ∧
        (v / 64 % 64 < w / 64 % 64 ∨ v / 64 % 64 = w / 64 % 64 ∧ v % 64 < w % 64)) := by
  by_cases h₁ : v / 262144 < w / 262144
  · exact Or.inl h₁
  · refine Or.inr ⟨by omega, ?_⟩
    by_cases h₂ : v / 4096 < w / 4096
    · exact Or.inl (by omega)
    · exact Or.inr ⟨by omega, by omega⟩

/-- The bytes of a character decide against those of a later one before either ends. -/
lemma utf8EncodeChar_append_lt {c d : Char} (h : c < d) (x y : List UInt8) :
    String.utf8EncodeChar c ++ x < String.utf8EncodeChar d ++ y := by
  have hv : c.toNat < d.toNat := h
  have hd : d.toNat < 0x110000 := toNat_lt d
  simp only [String.utf8EncodeChar, Char.toNat_val]
  by_cases hc : c.toNat ≤ 0xffff
  · -- first bytes tell the lengths apart, and few digits are left where the lengths agree
    split_ifs <;>
      simp (disch := omega) only [List.cons_append, List.nil_append, List.cons_lt_cons_iff,
        UInt8.lt_iff_toNat_lt, ← UInt8.toNat_inj, UInt8.toNat_ofNat', Nat.mod_eq_of_lt] <;>
      omega
  · rw [if_neg (by omega), if_neg (by omega), if_neg (by omega), if_neg (by omega), if_neg (by omega),
      if_neg (by omega)]
    simp (disch := omega) only [List.cons_append, List.nil_append, List.cons_lt_cons_iff,
      UInt8.lt_iff_toNat_lt, ← UInt8.toNat_inj, UInt8.toNat_ofNat', Nat.mod_eq_of_lt]
    rcases digits_lt hv with h | ⟨h₁, h | ⟨h₂, h | ⟨h₃, h⟩⟩⟩ <;> simp [*]

lemma flatMap_utf8EncodeChar_lt {l m : List Char} (h : l < m) :
    l.flatMap String.utf8EncodeChar < m.flatMap String.utf8EncodeChar := by
  induction h with
  | @nil d m =>
    obtain ⟨b, bs, hb⟩ := List.exists_cons_of_ne_nil (String.utf8EncodeChar_ne_nil (c := d))
    rw [List.flatMap_nil, List.flatMap_cons, hb]
    exact List.nil_lt_cons _ _
  | @rel c l d m hlt => exact utf8EncodeChar_append_lt hlt _ _
  | @cons c l m _ ih => exact List.append_left_lt ih

lemma bytes_lt {s t : String} (h : s < t) : bytes s < bytes t := by
  rw [bytes_eq, bytes_eq]
  exact flatMap_utf8EncodeChar_lt (String.lt_iff.mp h)

end CallAtlas.Text
