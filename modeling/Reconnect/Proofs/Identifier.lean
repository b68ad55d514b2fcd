import Reconnect.Identifier

/-!
# The texts of identifiers

Identifiers differ in their texts, and none is empty.
-/

namespace Reconnect

/-- Reading the padded digits of a number gives the number. -/
theorem ofDigitChars_padded (width n : Nat) :
    Nat.ofDigitChars 10 (Duration.padded width n) 0 = n := by
  rw [Duration.padded, Nat.ofDigitChars_append, Nat.ofDigitChars_replicate_zero, Nat.mul_zero,
    Nat.ofDigitChars_ten_toDigits]

theorem isDigit_of_mem_padded {width n : Nat} {c : Char} (hc : c ∈ Duration.padded width n) :
    c.isDigit = true := by
  rcases List.mem_append.1 hc with hc | hc
  · rw [List.eq_of_mem_replicate hc]
    rfl
  · exact Nat.isDigit_of_mem_toDigits (by decide) (by decide) hc

/-- No two identifiers have one text. -/
theorem Identifier.text_injective {i j : Identifier} (h : i.text = j.text) : i = j := by
  unfold text at h
  have hdigits := String.ofList_inj.1 ((String.append_right_inj _).1 h)
  have hnumber : i.number = j.number := by
    calc
      i.number = Nat.ofDigitChars 10 (Duration.padded 12 i.number) 0 :=
        (ofDigitChars_padded 12 i.number).symm
      _ = Nat.ofDigitChars 10 (Duration.padded 12 j.number) 0 := by rw [hdigits]
      _ = j.number := ofDigitChars_padded 12 j.number
  obtain ⟨number⟩ := i
  obtain ⟨number'⟩ := j
  exact congrArg Identifier.mk hnumber

/-- Behind the last dash of an identifier stand its digits. -/
theorem Identifier.toList_text (id : Identifier) :
    id.text.toList =
      "00000000-0000-4000-8000".toList ++ '-' :: Duration.padded 12 id.number := by
  have hfixed : "00000000-0000-4000-8000-".toList =
      "00000000-0000-4000-8000".toList ++ ['-'] := rfl
  unfold text
  rw [String.toList_append, String.toList_ofList (l := Duration.padded 12 id.number), hfixed,
    List.append_assoc, List.singleton_append]

/-- The text of an identifier is not empty. -/
theorem Identifier.text_ne_empty (i : Identifier) : i.text ≠ "" := by
  intro h
  exact absurd (String.append_eq_empty_iff.1 h).1 (by decide)

end Reconnect
