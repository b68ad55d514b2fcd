import Reconnect.Proofs.Text.Utf8
import Reconnect.Text.Percent

/-!
# Reading percent coding

What was written in percent coding is read back (`percentDecode?_percentEncode`), and none of it
separates parts of an address. A text that was not written so is read back as it stands exactly if
no percent sign stands before two hexadecimal digits (`percentDecode?_eq_self_iff`).
-/

namespace Reconnect.Text

/-! ## Single bytes -/

theorem hexValue?_upperHexDigit {n : Nat} (hn : n < 16) : hexValue? (upperHexDigit n) = some n := by
  revert n
  decide

/-- A byte that stands for itself is one character, which is no percent sign. -/
theorem char_of_unreserved : ∀ b : UInt8, isUnreserved b = true →
    Char.ofNat b.toNat ≠ '%' ∧ String.utf8EncodeChar (Char.ofNat b.toNat) = [b] :=
  forall_byte (by decide +kernel)

/-- The characters that separate the parts of an address. -/
def delimiters : List Char := ['@', ':', '/', '?', '#']

theorem not_mem_delimiters_of_percentByte (b : UInt8) : ∀ c ∈ percentByte b, c ∉ delimiters := by
  have hall : ∀ b : UInt8, (percentByte b).all (· ∉ delimiters) = true :=
    forall_byte (by decide +kernel)
  simpa using hall b

/-- Percent coding holds no delimiter of an address. -/
theorem not_mem_percentEncode (s : String) : ∀ c ∈ (percentEncode s).toList, c ∉ delimiters := by
  intro c hc
  rw [percentEncode, String.toList_ofList, List.mem_flatMap] at hc
  obtain ⟨b, -, hc⟩ := hc
  exact not_mem_delimiters_of_percentByte b c hc

/-! ## Reading a percent sign -/

/-- The number that two hexadecimal digits at the front stand for. -/
def hexPair? : List Char → Option Nat
  | h :: l :: _ =>
    match hexValue? h, hexValue? l with
    | some x, some y => some (x * 16 + y)
    | _, _ => none
  | _ => none

variable {c : Char} {cs : List Char} {n : Nat}

/-- Fewer than two characters are no digits of an escape. -/
theorem hexPair?_of_short (h : ∀ x y more, cs ≠ x :: y :: more) : hexPair? cs = none := by
  rcases cs with _ | ⟨x, _ | ⟨y, more⟩⟩
  · rfl
  · rfl
  · exact absurd rfl (h x y more)

theorem percentBytes_cons (hc : c ≠ '%') (cs : List Char) :
    percentBytes (c :: cs) = String.utf8EncodeChar c ++ percentBytes cs := by
  rw [percentBytes]
  exact fun _ _ _ he => absurd he hc

/-- Two hexadecimal digits after a percent sign stand for one byte. -/
theorem percentBytes_of_hexPair (h : hexPair? cs = some n) :
    percentBytes ('%' :: cs) = UInt8.ofNat n :: percentBytes (cs.drop 2) := by
  match cs, h with
  | x :: y :: more, h =>
    cases hx : hexValue? x with
    | none => simp [hexPair?, hx] at h
    | some a =>
      cases hy : hexValue? y with
      | none => simp [hexPair?, hx, hy] at h
      | some b =>
        rw [hexPair?, hx, hy] at h
        cases h
        rw [percentBytes, hx, hy]
        rfl

/-- Otherwise a percent sign stands for itself. -/
theorem percentBytes_of_no_hexPair (h : hexPair? cs = none) :
    percentBytes ('%' :: cs) = 37 :: percentBytes cs := by
  match cs, h with
  | [], _ => rfl
  | [x], _ =>
    rw [percentBytes]
    · rfl
    · nofun
  | x :: y :: more, h =>
    cases hx : hexValue? x with
    | none => rw [percentBytes, hx]
    | some a =>
      cases hy : hexValue? y with
      | none => rw [percentBytes, hx, hy]
      | some b => simp [hexPair?, hx, hy] at h

/-! ## Reading back what was written -/

theorem percentBytes_percentByte (b : UInt8) (rest : List Char) :
    percentBytes (percentByte b ++ rest) = b :: percentBytes rest := by
  rw [percentByte]
  split
  case isTrue hb =>
    obtain ⟨hne, hbyte⟩ := char_of_unreserved b hb
    rw [List.singleton_append, percentBytes_cons hne, hbyte, List.singleton_append]
  case isFalse hb =>
    have hlt : b.toNat < 256 := b.toNat_lt
    have hhigh := hexValue?_upperHexDigit (show b.toNat / 16 < 16 by omega)
    have hlow := hexValue?_upperHexDigit (show b.toNat % 16 < 16 by omega)
    have hpair : hexPair? (upperHexDigit (b.toNat / 16) :: upperHexDigit (b.toNat % 16) :: rest) =
        some (b.toNat / 16 * 16 + b.toNat % 16) := by
      rw [hexPair?, hhigh, hlow]
    have hsum : b.toNat / 16 * 16 + b.toNat % 16 = b.toNat := by omega
    rw [List.cons_append, List.cons_append, List.cons_append, List.nil_append,
      percentBytes_of_hexPair hpair, hsum, UInt8.ofNat_toNat]
    rfl

theorem percentBytes_flatMap (bs : Bytes) : percentBytes (bs.flatMap percentByte) = bs := by
  induction bs with
  | nil => rfl
  | cons b bs ih => rw [List.flatMap_cons, percentBytes_percentByte, ih]

/-- What was written in percent coding is read back. -/
@[simp] theorem percentDecode?_percentEncode (s : String) :
    percentDecode? (percentEncode s) = some s := by
  rw [percentDecode?, percentEncode, String.toList_ofList, percentBytes_flatMap, ofUtf8?_utf8]

/-! ## Reading what was not written in percent coding -/

/-- No percent sign stands before two hexadecimal digits. -/
def Unescaped (cs : List Char) : Prop :=
  ∀ front behind, cs = front ++ '%' :: behind → hexPair? behind = none

theorem unescaped_cons_iff :
    Unescaped (c :: cs) ↔ (c = '%' → hexPair? cs = none) ∧ Unescaped cs := by
  constructor
  · intro h
    refine ⟨fun hc => h [] cs (by rw [hc]; rfl), fun front behind hcs => ?_⟩
    exact h (c :: front) behind (by rw [hcs]; rfl)
  · rintro ⟨hfirst, hrest⟩ front behind hcs
    cases front with
    | nil =>
      obtain ⟨hc, rfl⟩ := List.cons.inj hcs
      exact hfirst hc
    | cons c' front => exact hrest front behind (List.cons.inj hcs).2

/-- Without escapes each character stands for itself. -/
theorem percentBytes_of_unescaped (h : Unescaped cs) :
    percentBytes cs = cs.flatMap String.utf8EncodeChar := by
  induction cs with
  | nil => rfl
  | cons c cs ih =>
    obtain ⟨hfirst, hrest⟩ := unescaped_cons_iff.1 h
    rw [List.flatMap_cons, ← ih hrest]
    by_cases hc : c = '%'
    case pos =>
      subst hc
      rw [percentBytes_of_no_hexPair (hfirst rfl)]
      rfl
    case neg => exact percentBytes_cons hc cs

/-- Reading never gives more bytes than the characters have. -/
theorem length_percentBytes_le (cs : List Char) :
    (percentBytes cs).length ≤ (cs.flatMap String.utf8EncodeChar).length := by
  fun_induction percentBytes cs with
  | case1 => exact Nat.le_refl _
  | case2 h l more x y hx hy ih =>
    have hh := (String.length_utf8EncodeChar h).symm ▸ Char.utf8Size_pos h
    simp only [List.flatMap_cons, List.length_append, List.length_cons]
    omega
  | case3 h l more hnone ih =>
    rw [List.flatMap_cons, List.length_append, List.length_cons]
    have hpercent : (String.utf8EncodeChar '%').length = 1 := rfl
    omega
  | case4 c rest hne ih =>
    rw [List.flatMap_cons, List.length_append, List.length_append]
    exact Nat.add_le_add_left ih _

/-- Each character stands for itself exactly if no percent sign stands before two digits: each
escape makes the bytes fewer. -/
theorem percentBytes_eq_iff :
    percentBytes cs = cs.flatMap String.utf8EncodeChar ↔ Unescaped cs := by
  refine ⟨fun h => ?_, percentBytes_of_unescaped⟩
  induction cs with
  | nil => exact fun front behind he => absurd he (by simp)
  | cons c cs ih =>
    by_cases hc : c = '%'
    case neg =>
      rw [percentBytes_cons hc, List.flatMap_cons] at h
      exact unescaped_cons_iff.2 ⟨fun he => absurd he hc, ih (List.append_cancel_left h)⟩
    case pos =>
      subst hc
      cases hpair : hexPair? cs with
      | none =>
        rw [percentBytes_of_no_hexPair hpair] at h
        exact unescaped_cons_iff.2 ⟨fun _ => hpair, ih (List.cons.inj h).2⟩
      | some n =>
        rw [percentBytes_of_hexPair hpair] at h
        match cs, hpair with
        | x :: y :: more, _ =>
          -- one byte stands for three characters, so what is left cannot make up for it
          have hle := length_percentBytes_le more
          have hlength := congrArg List.length h
          have hx := (String.length_utf8EncodeChar x).symm ▸ Char.utf8Size_pos x
          simp only [List.flatMap_cons, List.length_append, List.length_cons, List.drop] at hlength
          have hpercent : (String.utf8EncodeChar '%').length = 1 := rfl
          omega

instance (cs : List Char) : Decidable (Unescaped cs) :=
  decidable_of_iff (percentBytes cs = cs.flatMap String.utf8EncodeChar) percentBytes_eq_iff

/-- A text is read back as it stands exactly if it holds no escape. -/
theorem percentDecode?_eq_self_iff {s : String} :
    percentDecode? s = some s ↔ Unescaped s.toList := by
  rw [percentDecode?, ofUtf8?_eq_some_iff, utf8, percentBytes_eq_iff]

end Reconnect.Text
