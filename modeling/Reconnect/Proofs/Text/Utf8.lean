import Reconnect.Text.Utf8

/-!
# Reading back what was encoded

The bytes of a text are read back as the characters of that text (`parts_utf8`), so both ways of
reading bytes agree on them. A character takes one byte or a lead byte and up to three bytes that
continue it; the bounds of the second byte exclude what a shorter form could encode, and the
numbers that are no characters.
-/

namespace Reconnect.Text

/-- What holds of each number below 256 holds of each byte. -/
theorem forall_byte {p : UInt8 → Prop} (h : ∀ n < 256, p (UInt8.ofNat n)) (b : UInt8) : p b := by
  have hb := h b.toNat b.toNat_lt
  rwa [UInt8.ofNat_toNat] at hb

/-! ## Lead and continuation bytes -/

theorem leadBounds_two {n : Nat} (hn : n < 30) :
    leadBounds (UInt8.ofNat (n + 194)) = some (0x80, 0xbf, 1) := by
  revert n
  decide

theorem leadBounds_three {n : Nat} (hn : n < 16) :
    leadBounds (UInt8.ofNat (n + 224)) =
      some (if n = 0 then 0xa0 else 0x80, if n = 13 then 0x9f else 0xbf, 2) := by
  revert n
  decide

theorem leadBounds_four {n : Nat} (hn : n < 5) :
    leadBounds (UInt8.ofNat (n + 240)) =
      some (if n = 0 then 0x90 else 0x80, if n = 4 then 0x8f else 0xbf, 3) := by
  revert n
  decide

/-- A byte that continues a character and carries the bits of `n`. -/
def continuing (n : Nat) : UInt8 := UInt8.ofNat (n % 64 + 128)

theorem toNat_continuing (n : Nat) : (continuing n).toNat = n % 64 + 128 := by
  rw [continuing, UInt8.toNat_ofNat']
  omega

@[simp] theorem isContinuation_continuing (n : Nat) : isContinuation (continuing n) = true := by
  rw [isContinuation, Bool.and_eq_true, decide_eq_true_iff, decide_eq_true_iff,
    UInt8.le_iff_toNat_le, UInt8.le_iff_toNat_le, toNat_continuing]
  have hlow : (0x80 : UInt8).toNat = 128 := rfl
  have hhigh : (0xbf : UInt8).toNat = 191 := rfl
  omega

@[simp] theorem payload_continuing (n : Nat) : payload (continuing n) = n % 64 := by
  rw [payload, toNat_continuing]
  omega

/-- A continuation byte is within a bound that is only sometimes above the lowest one. -/
theorem le_continuing {p : Prop} [Decidable p] {b : UInt8} {n : Nat}
    (h : p → b.toNat ≤ n % 64 + 128) : (if p then b else 0x80) ≤ continuing n := by
  rw [UInt8.le_iff_toNat_le, toNat_continuing]
  split
  case isTrue hp => exact h hp
  case isFalse hp => exact Nat.le_add_left _ _

/-- A continuation byte is within a bound that is only sometimes below the highest one. -/
theorem continuing_le {p : Prop} [Decidable p] {b : UInt8} {n : Nat}
    (h : p → n % 64 + 128 ≤ b.toNat) : continuing n ≤ (if p then b else 0xbf) := by
  rw [UInt8.le_iff_toNat_le, toNat_continuing]
  split
  case isTrue hp => exact h hp
  case isFalse hp =>
    have hlt : n % 64 < 64 := Nat.mod_lt _ (by decide)
    change n % 64 + 128 ≤ 191
    omega

theorem not_ofNat_lt {n : Nat} (hlow : 128 ≤ n) (hhigh : n < 256) : ¬ UInt8.ofNat n < 0x80 := by
  rw [UInt8.lt_iff_toNat_lt, UInt8.toNat_ofNat_of_lt' hhigh]
  exact Nat.not_lt.2 hlow

/-! ## Characters of one to four bytes -/

theorem readChar_one {n : Nat} (hn : n < 128) (rest : Bytes) :
    readChar (UInt8.ofNat n) rest = (some (Char.ofNat n), 0) := by
  have hbyte : (UInt8.ofNat n).toNat = n := UInt8.toNat_ofNat_of_lt' (show n < 256 by omega)
  have hlt : UInt8.ofNat n < 0x80 := by
    rw [UInt8.lt_iff_toNat_lt, hbyte]
    exact hn
  rw [readChar, if_pos hlt, hbyte]

theorem readChar_two {n : Nat} (hn : n < 30) (k : Nat) (rest : Bytes) :
    readChar (UInt8.ofNat (n + 194)) (continuing k :: rest) =
      (some (Char.ofNat ((n + 194) % 32 * 64 + k % 64)), 1) := by
  have hlow : (0x80 : UInt8) ≤ continuing k := le_continuing (p := False) (b := 0) nofun
  have hhigh : continuing k ≤ 0xbf := continuing_le (p := False) (b := 0) nofun
  rw [readChar, if_neg (not_ofNat_lt (by omega) (by omega)), leadBounds_two hn]
  simp [hlow, hhigh]

/-- Neither a character that fits in two bytes nor a surrogate is read. -/
theorem readChar_three {n : Nat} (hn : n < 16) (j k : Nat) (rest : Bytes)
    (hshort : n = 0 → 32 ≤ j % 64) (hsurrogate : n = 13 → j % 64 ≤ 31) :
    readChar (UInt8.ofNat (n + 224)) (continuing j :: continuing k :: rest) =
      (some (Char.ofNat ((n + 224) % 16 * 4096 + j % 64 * 64 + k % 64)), 2) := by
  have hlow : (if n = 0 then 0xa0 else 0x80 : UInt8) ≤ continuing j :=
    le_continuing fun h => Nat.add_le_add_right (hshort h) 128
  have hhigh : continuing j ≤ (if n = 13 then 0x9f else 0xbf : UInt8) :=
    continuing_le fun h => Nat.add_le_add_right (hsurrogate h) 128
  rw [readChar, if_neg (not_ofNat_lt (by omega) (by omega)), leadBounds_three hn]
  simp [hlow, hhigh]

/-- Neither a character that fits in three bytes nor one beyond the last is read. -/
theorem readChar_four {n : Nat} (hn : n < 5) (i j k : Nat) (rest : Bytes)
    (hshort : n = 0 → 16 ≤ i % 64) (hlast : n = 4 → i % 64 ≤ 15) :
    readChar (UInt8.ofNat (n + 240)) (continuing i :: continuing j :: continuing k :: rest) =
      (some (Char.ofNat ((n + 240) % 8 * 262144 + i % 64 * 4096 + j % 64 * 64 + k % 64)), 3) := by
  have hlow : (if n = 0 then 0x90 else 0x80 : UInt8) ≤ continuing i :=
    le_continuing fun h => Nat.add_le_add_right (hshort h) 128
  have hhigh : continuing i ≤ (if n = 4 then 0x8f else 0xbf : UInt8) :=
    continuing_le fun h => Nat.add_le_add_right (hlast h) 128
  rw [readChar, if_neg (not_ofNat_lt (by omega) (by omega)), leadBounds_four hn]
  simp [hlow, hhigh]

/-! ## Texts -/

/-- The first byte of a character tells how many bytes follow, and these give the character. -/
theorem readChar_encode (c : Char) (rest : Bytes) :
    ∃ b more, String.utf8EncodeChar c = b :: more ∧
      readChar b (more ++ rest) = (some c, more.length) := by
  have hvalid : c.toNat < 0xd800 ∨ 0xdfff < c.toNat ∧ c.toNat < 0x110000 := c.valid
  -- in each case the bits that the bytes carry make up the number of the character
  have hback : ∀ n, n = c.toNat → some (Char.ofNat n) = some c := by
    rintro n rfl
    rw [Char.ofNat_toNat]
  have hval : c.val.toNat = c.toNat := rfl
  rw [String.utf8EncodeChar, hval]
  by_cases h1 : c.toNat ≤ 0x7f
  case pos =>
    rw [if_pos h1]
    refine ⟨_, _, rfl, (readChar_one (Nat.lt_succ_of_le h1) rest).trans ?_⟩
    rw [hback _ rfl]
    rfl
  rw [if_neg h1]
  by_cases h2 : c.toNat ≤ 0x7ff
  case pos =>
    have hlead : c.toNat / 64 % 32 + 192 = (c.toNat / 64 - 2) + 194 := by omega
    rw [if_pos h2, hlead]
    refine ⟨_, _, rfl, (readChar_two (by omega) c.toNat rest).trans ?_⟩
    rw [hback _ (by omega)]
    rfl
  rw [if_neg h2]
  by_cases h3 : c.toNat ≤ 0xffff
  case pos =>
    have hlead : c.toNat / 4096 % 16 + 224 = c.toNat / 4096 + 224 := by omega
    rw [if_pos h3, hlead]
    refine ⟨_, _, rfl, (readChar_three (by omega) (c.toNat / 64) c.toNat rest ?_ ?_).trans ?_⟩
    · omega
    · omega
    · rw [hback _ (by omega)]
      rfl
  case neg =>
    have hlead : c.toNat / 262144 % 8 + 240 = c.toNat / 262144 + 240 := by omega
    rw [if_neg h3, hlead]
    refine ⟨_, _, rfl, (readChar_four (by omega) (c.toNat / 4096) (c.toNat / 64) c.toNat rest
      ?_ ?_).trans ?_⟩
    · omega
    · omega
    · rw [hback _ (by omega)]
      rfl

/-- As many steps of reading as there are bytes are enough. -/
theorem readParts_encode (cs : List Char) (fuel : Nat)
    (hfuel : (cs.flatMap String.utf8EncodeChar).length ≤ fuel) :
    readParts fuel (cs.flatMap String.utf8EncodeChar) = cs.map some := by
  induction cs generalizing fuel with
  | nil => cases fuel <;> rfl
  | cons c cs ih =>
    -- each step reads one character, and a character has at least one byte
    obtain ⟨b, more, hbytes, hread⟩ := readChar_encode c (cs.flatMap String.utf8EncodeChar)
    rw [List.flatMap_cons, hbytes, List.cons_append] at hfuel ⊢
    cases fuel with
    | zero => exact absurd hfuel (Nat.not_succ_le_zero _)
    | succ fuel =>
      rw [List.length_cons, List.length_append] at hfuel
      rw [readParts]
      simp only [hread, List.drop_left, List.map_cons]
      rw [ih fuel (by omega)]

theorem parts_utf8 (s : String) : parts (utf8 s) = s.toList.map some :=
  readParts_encode s.toList _ (Nat.le_refl _)

/-- Reading fails as soon as one part is no character. -/
theorem mapM_id_eq_some_iff {α : Type} {ps : List (Option α)} {as : List α} :
    ps.mapM id = some as ↔ ps = as.map some := by
  induction ps generalizing as with
  | nil => cases as <;> simp
  | cons p ps ih =>
    cases p with
    | none => cases as <;> simp
    | some a =>
      cases as with
      | nil => simp [Option.bind_eq_some_iff]
      | cons a' as =>
        simp [Option.bind_eq_some_iff, ih]
        exact and_comm

/-- A text is read back from its bytes. -/
@[simp] theorem ofUtf8?_utf8 (s : String) : ofUtf8? (utf8 s) = some s := by
  rw [ofUtf8?, parts_utf8, mapM_id_eq_some_iff.2 rfl, Option.map_some, String.ofList_toList]

/-! ## Nothing else is read -/

theorem toNat_ofNat {n : Nat} (h : n.isValidChar) : (Char.ofNat n).toNat = n := by
  rw [Char.ofNat, dif_pos h]
  rfl

theorem payload_lt (b : UInt8) : payload b < 64 := Nat.mod_lt _ (by decide)

/-- A byte that continues a character is known by the bits that it carries. -/
theorem eq_continuing : ∀ b : UInt8, isContinuation b = true → b = continuing (payload b) :=
  forall_byte (by decide +kernel)

theorem payload_add : ∀ b : UInt8, isContinuation b = true → payload b + 128 = b.toNat :=
  forall_byte (by decide +kernel)

/-- The second byte of a character continues it, and what it carries is within its bounds. -/
theorem payload_of_bounds {p q : Prop} [Decidable p] [Decidable q] {lo hi b : UInt8} {m n : Nat}
    (hlo : lo.toNat = m + 128) (hhi : hi.toNat = n + 128) (hn : n < 64)
    (h : ((if p then lo else 0x80) ≤ b && b ≤ (if q then hi else 0xbf)) = true) :
    isContinuation b = true ∧ (p → m ≤ payload b) ∧ (q → payload b ≤ n) := by
  simp only [Bool.and_eq_true, decide_eq_true_iff, UInt8.le_iff_toNat_le] at h
  have hlowest : (0x80 : UInt8).toNat = 128 := rfl
  have hhighest : (0xbf : UInt8).toNat = 191 := rfl
  have hb : isContinuation b = true := by
    simp only [isContinuation, Bool.and_eq_true, decide_eq_true_iff, UInt8.le_iff_toNat_le]
    constructor
    · refine Nat.le_trans ?_ h.1
      split <;> omega
    · refine Nat.le_trans h.2 ?_
      split <;> omega
  have hpayload := payload_add b hb
  refine ⟨hb, fun hp => ?_, fun hq => ?_⟩
  · rw [if_pos hp] at h
    omega
  · rw [if_pos hq] at h
    omega

theorem encode_one {n : Nat} (hn : n < 128) :
    String.utf8EncodeChar (Char.ofNat n) = [UInt8.ofNat n] := by
  have hval : (Char.ofNat n).val.toNat = n := toNat_ofNat (.inl (by omega))
  rw [String.utf8EncodeChar, hval, if_pos (by omega)]

theorem encode_two {n k : Nat} (hn : n < 30) (hk : k < 64) :
    String.utf8EncodeChar (Char.ofNat ((n + 194) % 32 * 64 + k)) =
      [UInt8.ofNat (n + 194), continuing k] := by
  obtain ⟨v, hv⟩ : ∃ v, v = (n + 194) % 32 * 64 + k := ⟨_, rfl⟩
  have hval : (Char.ofNat v).val.toNat = v := toNat_ofNat (.inl (by omega))
  have hlead : v / 64 % 32 + 192 = n + 194 := by omega
  have hlast : v % 64 = k % 64 := by omega
  rw [← hv, String.utf8EncodeChar, hval, if_neg (by omega), if_pos (by omega), hlead, hlast]
  rfl

theorem encode_three {n j k : Nat} (hn : n < 16) (hj : j < 64) (hk : k < 64)
    (hshort : n = 0 → 32 ≤ j) (hsurrogate : n = 13 → j ≤ 31) :
    String.utf8EncodeChar (Char.ofNat ((n + 224) % 16 * 4096 + j * 64 + k)) =
      [UInt8.ofNat (n + 224), continuing j, continuing k] := by
  obtain ⟨v, hv⟩ : ∃ v, v = (n + 224) % 16 * 4096 + j * 64 + k := ⟨_, rfl⟩
  have hvalid : v.isValidChar := by
    show v < 0xd800 ∨ 0xdfff < v ∧ v < 0x110000
    omega
  have hval : (Char.ofNat v).val.toNat = v := toNat_ofNat hvalid
  have hlead : v / 4096 % 16 + 224 = n + 224 := by omega
  have hmiddle : v / 64 % 64 = j % 64 := by omega
  have hlast : v % 64 = k % 64 := by omega
  rw [← hv, String.utf8EncodeChar, hval, if_neg (by omega), if_neg (by omega), if_pos (by omega),
    hlead, hmiddle, hlast]
  rfl

theorem encode_four {n i j k : Nat} (hn : n < 5) (hi : i < 64) (hj : j < 64) (hk : k < 64)
    (hshort : n = 0 → 16 ≤ i) (hlast : n = 4 → i ≤ 15) :
    String.utf8EncodeChar (Char.ofNat ((n + 240) % 8 * 262144 + i * 4096 + j * 64 + k)) =
      [UInt8.ofNat (n + 240), continuing i, continuing j, continuing k] := by
  obtain ⟨v, hv⟩ : ∃ v, v = (n + 240) % 8 * 262144 + i * 4096 + j * 64 + k := ⟨_, rfl⟩
  have hvalid : v.isValidChar := by
    show v < 0xd800 ∨ 0xdfff < v ∧ v < 0x110000
    omega
  have hval : (Char.ofNat v).val.toNat = v := toNat_ofNat hvalid
  have hlead : v / 262144 % 8 + 240 = n + 240 := by omega
  have hsecond : v / 4096 % 64 = i % 64 := by omega
  have hthird : v / 64 % 64 = j % 64 := by omega
  have hfourth : v % 64 = k % 64 := by omega
  rw [← hv, String.utf8EncodeChar, hval, if_neg (by omega), if_neg (by omega), if_neg (by omega),
    hlead, hsecond, hthird, hfourth]
  rfl

/-- Every lead byte is one of two, three or four bytes. -/
theorem lead_cases : ∀ b : UInt8, leadBounds b = none ∨
    (∃ n < 30, b = UInt8.ofNat (n + 194)) ∨ (∃ n < 16, b = UInt8.ofNat (n + 224)) ∨
      ∃ n < 5, b = UInt8.ofNat (n + 240) :=
  forall_byte (by decide +kernel)

section Reading

variable {b lo hi : UInt8} {rest : Bytes} {c : Char} {k : Nat}

theorem readChar_eq_two (hb : ¬ b < 0x80) (hl : leadBounds b = some (lo, hi, 1))
    (h : readChar b rest = (some c, k)) :
    ∃ b1 more, rest = b1 :: more ∧ (lo ≤ b1 && b1 ≤ hi) = true ∧
      (Char.ofNat (b.toNat % 32 * 64 + payload b1), 1) = (c, k) := by
  rw [readChar, if_neg hb, hl] at h
  match rest, h with
  | b1 :: more, h =>
    dsimp only at h
    split at h
    case isTrue => cases h
    case isFalse hb1 =>
      cases h
      exact ⟨b1, more, rfl, by simpa using hb1, rfl⟩

theorem readChar_eq_three (hb : ¬ b < 0x80) (hl : leadBounds b = some (lo, hi, 2))
    (h : readChar b rest = (some c, k)) :
    ∃ b1 b2 more, rest = b1 :: b2 :: more ∧ (lo ≤ b1 && b1 ≤ hi) = true ∧
      isContinuation b2 = true ∧
      (Char.ofNat (b.toNat % 16 * 4096 + payload b1 * 64 + payload b2), 2) = (c, k) := by
  rw [readChar, if_neg hb, hl] at h
  match rest, h with
  | [b1], h =>
    dsimp only at h
    split at h <;> cases h
  | b1 :: b2 :: more, h =>
    dsimp only at h
    split at h
    case isTrue => cases h
    case isFalse hb1 =>
      rw [if_neg (by decide)] at h
      split at h
      case isTrue => cases h
      case isFalse hb2 =>
        cases h
        exact ⟨b1, b2, more, rfl, by simpa using hb1, by simpa using hb2, rfl⟩

theorem readChar_eq_four (hb : ¬ b < 0x80) (hl : leadBounds b = some (lo, hi, 3))
    (h : readChar b rest = (some c, k)) :
    ∃ b1 b2 b3 more, rest = b1 :: b2 :: b3 :: more ∧ (lo ≤ b1 && b1 ≤ hi) = true ∧
      isContinuation b2 = true ∧ isContinuation b3 = true ∧
      (Char.ofNat (b.toNat % 8 * 262144 + payload b1 * 4096 + payload b2 * 64 + payload b3), 3) =
        (c, k) := by
  rw [readChar, if_neg hb, hl] at h
  match rest, h with
  | [b1], h =>
    dsimp only at h
    split at h <;> cases h
  | [b1, b2], h =>
    dsimp only at h
    split at h
    case isTrue => cases h
    case isFalse =>
      rw [if_neg (by decide)] at h
      split at h <;> cases h
  | b1 :: b2 :: b3 :: more, h =>
    dsimp only at h
    split at h
    case isTrue => cases h
    case isFalse hb1 =>
      rw [if_neg (by decide)] at h
      split at h
      case isTrue => cases h
      case isFalse hb2 =>
        rw [if_neg (by decide)] at h
        split at h
        case isTrue => cases h
        case isFalse hb3 =>
          cases h
          exact ⟨b1, b2, b3, more, rfl, by simpa using hb1, by simpa using hb2, by simpa using hb3,
            rfl⟩

/-- The bytes from which a character is read are the bytes of that character. -/
theorem encode_of_readChar (h : readChar b rest = (some c, k)) :
    b :: rest.take k = String.utf8EncodeChar c ∧ k ≤ rest.length := by
  by_cases hb : b < 0x80
  case pos =>
    rw [readChar, if_pos hb] at h
    cases h
    rw [UInt8.lt_iff_toNat_lt] at hb
    rw [encode_one hb, UInt8.ofNat_toNat]
    exact ⟨rfl, Nat.zero_le _⟩
  rcases lead_cases b with hnone | ⟨n, hn, rfl⟩ | ⟨n, hn, rfl⟩ | ⟨n, hn, rfl⟩
  · rw [readChar, if_neg hb, hnone] at h
    cases h
  · obtain ⟨b1, more, rfl, hb1, hc⟩ := readChar_eq_two hb (leadBounds_two hn) h
    cases hc
    have h1 : isContinuation b1 = true := hb1
    rw [UInt8.toNat_ofNat_of_lt' (show n + 194 < 256 by omega), encode_two hn (payload_lt b1),
      ← eq_continuing b1 h1]
    exact ⟨rfl, Nat.succ_le_succ (Nat.zero_le _)⟩
  · obtain ⟨b1, b2, more, rfl, hb1, h2, hc⟩ := readChar_eq_three hb (leadBounds_three hn) h
    cases hc
    obtain ⟨h1, hshort, hsurrogate⟩ := payload_of_bounds (m := 32) (n := 31) rfl rfl (by decide) hb1
    rw [UInt8.toNat_ofNat_of_lt' (show n + 224 < 256 by omega), encode_three hn (payload_lt b1)
      (payload_lt b2) hshort hsurrogate, ← eq_continuing b1 h1, ← eq_continuing b2 h2]
    exact ⟨rfl, Nat.succ_le_succ (Nat.succ_le_succ (Nat.zero_le _))⟩
  · obtain ⟨b1, b2, b3, more, rfl, hb1, h2, h3, hc⟩ := readChar_eq_four hb (leadBounds_four hn) h
    cases hc
    obtain ⟨h1, hshort, hlast⟩ := payload_of_bounds (m := 16) (n := 15) rfl rfl (by decide) hb1
    rw [UInt8.toNat_ofNat_of_lt' (show n + 240 < 256 by omega), encode_four hn (payload_lt b1)
      (payload_lt b2) (payload_lt b3) hshort hlast, ← eq_continuing b1 h1, ← eq_continuing b2 h2,
      ← eq_continuing b3 h3]
    exact ⟨rfl, Nat.succ_le_succ (Nat.succ_le_succ (Nat.succ_le_succ (Nat.zero_le _)))⟩

end Reading

theorem encode_of_readParts (fuel : Nat) (bs : Bytes) (cs : List Char) (hfuel : bs.length ≤ fuel)
    (h : readParts fuel bs = cs.map some) : bs = cs.flatMap String.utf8EncodeChar := by
  induction fuel generalizing bs cs with
  | zero =>
    obtain rfl := List.length_eq_zero_iff.1 (Nat.le_zero.1 hfuel)
    obtain rfl := List.map_eq_nil_iff.1 h.symm
    rfl
  | succ fuel ih =>
    cases bs with
    | nil =>
      obtain rfl := List.map_eq_nil_iff.1 h.symm
      rfl
    | cons b rest =>
      rw [readParts] at h
      obtain ⟨c, cs, rfl, hc, hcs⟩ := List.map_eq_cons_iff.1 h.symm
      have hread : readChar b rest = (some c, (readChar b rest).2) := Prod.ext hc.symm rfl
      obtain ⟨hbytes, hle⟩ := encode_of_readChar hread
      have hshorter : (rest.drop (readChar b rest).2).length ≤ fuel := by
        rw [List.length_drop]
        exact Nat.le_trans (Nat.sub_le _ _) (Nat.le_of_succ_le_succ hfuel)
      rw [List.flatMap_cons, ← hbytes, ← ih _ cs hshorter hcs.symm, List.cons_append,
        List.take_append_drop]

/-- Bytes are read as a text exactly if they are the bytes of that text. -/
theorem ofUtf8?_eq_some_iff {bs : Bytes} {s : String} : ofUtf8? bs = some s ↔ bs = utf8 s := by
  constructor
  · intro h
    obtain ⟨cs, hcs, rfl⟩ := Option.map_eq_some_iff.1 h
    rw [utf8, String.toList_ofList]
    exact encode_of_readParts _ bs cs (Nat.le_refl _) (mapM_id_eq_some_iff.1 hcs)
  · rintro rfl
    exact ofUtf8?_utf8 s

end Reconnect.Text
