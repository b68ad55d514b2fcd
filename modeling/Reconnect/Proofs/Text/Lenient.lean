import Reconnect.Proofs.Text.Utf8

/-!
# Reading bytes leniently

Bytes fall into characters and ill-formed parts. An ill-formed part stands where no character does:
it is as much of the beginning of a character as there is, or else a single byte (`IllFormed`). Read
leniently, each ill-formed part becomes one replacement character (`Lenient`), and that is the text
that `ofUtf8Lossy` gives (`ofUtf8Lossy_eq_iff`). The bytes of a text have no ill-formed parts, so
they read as that text (`ofUtf8Lossy_utf8`).
-/

namespace Reconnect.Text

/-- Some character begins with these bytes. -/
def Begins (bs : Bytes) : Prop := ∃ c, bs <+: String.utf8EncodeChar c

/-- An ill-formed part of bytes, with what follows it. -/
structure IllFormed (part rest : Bytes) : Prop where
  /-- No character stands there. -/
  noChar : ∀ c, ¬ String.utf8EncodeChar c <+: part ++ rest
  single_or_begins : part.length = 1 ∨ part ≠ [] ∧ Begins part
  /-- No character begins with more of the bytes. -/
  maximal : ∀ longer, longer <+: part ++ rest → part.length < longer.length → ¬ Begins longer

/-- What bytes are read as when each ill-formed part becomes one replacement character. -/
inductive Lenient : Bytes → List Char → Prop
  | nil : Lenient [] []
  | char {c : Char} {rest : Bytes} {cs : List Char} : Lenient rest cs →
    Lenient (String.utf8EncodeChar c ++ rest) (c :: cs)
  | illFormed {part rest : Bytes} {cs : List Char} : IllFormed part rest → Lenient rest cs →
    Lenient (part ++ rest) (replacement :: cs)

/-! ## One step of reading -/

section Step

variable {b : UInt8} {rest : Bytes} {k : Nat}

/-- Where a character that begins with `b` stops, and how many bytes of it are read after `b`: the
byte there does not continue it, or there is none. -/
inductive Interrupted (b : UInt8) : Bytes → Nat → Prop
  | atLead {rest : Bytes} : leadBounds b = none → Interrupted b rest 0
  | atSecond {lo hi : UInt8} {n : Nat} {rest : Bytes} : leadBounds b = some (lo, hi, n) →
    (∀ b1 ∈ rest.head?, ¬ (lo ≤ b1 ∧ b1 ≤ hi)) → Interrupted b rest 0
  | atThird {lo hi b1 : UInt8} {n : Nat} {r1 : Bytes} : leadBounds b = some (lo, hi, n) →
    lo ≤ b1 ∧ b1 ≤ hi → n ≠ 1 →
    (∀ b2 ∈ r1.head?, ¬ isContinuation b2) → Interrupted b (b1 :: r1) 1
  | atFourth {lo hi b1 b2 : UInt8} {n : Nat} {r2 : Bytes} : leadBounds b = some (lo, hi, n) →
    lo ≤ b1 ∧ b1 ≤ hi → n ≠ 1 → isContinuation b2 → n ≠ 2 →
    (∀ b3 ∈ r2.head?, ¬ isContinuation b3) → Interrupted b (b1 :: b2 :: r2) 2

/-- One case for each byte at which a reading without a character may end. -/
theorem interrupted_of_readChar (h : readChar b rest = (none, k)) :
    ¬ b < 0x80 ∧ Interrupted b rest k := by
  rw [readChar] at h
  split at h
  case isTrue => cases h
  case isFalse hb =>
    refine ⟨hb, ?_⟩
    cases hl : leadBounds b with
    | none =>
      rw [hl] at h
      cases h
      exact .atLead hl
    | some bounds =>
      obtain ⟨lo, hi, n⟩ := bounds
      rw [hl] at h
      cases rest with
      | nil =>
        cases h
        exact .atSecond hl (by simp)
      | cons b1 r1 =>
        dsimp only at h
        split at h
        case isTrue hb1 =>
          cases h
          exact .atSecond hl (by simpa [Classical.or_iff_not_imp_left] using hb1)
        case isFalse hb1 =>
          split at h
          case isTrue => cases h
          case isFalse hn1 =>
            cases r1 with
            | nil =>
              cases h
              exact .atThird hl (by simpa using hb1) hn1 (by simp)
            | cons b2 r2 =>
              dsimp only at h
              split at h
              case isTrue hb2 =>
                cases h
                exact .atThird hl (by simpa using hb1) hn1 (by simpa using hb2)
              case isFalse hb2 =>
                split at h
                case isTrue => cases h
                case isFalse hn2 =>
                  cases r2 with
                  | nil =>
                    cases h
                    exact .atFourth hl (by simpa using hb1) hn1 (by simpa using hb2) hn2 (by simp)
                  | cons b3 r3 =>
                    dsimp only at h
                    split at h
                    case isFalse => cases h
                    case isTrue hb3 =>
                      cases h
                      exact .atFourth hl (by simpa using hb1) hn1 (by simpa using hb2) hn2
                        (by simpa using hb3)

theorem readChar_of_interrupted (hb : ¬ b < 0x80) (h : Interrupted b rest k) :
    readChar b rest = (none, k) := by
  cases h with
  | atLead hl => simp only [readChar, if_neg hb, hl]
  | atSecond hl hnext =>
    cases rest with
    | nil => simp only [readChar, if_neg hb, hl]
    | cons b1 r1 => simp [readChar, hb, hl, hnext b1 rfl]
  | @atThird _ _ _ _ r1 hl hb1 hn1 hnext =>
    cases r1 with
    | nil => simp [readChar, hb, hl, hb1, hn1]
    | cons b2 r2 => simp [readChar, hb, hl, hb1, hn1, hnext b2 rfl]
  | @atFourth _ _ _ _ _ r2 hl hb1 hn1 hb2 hn2 hnext =>
    cases r2 with
    | nil => simp [readChar, hb, hl, hb1, hn1, hb2, hn2]
    | cons b3 r3 => simp [readChar, hb, hl, hb1, hn1, hb2, hn2, hnext b3 rfl]

/-- Only the bytes that are read and the one behind them have been looked at. -/
theorem Interrupted.congr {rest' : Bytes} (h : Interrupted b rest k)
    (hsame : rest'.take (k + 1) = rest.take (k + 1)) : Interrupted b rest' k := by
  have hhead {bs bs' : Bytes} (h : bs'.take 1 = bs.take 1) : bs'.head? = bs.head? := by
    simpa [List.head?_take] using congrArg List.head? h
  cases h with
  | atLead hl => exact .atLead hl
  | atSecond hl hnext => exact .atSecond hl (by rwa [hhead hsame])
  | atThird hl hb1 hn1 hnext =>
    rcases rest' with _ | ⟨b1', r1'⟩
    · simp at hsame
    · obtain ⟨rfl, hnextSame⟩ := List.cons.inj hsame
      exact .atThird hl hb1 hn1 (by rwa [hhead hnextSame])
  | atFourth hl hb1 hn1 hb2 hn2 hnext =>
    rcases rest' with _ | ⟨b1', _ | ⟨b2', r2'⟩⟩
    · simp at hsame
    · simp at hsame
    · obtain ⟨rfl, hsecondSame⟩ := List.cons.inj hsame
      obtain ⟨rfl, hnextSame⟩ := List.cons.inj hsecondSame
      exact .atFourth hl hb1 hn1 hb2 hn2 (by rwa [hhead hnextSame])

/-- The bytes of a part of several bytes begin a character: bytes that continue it can be added. -/
theorem Interrupted.begins (hb : ¬ b < 0x80) (h : Interrupted b rest k) (hk : 0 < k) :
    Begins (b :: rest.take k) := by
  have hcontinuation : isContinuation 0x80 = true := rfl
  cases h with
  | atLead => exact absurd hk (Nat.lt_irrefl 0)
  | atSecond => exact absurd hk (Nat.lt_irrefl 0)
  | @atThird _ _ b1 n _ hl hb1 hn1 =>
    -- one byte more, or two if the character takes three after the first
    by_cases hn2 : n = 2
    · obtain ⟨c, hc⟩ : ∃ c, readChar b [b1, 0x80] = (some c, 2) := by
        simp [readChar, hb, hl, hb1, hn2, hcontinuation]
      exact ⟨c, by rw [← (encode_of_readChar hc).1]; exact ⟨[0x80], rfl⟩⟩
    · obtain ⟨c, hc⟩ : ∃ c, readChar b [b1, 0x80, 0x80] = (some c, 3) := by
        simp [readChar, hb, hl, hb1, hn1, hn2, hcontinuation]
      exact ⟨c, by rw [← (encode_of_readChar hc).1]; exact ⟨[0x80, 0x80], rfl⟩⟩
  | @atFourth _ _ b1 b2 _ _ hl hb1 hn1 hb2 hn2 =>
    obtain ⟨c, hc⟩ : ∃ c, readChar b [b1, b2, 0x80] = (some c, 3) := by
      simp [readChar, hb, hl, hb1, hn1, hb2, hn2, hcontinuation]
    exact ⟨c, by rw [← (encode_of_readChar hc).1]; exact ⟨[0x80], rfl⟩⟩

/-- A character that stands at the front is read. -/
theorem readChar_of_isPrefix {c : Char} (h : String.utf8EncodeChar c <+: b :: rest) :
    readChar b rest = (some c, (String.utf8EncodeChar c).length - 1) := by
  obtain ⟨behind, hbehind⟩ := h
  obtain ⟨b', more, hbytes, hread⟩ := readChar_encode c behind
  rw [hbytes, List.cons_append] at hbehind
  obtain ⟨rfl, rfl⟩ := List.cons.inj hbehind
  rw [hbytes]
  exact hread

/-- Where no character is read stands an ill-formed part. -/
theorem illFormed_of_readChar (h : readChar b rest = (none, k)) :
    IllFormed (b :: rest.take k) (rest.drop k) := by
  obtain ⟨hb, hinterrupted⟩ := interrupted_of_readChar h
  have hsplit : b :: rest.take k ++ rest.drop k = b :: rest := by
    rw [List.cons_append, List.take_append_drop]
  constructor
  · intro c hc
    rw [hsplit] at hc
    rw [readChar_of_isPrefix hc] at h
    cases h
  · cases k with
    | zero => exact .inl rfl
    | succ k => exact .inr ⟨List.cons_ne_nil _ _, hinterrupted.begins hb (Nat.succ_pos k)⟩
  · rintro longer hprefix hlonger ⟨c, hc⟩
    rw [hsplit] at hprefix
    obtain ⟨b', more, hbytes, hread⟩ := readChar_encode c []
    rw [List.append_nil] at hread
    rw [hbytes] at hc
    cases longer with
    | nil => exact absurd hlonger (Nat.not_lt_zero _)
    | cons b'' longer =>
      obtain ⟨rfl, hrest⟩ := List.cons_prefix_cons.1 hprefix
      obtain ⟨rfl, hmore⟩ := List.cons_prefix_cons.1 hc
      have hk : k < longer.length := by
        rw [List.length_cons, List.length_cons, List.length_take] at hlonger
        have hle := hrest.length_le
        omega
      -- the bytes of the character are those that were looked at
      have hsame : more.take (k + 1) = rest.take (k + 1) := by
        obtain ⟨_, rfl⟩ := hrest
        obtain ⟨_, rfl⟩ := hmore
        rw [List.take_append_of_le_length hk, List.take_append_of_le_length hk]
      have hnone := readChar_of_interrupted hb (hinterrupted.congr hsame)
      rw [hread] at hnone
      cases hnone

end Step

/-! ## Whole sequences of bytes -/

/-- There is one ill-formed part where no character stands. -/
theorem IllFormed.length_le {part rest part' rest' : Bytes} (h : IllFormed part rest)
    (h' : IllFormed part' rest') (he : part ++ rest = part' ++ rest') :
    part'.length ≤ part.length := by
  apply Nat.le_of_not_lt
  intro hlt
  have hprefix : part' <+: part ++ rest := by
    rw [he]
    exact List.prefix_append part' rest'
  rcases h'.single_or_begins with hsingle | ⟨-, hbegins⟩
  · -- no part is empty
    rcases h.single_or_begins with hone | ⟨hne, -⟩
    · omega
    · have hpos := List.length_pos_iff.2 hne
      omega
  · exact h.maximal part' hprefix hlt hbegins

theorem lenient_readParts (fuel : Nat) (bs : Bytes) (hfuel : bs.length ≤ fuel) :
    Lenient bs ((readParts fuel bs).map fun c => c.getD replacement) := by
  induction fuel generalizing bs with
  | zero =>
    obtain rfl := List.length_eq_zero_iff.1 (Nat.le_zero.1 hfuel)
    exact .nil
  | succ fuel ih =>
    cases bs with
    | nil => exact .nil
    | cons b rest =>
      have hshorter : (rest.drop (readChar b rest).2).length ≤ fuel := by
        rw [List.length_drop]
        exact Nat.le_trans (Nat.sub_le _ _) (Nat.le_of_succ_le_succ hfuel)
      have hrest := ih _ hshorter
      have hsplit : b :: rest.take (readChar b rest).2 ++ rest.drop (readChar b rest).2 =
          b :: rest := by
        rw [List.cons_append, List.take_append_drop]
      rw [readParts, List.map_cons]
      cases hc : (readChar b rest).1 with
      | none =>
        have hill := illFormed_of_readChar (Prod.ext hc rfl)
        have hlenient := Lenient.illFormed hill hrest
        rwa [hsplit] at hlenient
      | some c =>
        obtain ⟨hbytes, -⟩ := encode_of_readChar (k := (readChar b rest).2) (Prod.ext hc rfl)
        have hlenient := Lenient.char (c := c) hrest
        rwa [← hbytes, hsplit] at hlenient

theorem readParts_of_lenient {bs : Bytes} {cs : List Char} (h : Lenient bs cs) (fuel : Nat)
    (hfuel : bs.length ≤ fuel) :
    (readParts fuel bs).map (fun c => c.getD replacement) = cs := by
  induction h generalizing fuel with
  | nil => cases fuel <;> rfl
  | @char c rest cs _ ih =>
    obtain ⟨b, more, hbytes, hread⟩ := readChar_encode c rest
    rw [hbytes, List.cons_append] at hfuel ⊢
    cases fuel with
    | zero => exact absurd hfuel (Nat.not_succ_le_zero _)
    | succ fuel =>
      rw [List.length_cons, List.length_append] at hfuel
      simp only [readParts, hread, List.drop_left, List.map_cons, Option.getD_some]
      rw [ih fuel (by omega)]
  | @illFormed part rest cs hill _ ih =>
    cases hbs : part ++ rest with
    | nil =>
      obtain ⟨rfl, rfl⟩ := List.append_eq_nil_iff.1 hbs
      rcases hill.single_or_begins with hsingle | ⟨hne, -⟩
      · cases hsingle
      · exact absurd rfl hne
    | cons b behind =>
      cases fuel with
      | zero =>
        rw [hbs] at hfuel
        exact absurd hfuel (Nat.not_succ_le_zero _)
      | succ fuel =>
        -- the step reads no character, and leaves what stands behind the part
        have hnone : (readChar b behind).1 = none := by
          cases hc : (readChar b behind).1 with
          | none => rfl
          | some c =>
            obtain ⟨hbytes, -⟩ := encode_of_readChar (k := (readChar b behind).2) (Prod.ext hc rfl)
            refine absurd ?_ (hill.noChar c)
            rw [hbs, ← hbytes]
            exact ⟨behind.drop (readChar b behind).2, by
              rw [List.cons_append, List.take_append_drop]⟩
        have hread := illFormed_of_readChar (Prod.ext hnone rfl : readChar b behind = (none, _))
        have hsame : b :: behind.take (readChar b behind).2 ++ behind.drop (readChar b behind).2 =
            part ++ rest := by
          rw [List.cons_append, List.take_append_drop, hbs]
        have hlength := Nat.le_antisymm (hread.length_le hill hsame)
          (hill.length_le hread hsame.symm)
        obtain ⟨-, hrest⟩ := List.append_inj hsame hlength.symm
        have hpos : 0 < part.length := by
          rw [hlength]
          exact Nat.succ_pos _
        rw [List.length_append] at hfuel
        rw [readParts]
        simp only [hnone, List.map_cons, Option.getD_none, hrest]
        rw [ih fuel (by omega)]

/-- Bytes are read leniently as the text in which each ill-formed part is one replacement
character. -/
theorem ofUtf8Lossy_eq_iff {bs : Bytes} {s : String} :
    ofUtf8Lossy bs = s ↔ Lenient bs s.toList := by
  rw [ofUtf8Lossy, parts]
  constructor
  · rintro rfl
    rw [String.toList_ofList]
    exact lenient_readParts _ bs (Nat.le_refl _)
  · intro h
    rw [readParts_of_lenient h _ (Nat.le_refl _), String.ofList_toList]

/-- A text is read back from its bytes, leniently too. -/
@[simp] theorem ofUtf8Lossy_utf8 (s : String) : ofUtf8Lossy (utf8 s) = s := by
  rw [ofUtf8Lossy, parts_utf8, List.map_map]
  simp [Function.comp_def]

end Reconnect.Text
