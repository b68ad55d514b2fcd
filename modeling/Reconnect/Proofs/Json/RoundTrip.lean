import Mathlib.Data.List.TakeWhile
import Reconnect.Json.Writer
import Reconnect.Settings.Reading

/-!
# Documents that are written and read again

A document of texts, natural numbers and objects with names (`Plain`) is read back from its text
(`read?_write`). Only the spelling of a string may differ: a control character without a letter of
its own is written by its number, and a unit that was read so keeps the number
(`JsonUnit.respelled`). What a string stands for is the same (`decodeUnits_respelled`), and the
fields of a record are found and read all the same (`fields?_respelled`, `fieldOr_respelled`).

The reader is led by fuel, and a number ends only where something else begins. So the statement that
the induction carries is about a value with any text behind it that cannot go on a number (`Ends`),
and about any fuel that covers the length of the value (`ReadsBack`).
-/

namespace Reconnect

/-- The control characters with an escape letter of their own. -/
def letteredControls : List Char := ['\x08', '\x0c', '\n', '\r', '\t']

/-- How a unit that was written is read. -/
def JsonUnit.respelled : JsonUnit → JsonUnit
  | .char c => if c.toNat < 0x20 ∧ c ∉ letteredControls then .code c.toNat else .char c
  | .code n => .code n

namespace Json

mutual

/-- The value with its strings and names as they are read from its text. -/
def respelled : Json → Json
  | .null => .null
  | .bool b => .bool b
  | .number ds => .number ds
  | .string us => .string (us.map JsonUnit.respelled)
  | .array items => .array (respelledItems items)
  | .object entries => .object (respelledEntries entries)

/-- The items with their strings as they are read. -/
def respelledItems : List Json → List Json
  | [] => []
  | item :: items => respelled item :: respelledItems items

/-- The entries with their strings and names as they are read. -/
def respelledEntries : List (List JsonUnit × Json) → List (List JsonUnit × Json)
  | [] => []
  | (us, value) :: rest => (us.map JsonUnit.respelled, respelled value) :: respelledEntries rest

end

/-- The documents of texts, natural numbers and objects with names. -/
inductive Plain : Json → Prop where
  | text (s : String) : Plain (ofText s)
  | number (n : Nat) : Plain (ofNat n)
  | fields {fs : List (String × Json)} (h : ∀ f ∈ fs, Plain f.2) : Plain (ofFields fs)

/-! ## Spelling -/

/-- A code unit that opens no pair stands alone or not at all. -/
theorem decodeUnits_code {n : Nat} (hn : ¬ (0xd800 ≤ n && n ≤ 0xdbff)) (us : List JsonUnit) :
    decodeUnits (.code n :: us) =
      if 0xdc00 ≤ n && n ≤ 0xdfff then none else (decodeUnits us).map (Char.ofNat n :: ·) := by
  rw [decodeUnits.eq_def]
  exact if_neg hn

/-- A character stands for itself, however it is spelled. -/
theorem decodeUnits_respelled_char (c : Char) (us : List JsonUnit) :
    decodeUnits (JsonUnit.respelled (.char c) :: us) = (decodeUnits us).map (c :: ·) := by
  rw [JsonUnit.respelled]
  split
  case isTrue hc =>
    have hlow : ¬ 0xd800 ≤ c.toNat := by omega
    have hhigh : ¬ 0xdc00 ≤ c.toNat := by omega
    rw [decodeUnits_code (by simp [hlow])]
    simp [hhigh]
  case isFalse => rw [decodeUnits]

/-- The spelling of a string does not change what it stands for. -/
theorem decodeUnits_respelled (us : List JsonUnit) :
    decodeUnits (us.map JsonUnit.respelled) = decodeUnits us := by
  fun_induction decodeUnits us with
  | case1 => rfl
  | case2 c rest ih => rw [List.map_cons, decodeUnits_respelled_char, ih]
  | case3 n hn m more hm ih =>
    simp [JsonUnit.respelled, decodeUnits, hn, hm, ih]
  | case4 n hn m more hm => simp [JsonUnit.respelled, decodeUnits, hn, hm]
  | case5 n rest hn hrest =>
    -- A control character that is spelled by its number completes no pair either.
    cases rest with
    | nil => simp [JsonUnit.respelled, decodeUnits, hn]
    | cons u rest =>
      cases u with
      | code m => exact absurd rfl (hrest m rest)
      | char c =>
        by_cases hc : c.toNat < 0x20 ∧ c ∉ letteredControls
        · have hlow : ¬ 0xdc00 ≤ c.toNat := by omega
          simp [JsonUnit.respelled, decodeUnits, hn, hc, hlow]
        · simp [JsonUnit.respelled, decodeUnits, hn, hc]
  | case6 n rest hn hhigh =>
    rw [List.map_cons, JsonUnit.respelled, decodeUnits_code hn, if_pos hhigh]
  | case7 n rest hn hhigh ih =>
    rw [List.map_cons, JsonUnit.respelled, decodeUnits_code hn, if_neg hhigh, ih]

@[simp] theorem unitsText?_respelled (us : List JsonUnit) :
    unitsText? (us.map JsonUnit.respelled) = unitsText? us := by
  rw [unitsText?, decodeUnits_respelled, unitsText?]

/-! ## Strings -/

theorem hexValue?_hexDigit {n : Nat} (hn : n < 16) :
    Text.hexValue? (Text.hexDigit n) = some n := by
  have hall : ∀ n < 16, Text.hexValue? (Text.hexDigit n) = some n := by decide
  exact hall n hn

/-- A control character of its own number is read back as that number. -/
theorem codeUnit?_hexDigit {n : Nat} (hn : n < 0x100) :
    codeUnit? '0' '0' (Text.hexDigit (n / 16)) (Text.hexDigit (n % 16)) = some n := by
  have hzero : Text.hexValue? '0' = some 0 := by decide
  rw [codeUnit?, hzero, hexValue?_hexDigit (by omega), hexValue?_hexDigit (by omega)]
  simp only [Option.some.injEq]
  omega

/-- A character that needs no escape is read as itself. -/
theorem readUnits_cons {c : Char} (hquote : c ≠ '"') (hback : c ≠ '\\') (hc : ¬ c.toNat < 0x20)
    (rest : List Char) :
    readUnits (c :: rest) = (readUnits rest).map fun r => (.char c :: r.1, r.2) := by
  have hself : ¬ (c == '\\' || decide (c.toNat < 0x20)) = true := by
    simp only [Bool.or_eq_true, beq_iff_eq, decide_eq_true_eq]
    exact fun h => h.elim hback hc
  rw [readUnits.eq_def]
  split
  case h_5 h =>
    obtain ⟨rfl, rfl⟩ := List.cons.inj h
    exact if_neg hself
  all_goals simp_all

/-- A character of a string is read back, whatever follows. -/
theorem readUnits_writeChar (c : Char) (rest : List Char) :
    readUnits (writeChar c ++ rest) =
      (readUnits rest).map fun r => (JsonUnit.respelled (.char c) :: r.1, r.2) := by
  unfold writeChar
  split
  case h_8 hquote hback hb hf hn hr ht =>
    split
    case isTrue hc =>
      have hlettered : c ∉ letteredControls := by
        intro hmem
        simp only [letteredControls, List.mem_cons, List.not_mem_nil, or_false] at hmem
        rcases hmem with h | h | h | h | h
        exacts [hb h, hf h, hn h, hr h, ht h]
      simp [readUnits, codeUnit?_hexDigit (show c.toNat < 0x100 by omega), JsonUnit.respelled, hc,
        hlettered]
    case isFalse hc =>
      rw [List.singleton_append, readUnits_cons hquote hback hc, JsonUnit.respelled,
        if_neg (fun h => hc h.1)]
  all_goals rfl

/-- A string is read back up to its closing quote. -/
theorem readUnits_flatMap (cs rest : List Char) :
    readUnits ((cs.map JsonUnit.char).flatMap writeUnit ++ '"' :: rest) =
      some ((cs.map JsonUnit.char).map JsonUnit.respelled, rest) := by
  induction cs with
  | nil => rfl
  | cons c cs ih =>
    rw [List.map_cons, List.flatMap_cons, writeUnit, List.append_assoc, readUnits_writeChar, ih]
    rfl

/-! ## Numbers -/

/-- What may stand behind a value: nothing, a comma or a line break. -/
def Ends (rest : List Char) : Prop := ∀ c ∈ rest.head?, c = ',' ∨ c = '\n'

theorem isDigit_of_mem_toDigits {n : Nat} {c : Char} (hc : c ∈ Nat.toDigits 10 n) :
    isDigit c = true :=
  Nat.isDigit_of_mem_toDigits (by decide) (by decide) hc

/-- The digits of a number other than zero do not start with a zero. -/
theorem head?_toDigits_ne {n : Nat} (hn : 0 < n) : (Nat.toDigits 10 n).head? ≠ some '0' := by
  induction n using Nat.strongRecOn with
  | ind n ih =>
    rw [Nat.toDigits_eq_if (by decide)]
    split
    case isTrue hlow =>
      rw [List.head?_cons, Ne, Option.some_inj, Nat.digitChar_eq_zero]
      omega
    case isFalse hhigh =>
      have hhead := ih (n / 10) (by omega) (by omega)
      rw [List.head?_append]
      cases hd : (Nat.toDigits 10 (n / 10)).head? with
      | none => exact absurd (List.head?_eq_none_iff.1 hd) Nat.toDigits_ne_nil
      | some d =>
        rw [hd] at hhead
        exact hhead

section

variable {rest : List Char} (hrest : Ends rest)
include hrest

theorem readDigits_toDigits (n : Nat) :
    readDigits (Nat.toDigits 10 n ++ rest) = some (Nat.toDigits 10 n, rest) := by
  have hdigits : ∀ c ∈ Nat.toDigits 10 n, isDigit c = true := fun c => isDigit_of_mem_toDigits
  have hstop : ∀ c ∈ rest.head?, ¬ isDigit c = true := by
    intro c hc
    rcases hrest c hc with rfl | rfl <;> decide
  have htake : rest.takeWhile isDigit = [] := by
    cases rest with
    | nil => rfl
    | cons c rest => exact List.takeWhile_cons_of_neg (hstop c rfl)
  have hdrop : rest.dropWhile isDigit = rest := by
    cases rest with
    | nil => rfl
    | cons c rest => exact List.dropWhile_cons_of_neg (hstop c rfl)
  rw [readDigits, List.takeWhile_append_of_pos hdigits, List.dropWhile_append_of_pos hdigits, htake,
    hdrop, List.append_nil]
  split
  case h_1 hnil => exact absurd hnil Nat.toDigits_ne_nil
  case h_2 => rfl

theorem readWhole_toDigits (n : Nat) :
    readWhole (Nat.toDigits 10 n ++ rest) = some (Nat.toDigits 10 n, rest) := by
  rw [readWhole, readDigits_toDigits hrest]
  split
  case h_1 d ds behind h =>
    exfalso
    have hdigits : Nat.toDigits 10 n = '0' :: d :: ds := (Prod.mk.inj (Option.some.inj h)).1
    rcases Nat.eq_zero_or_pos n with rfl | hn
    · simp at hdigits
    · exact head?_toDigits_ne hn (by rw [hdigits, List.head?_cons])
  case h_2 => rfl

theorem readFraction_of_ends : readFraction rest = some ([], rest) := by
  cases rest with
  | nil => rfl
  | cons c rest => rcases hrest c rfl with rfl | rfl <;> rfl

theorem readExponent_of_ends : readExponent rest = some ([], rest) := by
  cases rest with
  | nil => rfl
  | cons c rest => rcases hrest c rfl with rfl | rfl <;> rfl

/-- The digits of a number are read back. -/
theorem readNumber_toDigits (n : Nat) :
    readNumber (Nat.toDigits 10 n ++ rest) = some (Nat.toDigits 10 n, rest) := by
  obtain ⟨d, ds, hdigits⟩ := List.exists_cons_of_ne_nil (Nat.toDigits_ne_nil (n := n) (b := 10))
  have hd : isDigit d = true := isDigit_of_mem_toDigits (hdigits ▸ List.mem_cons_self)
  have hsign : d ≠ '-' := by
    rintro rfl
    exact absurd hd (by decide)
  have hwhole := readWhole_toDigits hrest n
  rw [hdigits, List.cons_append] at hwhole ⊢
  simp [readNumber, hsign, hwhole, readFraction_of_ends hrest, readExponent_of_ends hrest]

end

/-! ## Spaces -/

theorem skipSpaces_cons {c : Char} (hc : isSpace c = false) (cs : List Char) :
    skipSpaces (c :: cs) = c :: cs := by
  rw [skipSpaces, List.dropWhile_cons_of_neg (by simp [hc])]

theorem skipSpaces_newLine (level : Nat) (cs : List Char) :
    skipSpaces (newLine level ++ cs) = skipSpaces cs := by
  apply List.dropWhile_append_of_pos
  intro c hc
  rcases List.mem_cons.1 hc with rfl | hc
  · decide
  · rw [List.eq_of_mem_replicate hc]
    decide

theorem readValue_space (fuel : Nat) (cs : List Char) :
    readValue fuel (' ' :: cs) = readValue fuel cs := by
  cases fuel with
  | zero => rfl
  | succ fuel => rfl

theorem readEntries_newLine (fuel level : Nat) (cs : List Char) :
    readEntries fuel (newLine level ++ cs) = readEntries fuel cs := by
  cases fuel with
  | zero => rfl
  | succ fuel => rw [readEntries, skipSpaces_newLine, readEntries]

/-! ## Values -/

/-- A value is read back from its text, whatever ends it, by any fuel that covers the text. -/
def ReadsBack (v : Json) : Prop :=
  ∀ (level fuel : Nat) (rest : List Char), (writeValue level v).length ≤ fuel → Ends rest →
    readValue fuel (writeValue level v ++ rest) = some (v.respelled, rest)

theorem ReadsBack.ofText (s : String) : ReadsBack (ofText s) := by
  intro level fuel rest hfuel _
  cases fuel with
  | zero => simp [Json.ofText, writeValue, writeUnits] at hfuel
  | succ fuel =>
    have hunits := readUnits_flatMap s.toList rest
    simp only [Json.ofText, writeValue, writeUnits, unitsOf, List.cons_append, List.append_assoc,
      List.nil_append]
    rw [readValue, skipSpaces_cons (by decide)]
    simp [hunits, respelled]

theorem readValue_digit {d : Char} (hd : isDigit d = true) (fuel : Nat) (cs : List Char) :
    readValue (fuel + 1) (d :: cs) =
      (readNumber (d :: cs)).map fun r => (.number r.1, r.2) := by
  have hother : ∀ c, isDigit c = false → d ≠ c := by
    rintro c hc rfl
    exact absurd hd (by simp [hc])
  have hspace : isSpace d = false := by
    simp [isSpace, hother ' ' (by decide), hother '\n' (by decide), hother '\t' (by decide),
      hother '\r' (by decide)]
  rw [readValue, skipSpaces_cons hspace]
  -- No other kind of value starts with a digit.
  split
  case h_7 => rfl
  all_goals
    next h => exact absurd (List.cons.inj h).1 (hother _ (by decide))

theorem ReadsBack.ofNat (n : Nat) : ReadsBack (ofNat n) := by
  intro level fuel rest hfuel hrest
  obtain ⟨d, ds, hdigits⟩ := List.exists_cons_of_ne_nil (Nat.toDigits_ne_nil (n := n) (b := 10))
  have hd : isDigit d = true := isDigit_of_mem_toDigits (hdigits ▸ List.mem_cons_self)
  have hnumber := readNumber_toDigits hrest n
  rw [Json.ofNat, writeValue, hdigits] at *
  cases fuel with
  | zero => simp at hfuel
  | succ fuel =>
    rw [List.cons_append] at *
    rw [readValue_digit hd, hnumber]
    rfl

theorem writeEntries_ends (level : Nat) (entries : List (List JsonUnit × Json)) (outer : Nat)
    (rest : List Char) : Ends (writeEntries level entries ++ (newLine outer ++ rest)) := by
  intro c hc
  cases entries with
  | nil => exact .inr (Option.some.inj hc).symm
  | cons e entries => exact .inl (Option.some.inj hc).symm

/-- One entry is read as far as its value, and then what stands behind the value decides. -/
theorem readEntries_entry {fuel : Nat} {name : String} {text behind : List Char} {w : Json}
    (hvalue : readValue fuel (text ++ behind) = some (w, behind)) :
    readEntries (fuel + 1) (writeUnits (unitsOf name) ++ ':' :: ' ' :: (text ++ behind)) =
      match skipSpaces behind with
      | '\x7d' :: rest => some ([((unitsOf name).map JsonUnit.respelled, w)], rest)
      | ',' :: rest =>
        (readEntries fuel rest).map fun r =>
          (((unitsOf name).map JsonUnit.respelled, w) :: r.1, r.2)
      | _ => none := by
  have hname := readUnits_flatMap name.toList (':' :: ' ' :: (text ++ behind))
  have hshape : writeUnits (unitsOf name) ++ ':' :: ' ' :: (text ++ behind) =
      '"' :: ((name.toList.map JsonUnit.char).flatMap writeUnit
        ++ '"' :: (':' :: ' ' :: (text ++ behind))) := by
    simp [writeUnits, unitsOf]
  rw [hshape, readEntries, skipSpaces_cons (by decide)]
  simp only [hname, skipSpaces_cons (show isSpace ':' = false by decide), readValue_space, hvalue]
  rfl

/-- The entries of an object are read back, from the first name on. -/
theorem readEntries_written (outer level : Nat) (f : String × Json) (fs : List (String × Json))
    (hvalues : ∀ g ∈ f :: fs, ReadsBack g.2) (fuel : Nat) (rest : List Char)
    (hfuel : (writeValue level f.2).length
      + (writeEntries level (fs.map fun g => (unitsOf g.1, g.2))).length < fuel) :
    readEntries fuel (writeUnits (unitsOf f.1) ++ ':' :: ' ' :: (writeValue level f.2
        ++ (writeEntries level (fs.map fun g => (unitsOf g.1, g.2))
          ++ (newLine outer ++ '\x7d' :: rest)))) =
      some (respelledEntries ((f :: fs).map fun g => (unitsOf g.1, g.2)), rest) := by
  induction fs generalizing f fuel with
  | nil =>
    cases fuel with
    | zero => omega
    | succ fuel =>
      have hvalue := hvalues f List.mem_cons_self level fuel (newLine outer ++ '\x7d' :: rest)
        (by omega) (writeEntries_ends level [] outer _)
      rw [List.map_nil, writeEntries, List.nil_append, readEntries_entry hvalue,
        skipSpaces_newLine, skipSpaces_cons (by decide)]
      rfl
  | cons g fs ih =>
    cases fuel with
    | zero => omega
    | succ fuel =>
      have hmore := ih g (fun d hd => hvalues d (List.mem_cons_of_mem _ hd)) fuel
        (by
          simp only [List.map_cons, writeEntries, List.length_cons, List.length_append] at hfuel
          omega)
      have hvalue := hvalues f List.mem_cons_self level fuel _ (by omega)
        (writeEntries_ends level ((g :: fs).map fun g => (unitsOf g.1, g.2)) outer ('\x7d' :: rest))
      rw [readEntries_entry hvalue]
      simp only [List.map_cons, writeEntries, List.cons_append, List.append_assoc, List.nil_append]
      rw [skipSpaces_cons (by decide)]
      simp only [readEntries_newLine]
      rw [hmore]
      rfl

/-- An object with an entry is read from the name of its first entry on. -/
theorem readValue_object {fuel level : Nat} {us : List JsonUnit} {behind rest : List Char}
    {entries : List (List JsonUnit × Json)}
    (hentries : readEntries fuel (writeUnits us ++ behind) = some (entries, rest)) :
    readValue (fuel + 1) ('\x7b' :: (newLine level ++ (writeUnits us ++ behind))) =
      some (.object entries, rest) := by
  have hquote : skipSpaces (writeUnits us ++ behind) = writeUnits us ++ behind :=
    skipSpaces_cons (by decide) _
  rw [readValue, skipSpaces_cons (by decide)]
  simp only [skipSpaces_newLine, hquote]
  show (readEntries fuel (writeUnits us ++ behind)).map _ = _
  rw [hentries]
  rfl

theorem ReadsBack.ofFields {fs : List (String × Json)} (hvalues : ∀ f ∈ fs, ReadsBack f.2) :
    ReadsBack (ofFields fs) := by
  intro level fuel rest hfuel _
  cases fuel with
  | zero => cases fs <;> simp [Json.ofFields, writeValue] at hfuel
  | succ fuel =>
    cases fs with
    | nil => rfl
    | cons f fs =>
      simp only [Json.ofFields, List.map_cons, writeValue, List.cons_append, List.append_assoc,
        List.nil_append, List.length_cons, List.length_append] at hfuel ⊢
      apply readValue_object
      exact readEntries_written level (level + 1) f fs hvalues fuel rest (by omega)

theorem Plain.readsBack {v : Json} (hv : Plain v) : ReadsBack v := by
  induction hv with
  | text s => exact .ofText s
  | number n => exact .ofNat n
  | fields _ ih => exact .ofFields ih

/-- A plain document is read back from its text. -/
theorem read?_write {v : Json} (hv : Plain v) : read? (write v) = some v.respelled := by
  have hback := hv.readsBack 0 (2 * (write v).toList.length + 2) []
    (by rw [write, String.toList_ofList]; omega) (fun c hc => by cases hc)
  rw [List.append_nil] at hback
  rw [read?]
  simp only [write, String.toList_ofList] at hback ⊢
  rw [hback]
  rfl

/-! ## Fields of a document that was read back -/

theorem fieldsOfEntries_respelled (names : List String) (entries : List (List JsonUnit × Json)) :
    fieldsOfEntries names (respelledEntries entries) =
      (fieldsOfEntries names entries).map fun found n => (found n).map respelled := by
  induction entries with
  | nil => rfl
  | cons e rest ih =>
    obtain ⟨us, value⟩ := e
    rw [respelledEntries, fieldsOfEntries, fieldsOfEntries, unitsText?_respelled, ih]
    cases unitsText? us with
    | none => rfl
    | some name =>
      cases fieldsOfEntries names rest with
      | none => rfl
      | some found =>
        simp only [Option.map_some, Option.isSome_map]
        by_cases hname : name ∈ names
        · rw [if_pos hname, if_pos hname]
          cases (found name).isSome with
          | true => rfl
          | false =>
            apply congrArg some
            funext n
            exact (apply_ite (Option.map respelled) (n = name) (some value) (found n)).symm
        · rw [if_neg hname, if_neg hname]
          rfl

theorem fieldsOfItems_respelled (names : List String) (items : List Json) :
    fieldsOfItems names (respelledItems items) =
      (fieldsOfItems names items).map fun found n => (found n).map respelled := by
  induction items generalizing names with
  | nil => cases names <;> rfl
  | cons item items ih =>
    cases names with
    | nil => rfl
    | cons name names =>
      rw [respelledItems, fieldsOfItems, fieldsOfItems, ih, Option.map_map, Option.map_map]
      apply congrArg (Option.map · _)
      funext found n
      exact (apply_ite (Option.map respelled) (n = name) (some item) (found n)).symm

/-- The fields of a document keep their names, however these are spelled. -/
theorem fields?_respelled (names : List String) (v : Json) :
    fields? names v.respelled = (fields? names v).map fun found n => (found n).map respelled := by
  cases v with
  | object entries => exact fieldsOfEntries_respelled names entries
  | array items => exact fieldsOfItems_respelled names items
  | _ => rfl

@[simp] theorem text?_respelled (v : Json) : v.respelled.text? = v.text? := by
  cases v with
  | string us => exact unitsText?_respelled us
  | _ => rfl

@[simp] theorem nat?_respelled (max : Nat) (v : Json) : v.respelled.nat? max = v.nat? max := by
  cases v <;> rfl

@[simp] theorem optionalText?_respelled (v : Json) :
    optionalText? v.respelled = optionalText? v := by
  cases v with
  | string us => exact congrArg (Option.map some) (unitsText?_respelled us)
  | _ => rfl

/-- The spelling of a field does not matter if it does not matter to what reads the field. -/
theorem fieldOr_respelled {α : Type} {read : Json → Option α}
    (hread : ∀ v : Json, read v.respelled = read v) (default : α) (field : Option Json) :
    fieldOr default read (field.map respelled) = fieldOr default read field := by
  cases field with
  | none => rfl
  | some v => exact hread v

end Json

end Reconnect
