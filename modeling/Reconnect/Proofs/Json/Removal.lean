import Reconnect.Proofs.Json.RoundTrip

/-!
# Documents with entries removed

A cut tells which entries of a document are left out (`Cut`), at any depth: an entry is told by the
names on the way to it, and what stands inside an entry that is left out goes with it
(`Json.without`). A plain document stays plain, and the fields of what remains are those that the
cut keeps (`fields?_without`). So a field is read as the value that is kept of it, or else as its
default (`fieldOr_kept`).
-/

namespace Reconnect

/-- Which entries of a document are left out, each told by the names on the way to it. -/
abbrev Cut := List String → Bool

namespace Cut

/-- The cut of the value of an entry. -/
def under (cut : Cut) (name : String) : Cut := fun path => cut (name :: path)

/-- The value of a field, its default if the field is left out. -/
def choose {α : Type} (cut : Cut) (name : String) (default kept : α) : α :=
  if cut [name] then default else kept

end Cut

namespace Json

mutual

/-- The document without the entries that a cut leaves out. -/
def without (cut : Cut) : Json → Json
  | .object entries => .object (withoutEntries cut entries)
  | v => v

/-- The entries that a cut keeps, with what it keeps of their values. -/
def withoutEntries (cut : Cut) : List (List JsonUnit × Json) → List (List JsonUnit × Json)
  | [] => []
  | (us, value) :: rest =>
    match unitsText? us with
    | some name =>
      if cut [name] then withoutEntries cut rest
      else (us, without (cut.under name) value) :: withoutEntries cut rest
    | none => (us, value) :: withoutEntries cut rest

end

/-- The fields that a cut keeps, with what it keeps of their values. -/
def keptFields (cut : Cut) (fs : List (String × Json)) : List (String × Json) :=
  (fs.filter fun f => !cut [f.1]).map fun f => (f.1, f.2.without (cut.under f.1))

variable {cut : Cut} {names : List String} {fs : List (String × Json)}

/-! ## What remains -/

@[simp] theorem unitsText?_unitsOf (s : String) : unitsText? (unitsOf s) = some s := by
  simp [unitsText?, unitsOf, decodeUnits_map_char]

theorem without_ofFields (cut : Cut) (fs : List (String × Json)) :
    (ofFields fs).without cut = ofFields (keptFields cut fs) := by
  have hentries : withoutEntries cut (fs.map fun f => (unitsOf f.1, f.2)) =
      (keptFields cut fs).map fun f => (unitsOf f.1, f.2) := by
    induction fs with
    | nil => rfl
    | cons f fs ih =>
      rw [List.map_cons, withoutEntries, unitsText?_unitsOf, ih]
      by_cases hcut : cut [f.1] <;> simp [keptFields, hcut]
  rw [ofFields, Json.without, hentries, ofFields]

theorem Plain.without {v : Json} (hv : Plain v) (cut : Cut) : Plain (v.without cut) := by
  induction hv generalizing cut with
  | text s => exact .text s
  | number n => exact .number n
  | fields _ ih =>
    rw [without_ofFields]
    apply Plain.fields
    intro f hf
    obtain ⟨g, hg, rfl⟩ := List.mem_map.1 hf
    exact ih g ((List.mem_filter.1 hg).1) _

/-- A cut that leaves nothing out keeps a plain document as it is. -/
theorem Plain.without_of_keeps {v : Json} (hv : Plain v) (hcut : ∀ path, cut path = false) :
    v.without cut = v := by
  induction hv generalizing cut with
  | text s => rfl
  | number n => rfl
  | @fields fs _ ih =>
    have hkept : keptFields cut fs = fs := by
      have hall : ∀ f ∈ fs, (!cut [f.1]) = true := by
        intro f _
        simp [hcut]
      have hsame : ∀ f ∈ fs, (f.1, f.2.without (cut.under f.1)) = f := by
        intro f hf
        have hunder : ∀ path, cut.under f.1 path = false := fun path => hcut (f.1 :: path)
        rw [ih f hf hunder]
      rw [keptFields, List.filter_eq_self.2 hall]
      exact (List.map_congr_left hsame).trans (List.map_id' fs)
    rw [without_ofFields, hkept]

theorem lookup_keptFields (cut : Cut) (fs : List (String × Json)) (n : String) :
    (keptFields cut fs).lookup n =
      if cut [n] then none else (fs.lookup n).map fun v => v.without (cut.under n) := by
  induction fs with
  | nil => simp [keptFields]
  | cons f fs ih =>
    obtain ⟨name, v⟩ := f
    by_cases hn : n = name
    · subst hn
      by_cases hcut : cut [n]
      · simpa [keptFields, hcut] using ih
      · simp [keptFields, hcut]
    · have hne : (n == name) = false := beq_false_of_ne hn
      by_cases hcut : cut [name]
      · simpa [keptFields, hcut, List.lookup_cons, hne] using ih
      · simpa [keptFields, hcut, List.lookup_cons, hne] using ih

/-! ## Fields -/

/-- The fields of an object are its entries, if each name is known and occurs once. -/
theorem fields?_ofFields (hknown : ∀ f ∈ fs, f.1 ∈ names) (honce : (fs.map Prod.fst).Nodup) :
    fields? names (ofFields fs) = some fun n => fs.lookup n := by
  show fieldsOfEntries names (fs.map fun f => (unitsOf f.1, f.2)) = _
  induction fs with
  | nil => rfl
  | cons f fs ih =>
    obtain ⟨name, v⟩ := f
    obtain ⟨hfresh, honce⟩ := List.nodup_cons.1 honce
    have hfirst : fs.lookup name = none := by
      rw [List.lookup_eq_none_iff]
      intro g hg
      have hmem : g.1 ∈ fs.map Prod.fst := List.mem_map_of_mem hg
      exact bne_iff_ne.2 fun he => hfresh (he ▸ hmem)
    have hrest := ih (fun g hg => hknown g (List.mem_cons_of_mem _ hg)) honce
    have hname : name ∈ names := hknown _ List.mem_cons_self
    rw [List.map_cons, fieldsOfEntries, unitsText?_unitsOf, hrest]
    simp only [hfirst, if_pos hname]
    apply congrArg some
    funext n
    by_cases hn : n = name
    · simp [hn]
    · rw [if_neg hn, List.lookup_cons, beq_false_of_ne hn]

/-- The fields of what remains of an object are those that the cut keeps. -/
theorem fields?_without (hknown : (fs.map Prod.fst).Sublist names) (honce : names.Nodup)
    (cut : Cut) :
    fields? names ((ofFields fs).without cut) = some fun n => (keptFields cut fs).lookup n := by
  have hkept : ((keptFields cut fs).map Prod.fst).Sublist (fs.map Prod.fst) := by
    have hnames : (keptFields cut fs).map Prod.fst =
        (fs.filter fun f => !cut [f.1]).map Prod.fst := by
      rw [keptFields, List.map_map]
      rfl
    rw [hnames]
    exact List.filter_sublist.map _
  rw [without_ofFields]
  apply fields?_ofFields
  · intro f hf
    exact (hkept.trans hknown).subset (List.mem_map_of_mem hf)
  · exact (hkept.trans hknown).nodup honce

/-- A field is read as the value that is kept of it, or as its default. -/
theorem fieldOr_kept {α : Type} {read : Json → Option α} {v : Json} {x : α} (name : String)
    (hread : read (v.without (cut.under name)) = some x) (default : α)
    (hfield : fs.lookup name = some v) :
    fieldOr default read ((keptFields cut fs).lookup name) =
      some (cut.choose name default x) := by
  rw [lookup_keptFields, hfield, Cut.choose]
  by_cases hcut : cut [name]
  · rw [if_pos hcut, if_pos hcut]
    rfl
  · rw [if_neg hcut, if_neg hcut]
    exact hread

theorem fieldOr_text_kept (name s default : String) (hfield : fs.lookup name = some (ofText s)) :
    fieldOr default text? ((keptFields cut fs).lookup name) =
      some (cut.choose name default s) :=
  fieldOr_kept name (text?_ofText s) default hfield

/-- A text that may be absent is read as none if it is absent, whether or not it is left out. -/
theorem fieldOr_optionalText_kept (name : String) (value : Option String)
    (hfield : fs.lookup name = value.map ofText) :
    fieldOr none optionalText? ((keptFields cut fs).lookup name) =
      some (cut.choose name none value) := by
  cases value with
  | none =>
    rw [lookup_keptFields, hfield, Cut.choose, ite_self]
    cases cut [name] <;> rfl
  | some s =>
    apply fieldOr_kept name _ none hfield
    show (ofText s).text?.map some = some (some s)
    rw [text?_ofText, Option.map_some]

theorem nat?_ofNat {n max : Nat} (hn : n ≤ max) : nat? max (ofNat n) = some n := by
  have hdigits : (Nat.toDigits 10 n).all (fun c => '0' ≤ c && c ≤ '9') = true :=
    List.all_eq_true.2 fun c => isDigit_of_mem_toDigits
  have hstep : (fun (n : Nat) (c : Char) => n * 10 + (c.toNat - 48)) =
      fun n c => 10 * n + (c.toNat - '0'.toNat) := by
    funext n c
    rw [Nat.mul_comm]
    rfl
  have hvalue : (Nat.toDigits 10 n).foldl (fun n c => n * 10 + (c.toNat - 48)) 0 = n := by
    rw [hstep]
    exact Nat.ofDigitChars_ten_toDigits
  rw [ofNat, nat?, if_pos hdigits]
  simp only [hvalue, if_pos hn]

theorem fieldOr_word64_kept {n : Nat} (name : String) (hn : n < UInt64.size) (default : Nat)
    (hfield : fs.lookup name = some (ofNat n)) :
    fieldOr default word64? ((keptFields cut fs).lookup name) =
      some (cut.choose name default n) :=
  fieldOr_kept name (nat?_ofNat (Nat.le_of_lt_succ hn)) default hfield

theorem fieldOr_word16_kept {n : Nat} (name : String) (hn : n < UInt16.size) (default : Nat)
    (hfield : fs.lookup name = some (ofNat n)) :
    fieldOr default word16? ((keptFields cut fs).lookup name) =
      some (cut.choose name default n) :=
  fieldOr_kept name (nat?_ofNat (Nat.le_of_lt_succ hn)) default hfield

theorem fieldOr_word8_kept {n : Nat} (name : String) (hn : n < UInt8.size) (default : Nat)
    (hfield : fs.lookup name = some (ofNat n)) :
    fieldOr default word8? ((keptFields cut fs).lookup name) =
      some (cut.choose name default n) :=
  fieldOr_kept name (nat?_ofNat (Nat.le_of_lt_succ hn)) default hfield

end Json

end Reconnect
