import Reconnect.Proofs.Broker.Remembrance
import Reconnect.Proofs.Broker.Roll

/-!
# The shelf of failed settlements

The failed settlements are kept in a table beside a row of slots, some of which are stale. A record
is on the list where the slot stands that it was recorded in (`listed`). Both loops of the
implementation pop slots from the front of the row, and either the slot is stale or its record goes
with it (`Pops`). So both drop the list from its front, whatever slots are stale, and calls at times
that do not go back see what they would see of the list (`refines_roll`).
-/

namespace Reconnect.Broker.Failures

/-! ## The loops -/

/-- A table of records, and the slots in a row. -/
abbrev Shelf := Table String FailureRecord × List (Nat × String)

/-- A loop that takes a number of turns, until there is none left. -/
inductive Loops {σ : Type} (turn : σ → Option σ) : Nat → σ → σ → Prop
  | stop {s : σ} : turn s = none → Loops turn 0 s s
  | next {s s' t : σ} {turns : Nat} : turn s = some s' → Loops turn turns s' t →
    Loops turn (turns + 1) s t

/-- One turn of the loop that drops what is too old: it ends at a record that is not. -/
def purgeTurn (now ttl : Millis) : Shelf → Option Shelf
  | (_, []) => none
  | (records, (slot, name) :: rest) =>
    match records.get? name with
    | some r =>
      if r.slot = slot then
        if now - r.recordedAt < ttl then none else some (records.erase name, rest)
      else some (records, rest)
    | none => some (records, rest)

/-- One turn of the loop that makes room for a name: it ends where there is room. -/
def roomTurn (capacity : Nat) (name : String) : Shelf → Option Shelf
  | (_, []) => none
  | (records, (slot, oldest) :: rest) =>
    if capacity ≤ records.size && !records.contains name then
      if (records.get? oldest).any (·.slot == slot) then some (records.erase oldest, rest)
      else some (records, rest)
    else none

/-- The loop that drops what is too old ends. -/
theorem loops_purgeFrom (now ttl : Millis) (records : Table String FailureRecord)
    (slots : List (Nat × String)) :
    ∃ turns ≤ slots.length,
      Loops (purgeTurn now ttl) turns (records, slots) (purgeFrom now ttl records slots) := by
  induction slots generalizing records with
  | nil => exact ⟨0, Nat.le_refl 0, .stop rfl⟩
  | cons e rest ih =>
    obtain ⟨slot, name⟩ := e
    obtain ⟨kept, hkept, hloops⟩ := ih records
    obtain ⟨left, hleft, hdropped⟩ := ih (records.erase name)
    rw [purgeFrom]
    cases hr : records.get? name with
    | none => exact ⟨kept + 1, Nat.succ_le_succ hkept, .next (by simp [purgeTurn, hr]) hloops⟩
    | some r =>
      dsimp only
      split
      case isTrue hslot =>
        split
        case isTrue hyoung =>
          exact ⟨0, Nat.zero_le _, .stop (by simp [purgeTurn, hr, hslot, hyoung])⟩
        case isFalse hold =>
          exact ⟨left + 1, Nat.succ_le_succ hleft,
            .next (by simp [purgeTurn, hr, hslot, hold]) hdropped⟩
      case isFalse hslot =>
        exact ⟨kept + 1, Nat.succ_le_succ hkept, .next (by simp [purgeTurn, hr, hslot]) hloops⟩

/-- The loop that makes room ends. -/
theorem loops_makeRoom (capacity : Nat) (name : String) (records : Table String FailureRecord)
    (slots : List (Nat × String)) :
    ∃ turns ≤ slots.length,
      Loops (roomTurn capacity name) turns (records, slots)
        (makeRoom capacity name records slots) := by
  induction slots generalizing records with
  | nil => exact ⟨0, Nat.le_refl 0, .stop rfl⟩
  | cons e rest ih =>
    obtain ⟨slot, oldest⟩ := e
    obtain ⟨kept, hkept, hloops⟩ := ih records
    obtain ⟨left, hleft, hdropped⟩ := ih (records.erase oldest)
    rw [makeRoom]
    split
    case isTrue hfull =>
      split
      case isTrue hs =>
        exact ⟨left + 1, Nat.succ_le_succ hleft, .next (by rw [roomTurn, if_pos hfull, if_pos hs])
          hdropped⟩
      case isFalse hs =>
        exact ⟨kept + 1, Nat.succ_le_succ hkept, .next (by rw [roomTurn, if_pos hfull, if_neg hs])
          hloops⟩
    case isFalse hroom => exact ⟨0, Nat.zero_le _, .stop (by rw [roomTurn, if_neg hroom])⟩

/-! ## What stands on the shelf -/

/-- The entry that stands in a slot: none if the slot is stale. -/
def listedIn (records : Table String FailureRecord) (e : Nat × String) : Option Listed :=
  match records.get? e.2 with
  | some r => if r.slot = e.1 then some ⟨e.2, r.verdict, r.recordedAt⟩ else none
  | none => none

/-- The entries that stand in the slots. -/
def listed (s : Shelf) : List Listed := s.2.filterMap (listedIn s.1)

/-- The failed settlements as a list. -/
def roll (f : Failures) : Roll where
  capacity := f.capacity
  timeToLive := f.timeToLive
  entries := listed (f.records, f.slots)

/-- A shelf on which every record stands in a slot, and the slots in a row. -/
structure Aligned (s : Shelf) : Prop where
  nodup : s.1.keys.Nodup
  ordered : s.2.Pairwise fun a b => a.1 < b.1
  stands : ∀ name r, s.1.get? name = some r → (r.slot, name) ∈ s.2

theorem Recalls.aligned {f : Failures} {log : List Note} (h : f.Recalls log) :
    Aligned (f.records, f.slots) := ⟨h.nodup, h.ordered, h.stands⟩

theorem listedIn_eq_some_iff {records : Table String FailureRecord} {e : Nat × String}
    {l : Listed} : listedIn records e = some l ↔
      ∃ r, records.get? e.2 = some r ∧ r.slot = e.1 ∧ l = ⟨e.2, r.verdict, r.recordedAt⟩ := by
  rw [listedIn]
  cases hr : records.get? e.2 with
  | none => simp
  | some r =>
    by_cases hs : r.slot = e.1
    · simp [hs, eq_comm]
    · simp [hs]

/-- A name that is taken off the list leaves its slot blank. -/
theorem listedIn_erase (records : Table String FailureRecord) (name : String) (e : Nat × String) :
    listedIn (records.erase name) e = (listedIn records e).filter fun l => l.name ≠ name := by
  rw [listedIn, listedIn, Table.get?_erase]
  by_cases hname : e.2 = name
  · cases records.get? e.2 with
    | none => simp [hname]
    | some r => by_cases hs : r.slot = e.1 <;> simp [hname, hs, Option.filter]
  · cases records.get? e.2 with
    | none => simp [hname]
    | some r => by_cases hs : r.slot = e.1 <;> simp [hname, hs, Option.filter]

theorem listed_erase (records : Table String FailureRecord) (slots : List (Nat × String))
    (name : String) :
    listed (records.erase name, slots) = Roll.without name (listed (records, slots)) := by
  rw [listed, listed, Roll.without, List.filter_filterMap]
  apply List.filterMap_congr
  intro e _
  exact listedIn_erase records name e

namespace Aligned

variable {s : Shelf}

/-- What is listed is what is on record. -/
theorem mem_listed_iff (h : Aligned s) {l : Listed} : l ∈ listed s ↔
    ∃ r, s.1.get? l.name = some r ∧ l = ⟨l.name, r.verdict, r.recordedAt⟩ := by
  rw [listed, List.mem_filterMap]
  constructor
  · rintro ⟨e, -, he⟩
    obtain ⟨r, hr, -, rfl⟩ := listedIn_eq_some_iff.1 he
    exact ⟨r, hr, rfl⟩
  · rintro ⟨r, hr, hl⟩
    exact ⟨(r.slot, l.name), h.stands l.name r hr, listedIn_eq_some_iff.2 ⟨r, hr, rfl, hl⟩⟩

/-- No name is listed twice: a record stands in one slot. -/
theorem nodup_names (h : Aligned s) : ((listed s).map Listed.name).Nodup := by
  rw [List.Nodup, List.pairwise_map]
  apply List.Pairwise.filterMap _ _ h.ordered
  intro e e' hlt l hl l' hl' hname
  obtain ⟨r, hr, hslot, rfl⟩ := listedIn_eq_some_iff.1 hl
  obtain ⟨r', hr', hslot', rfl⟩ := listedIn_eq_some_iff.1 hl'
  have hname : e.2 = e'.2 := hname
  rw [hname, hr'] at hr
  cases hr
  omega

theorem length_listed (h : Aligned s) : (listed s).length = s.1.size := by
  have hperm : ((listed s).map Listed.name).Perm s.1.keys := by
    apply (List.perm_ext_iff_of_nodup h.nodup_names h.nodup).2
    intro name
    rw [Table.mem_keys_iff, List.mem_map, Option.isSome_iff_exists]
    constructor
    · rintro ⟨l, hl, rfl⟩
      obtain ⟨r, hr, -⟩ := h.mem_listed_iff.1 hl
      exact ⟨r, hr⟩
    · rintro ⟨r, hr⟩
      exact ⟨⟨name, r.verdict, r.recordedAt⟩, h.mem_listed_iff.2 ⟨r, hr, rfl⟩, rfl⟩
  have hlength := hperm.length_eq
  rwa [List.length_map, Table.keys, List.length_map] at hlength

/-- The list answers for a name what the table does. -/
theorem verdict?_listed (h : Aligned s) (name : String) :
    Roll.verdict? name (listed s) = (s.1.get? name).map FailureRecord.verdict := by
  rw [Roll.verdict?]
  cases hfind : (listed s).find? fun e => e.name == name with
  | none =>
    cases hr : s.1.get? name with
    | none => rfl
    | some r =>
      have hl : ⟨name, r.verdict, r.recordedAt⟩ ∈ listed s := h.mem_listed_iff.2 ⟨r, hr, rfl⟩
      have hne := List.find?_eq_none.1 hfind _ hl
      simp at hne
  | some l =>
    obtain ⟨r, hr, hl⟩ := h.mem_listed_iff.1 (List.mem_of_find?_eq_some hfind)
    have hname : l.name = name := by simpa using List.find?_some hfind
    rw [hname] at hr
    rw [hl, hr]
    rfl

theorem any_listed (h : Aligned s) (name : String) :
    ((listed s).any fun e => e.name == name) = s.1.contains name := by
  rw [Bool.eq_iff_iff, List.any_eq_true, Table.contains, Option.isSome_iff_exists]
  constructor
  · rintro ⟨l, hl, hname⟩
    obtain ⟨r, hr, -⟩ := h.mem_listed_iff.1 hl
    rw [eq_of_beq hname] at hr
    exact ⟨r, hr⟩
  · rintro ⟨r, hr⟩
    exact ⟨⟨name, r.verdict, r.recordedAt⟩, h.mem_listed_iff.2 ⟨r, hr, rfl⟩, beq_self_eq_true name⟩

/-- The entry in the front slot is the first one, and stands nowhere else. -/
theorem listed_front {records : Table String FailureRecord} {slot : Nat} {name : String}
    {rest : List (Nat × String)} {r : FailureRecord}
    (h : Aligned (records, (slot, name) :: rest)) (hr : records.get? name = some r)
    (hslot : r.slot = slot) :
    listed (records, (slot, name) :: rest) =
      ⟨name, r.verdict, r.recordedAt⟩ :: listed (records.erase name, rest) := by
  have hfront : listedIn records (slot, name) = some ⟨name, r.verdict, r.recordedAt⟩ :=
    listedIn_eq_some_iff.2 ⟨r, hr, hslot, rfl⟩
  have hrest : Roll.without name (listed (records, rest)) = listed (records, rest) := by
    apply List.filter_eq_self.2
    intro l hl
    obtain ⟨e, he, hle⟩ := List.mem_filterMap.1 hl
    obtain ⟨r', hr', hslot', rfl⟩ := listedIn_eq_some_iff.1 hle
    have hlt : slot < e.1 := List.rel_of_pairwise_cons h.ordered he
    have hne : e.2 ≠ name := by
      intro hname
      have hr' : records.get? e.2 = some r' := hr'
      rw [hname, hr] at hr'
      cases hr'
      omega
    simpa using hne
  rw [listed_erase, hrest, listed, List.filterMap_cons_some hfront]
  rfl

end Aligned

/-! ## Slots that are popped -/

/-- A slot is popped from the front of the row: a stale one, or one whose record goes with it. -/
inductive Pops (drops : FailureRecord → Prop) : Shelf → Shelf → Prop
  | stale {records : Table String FailureRecord} {e : Nat × String} {rest : List (Nat × String)} :
    listedIn records e = none → Pops drops (records, e :: rest) (records, rest)
  | drop {records : Table String FailureRecord} {slot : Nat} {name : String}
    {rest : List (Nat × String)} {r : FailureRecord} :
    records.get? name = some r → r.slot = slot → drops r →
    Pops drops (records, (slot, name) :: rest) (records.erase name, rest)

/-- A turn of the loop that drops what is too old pops a slot. -/
theorem pops_of_purgeTurn {now ttl : Millis} {s s' : Shelf} (h : purgeTurn now ttl s = some s') :
    Pops (fun r => ¬ now - r.recordedAt < ttl) s s' := by
  obtain ⟨records, slots⟩ := s
  cases slots with
  | nil => cases h
  | cons e rest =>
    obtain ⟨slot, name⟩ := e
    rw [purgeTurn] at h
    cases hr : records.get? name with
    | none =>
      simp only [hr, Option.some.injEq] at h
      subst h
      exact .stale (by simp [listedIn, hr])
    | some r =>
      simp only [hr] at h
      split at h
      case isTrue hslot =>
        split at h
        case isTrue => cases h
        case isFalse hold =>
          cases h
          exact .drop hr hslot hold
      case isFalse hslot =>
        cases h
        exact .stale (by simp [listedIn, hr, hslot])

/-- A turn of the loop that makes room pops a slot while there is none. -/
theorem pops_of_roomTurn {capacity : Nat} {name : String} {s s' : Shelf}
    (h : roomTurn capacity name s = some s') :
    capacity ≤ s.1.size ∧ s.1.contains name = false ∧ Pops (fun _ => True) s s' := by
  obtain ⟨records, slots⟩ := s
  cases slots with
  | nil => cases h
  | cons e rest =>
    obtain ⟨slot, oldest⟩ := e
    rw [roomTurn] at h
    split at h
    case isFalse => cases h
    case isTrue hfull =>
      rw [Bool.and_eq_true, decide_eq_true_eq, Bool.not_eq_true'] at hfull
      refine ⟨hfull.1, hfull.2, ?_⟩
      split at h
      case isTrue hs =>
        cases h
        obtain ⟨r, hr, hslot⟩ := (Option.any_eq_true _ _).1 hs
        exact .drop hr (eq_of_beq hslot) trivial
      case isFalse hs =>
        cases h
        cases hr : records.get? oldest with
        | none => exact .stale (by simp [listedIn, hr])
        | some r =>
          have hslot : r.slot ≠ slot := by simpa [hr] using hs
          exact .stale (by simp [listedIn, hr, hslot])

/-- The loop that drops what is too old ends in front of a record that is not, or of nothing. -/
theorem front_of_purgeTurn {now ttl : Millis} {s : Shelf} (h : purgeTurn now ttl s = none) :
    s.2 = [] ∨ ∃ slot name rest r, s.2 = (slot, name) :: rest ∧ s.1.get? name = some r ∧
      r.slot = slot ∧ now - r.recordedAt < ttl := by
  obtain ⟨records, slots⟩ := s
  cases slots with
  | nil => exact .inl rfl
  | cons e rest =>
    obtain ⟨slot, name⟩ := e
    right
    rw [purgeTurn] at h
    cases hr : records.get? name with
    | none => simp [hr] at h
    | some r =>
      simp only [hr] at h
      split at h
      case isFalse => cases h
      case isTrue hslot =>
        split at h
        case isFalse => cases h
        case isTrue hyoung => exact ⟨slot, name, rest, r, rfl, hr, hslot, hyoung⟩

theorem fresh_of_purgeTurn {now ttl : Millis} {s : Shelf} (h : purgeTurn now ttl s = none) :
    s.2 = [] ∨ ∃ l rest, listed s = l :: rest ∧ now - l.recordedAt < ttl := by
  rcases front_of_purgeTurn h with hnil | ⟨slot, name, rest, r, hs, hr, hslot, hyoung⟩
  · exact .inl hnil
  · have hfront : listedIn s.1 (slot, name) = some ⟨name, r.verdict, r.recordedAt⟩ :=
      listedIn_eq_some_iff.2 ⟨r, hr, hslot, rfl⟩
    rw [listed, hs]
    exact .inr ⟨_, _, List.filterMap_cons_some hfront, hyoung⟩

/-- The loop that makes room ends where there is room, or no slot. -/
theorem room_of_roomTurn {capacity : Nat} {name : String} {s : Shelf}
    (h : roomTurn capacity name s = none) :
    s.2 = [] ∨ s.1.size < capacity ∨ s.1.contains name = true := by
  obtain ⟨records, slots⟩ := s
  cases slots with
  | nil => exact .inl rfl
  | cons e rest =>
    obtain ⟨slot, oldest⟩ := e
    right
    rw [roomTurn] at h
    split at h
    case isTrue =>
      split at h
      · cases h
      · cases h
    case isFalse hroom =>
      rw [Bool.and_eq_true, decide_eq_true_eq, Bool.not_eq_true', not_and_or, Nat.not_le,
        Bool.not_eq_false] at hroom
      exact hroom

namespace Pops

variable {drops : FailureRecord → Prop} {s s' : Shelf}

theorem get?_of (h : Pops drops s s') {name : String} {r : FailureRecord}
    (hr : s'.1.get? name = some r) : s.1.get? name = some r := by
  cases h with
  | stale => exact hr
  | drop hr₀ hslot hd =>
    rw [Table.get?_erase] at hr
    split at hr
    · cases hr
    · exact hr

/-- A pop leaves the shelf aligned. -/
theorem aligned (h : Pops drops s s') (ho : Aligned s) : Aligned s' := by
  obtain ⟨hnodup, hordered, hstands⟩ := ho
  cases h with
  | @stale records e rest hnone =>
    refine ⟨hnodup, hordered.tail, ?_⟩
    intro name r hr
    rcases List.mem_cons.1 (hstands name r hr) with heq | hmem
    · -- nothing stands in a stale slot
      subst heq
      rw [listedIn_eq_some_iff.2 ⟨r, hr, rfl, rfl⟩] at hnone
      cases hnone
    · exact hmem
  | @drop records slot name rest r₀ hr₀ hslot hd =>
    refine ⟨?_, hordered.tail, ?_⟩
    · rw [Table.keys_erase]
      exact hnodup.filter _
    · intro k r hr
      rw [Table.get?_erase] at hr
      split at hr
      case isTrue => cases hr
      case isFalse hne =>
        rcases List.mem_cons.1 (hstands k r hr) with heq | hmem
        · cases heq
          exact absurd rfl hne
        · exact hmem

/-- The list loses its first entry or none. -/
theorem listed_cases (h : Pops drops s s') (ho : Aligned s) :
    listed s = listed s' ∨ ∃ name r, s.1.get? name = some r ∧ drops r ∧
      listed s = ⟨name, r.verdict, r.recordedAt⟩ :: listed s' := by
  cases h with
  | stale hnone =>
    left
    rw [listed, List.filterMap_cons_none hnone]
    rfl
  | @drop records slot name rest r hr hslot hd =>
    right
    exact ⟨name, r, hr, hd, ho.listed_front hr hslot⟩

/-- What goes may go, and stood in front of all that is left. -/
theorem of_gone (h : Pops drops s s') (ho : Aligned s) {name : String} {r : FailureRecord}
    (hr : s.1.get? name = some r) (hgone : s'.1.get? name = none) :
    drops r ∧ ∀ name' r', s'.1.get? name' = some r' → r.slot < r'.slot := by
  have hstands := (h.aligned ho).stands
  cases h with
  | stale =>
    rw [hr] at hgone
    cases hgone
  | @drop records slot front rest r₀ hr₀ hslot hd =>
    rw [Table.get?_erase] at hgone
    split at hgone
    case isTrue heq =>
      rw [heq] at hr
      cases hr₀.symm.trans hr
      refine ⟨hd, ?_⟩
      intro name' r' hr'
      rw [hslot]
      exact List.rel_of_pairwise_cons ho.ordered (hstands name' r' hr')
    case isFalse =>
      rw [hr] at hgone
      cases hgone

end Pops

/-! ## What the loops leave -/

namespace Loops

section Popping

variable {turn : Shelf → Option Shelf} {drops : FailureRecord → Prop} {turns : Nat} {s t : Shelf}
  (hp : ∀ s s', turn s = some s' → Pops drops s s')

include hp

theorem aligned (h : Loops turn turns s t) (ho : Aligned s) : Aligned t := by
  induction h with
  | stop => exact ho
  | next hturn _ ih => exact ih ((hp _ _ hturn).aligned ho)

theorem get?_of (h : Loops turn turns s t) {name : String} {r : FailureRecord}
    (hr : t.1.get? name = some r) : s.1.get? name = some r := by
  induction h with
  | stop => exact hr
  | next hturn _ ih => exact (hp _ _ hturn).get?_of (ih hr)

/-- What has gone might go, and stood in front of all that is left. -/
theorem of_gone (h : Loops turn turns s t) (ho : Aligned s) {name : String} {r : FailureRecord}
    (hr : s.1.get? name = some r) (hgone : t.1.get? name = none) :
    drops r ∧ ∀ name' r', t.1.get? name' = some r' → r.slot < r'.slot := by
  induction h with
  | stop =>
    rw [hr] at hgone
    cases hgone
  | @next s s' t turns hturn hrest ih =>
    have hpops := hp _ _ hturn
    cases hs : s'.1.get? name with
    | none =>
      obtain ⟨hd, hlt⟩ := hpops.of_gone ho hr hs
      exact ⟨hd, fun name' r' hr' => hlt name' r' (hrest.get?_of hp hr')⟩
    | some r₁ =>
      -- it goes in a later turn
      obtain rfl := Option.some.inj (hr.symm.trans (hpops.get?_of hs))
      exact ih (hpops.aligned ho) hs hgone

end Popping

variable {turns : Nat} {s t : Shelf}

/-- What is not too old is left on the list. -/
theorem listed_purge {now ttl : Millis} (h : Loops (purgeTurn now ttl) turns s t)
    (ho : Aligned s) (hordered : (listed s).Pairwise fun a b => a.recordedAt ≤ b.recordedAt) :
    listed t = (listed s).filter fun e => now - e.recordedAt < ttl := by
  induction h with
  | @stop s hstop =>
    symm
    apply List.filter_eq_self.2
    intro l hl
    rcases fresh_of_purgeTurn hstop with hnil | ⟨first, rest, hs, hyoung⟩
    · rw [listed, hnil] at hl
      cases hl
    · -- the others are from later than the first one
      have hle : first.recordedAt ≤ l.recordedAt := by
        rw [hs] at hl hordered
        rcases List.mem_cons.1 hl with rfl | hmem
        · exact Nat.le_refl _
        · exact List.rel_of_pairwise_cons hordered hmem
      apply decide_eq_true
      unfold Millis at *
      omega
  | @next s s' t turns hturn _ ih =>
    have hpops := pops_of_purgeTurn hturn
    rcases hpops.listed_cases ho with heq | ⟨name, r, -, hold, heq⟩
    · rw [heq] at hordered ⊢
      exact ih (hpops.aligned ho) hordered
    · rw [heq] at hordered ⊢
      rw [List.filter_cons_of_neg (by simpa using hold)]
      exact ih (hpops.aligned ho) hordered.tail

/-- Room is made at the front of the list. -/
theorem listed_room {capacity : Nat} {name : String} (h : Loops (roomTurn capacity name) turns s t)
    (ho : Aligned s) (hnew : s.1.contains name = false) :
    listed t = Roll.trim capacity (listed s) := by
  induction h with
  | @stop s hstop =>
    symm
    rcases room_of_roomTurn hstop with hnil | hroom | hmem
    · rw [listed, hnil]
      rfl
    · exact Roll.trim_of_lt (by rwa [ho.length_listed])
    · rw [hnew] at hmem
      cases hmem
  | @next s s' t turns hturn _ ih =>
    obtain ⟨hfull, -, hpops⟩ := pops_of_roomTurn hturn
    have hnew' : s'.1.contains name = false := by
      rw [Table.contains, Option.isSome_eq_false_iff, Option.isNone_iff_eq_none] at hnew ⊢
      apply Option.eq_none_iff_forall_ne_some.2
      intro r hr
      have hr' := hpops.get?_of hr
      rw [hnew] at hr'
      cases hr'
    rw [ih (hpops.aligned ho) hnew']
    rw [← ho.length_listed] at hfull
    rcases hpops.listed_cases ho with heq | ⟨k, r, -, -, heq⟩
    · rw [heq]
    · rw [heq, List.length_cons] at hfull
      rw [heq, Roll.trim, if_pos hfull]

/-- No room is made for a name that is on record. -/
theorem eq_of_contains {capacity : Nat} {name : String}
    (h : Loops (roomTurn capacity name) turns s t) (hmem : s.1.contains name = true) : t = s := by
  cases h with
  | stop => rfl
  | next hturn _ =>
    obtain ⟨-, hnew, -⟩ := pops_of_roomTurn hturn
    rw [hmem] at hnew
    cases hnew

/-- The loop that makes room does not end before there is some. -/
theorem room {capacity : Nat} {name : String} (h : Loops (roomTurn capacity name) turns s t)
    (ho : Aligned s) (hc : 0 < capacity) : t.1.size < capacity ∨ t.1.contains name = true := by
  induction h with
  | @stop s hstop =>
    rcases room_of_roomTurn hstop with hnil | hroom
    · left
      rw [← ho.length_listed, listed, hnil]
      exact hc
    · exact hroom
  | next hturn _ ih => exact ih ((pops_of_roomTurn hturn).2.2.aligned ho)

end Loops

/-! ## The operations -/

section Operations

variable {f : Failures} {log : List Note} {now t : Millis}

/-- The shelf after what is too old has been dropped. -/
def purged (f : Failures) (now : Millis) : Shelf := ((f.purge now).records, (f.purge now).slots)

/-- The shelf after room has been made for a name. -/
def roomFor (f : Failures) (now : Millis) (name : String) : Shelf :=
  makeRoom f.capacity name (f.purge now).records (f.purge now).slots

theorem exists_loops_purge (f : Failures) (now : Millis) : ∃ turns ≤ f.slots.length,
    Loops (purgeTurn now f.timeToLive) turns (f.records, f.slots) (f.purged now) :=
  loops_purgeFrom now f.timeToLive f.records f.slots

theorem exists_loops_room (f : Failures) (now : Millis) (name : String) :
    ∃ turns ≤ (f.purge now).slots.length,
      Loops (roomTurn f.capacity name) turns (f.purged now) (f.roomFor now name) :=
  loops_makeRoom f.capacity name (f.purge now).records (f.purge now).slots

theorem listed_purged (h : f.Recalls log) (hp : f.roll.Proper t) :
    listed (f.purged now) = f.roll.fresh now := by
  obtain ⟨turns, -, hloops⟩ := f.exists_loops_purge now
  exact hloops.listed_purge h.aligned hp.ordered

/-- A failure that is recorded takes the place of that of its name, at the end of the list. -/
theorem listed_insert {s : Shelf} {slot : Nat} (hbound : ∀ e ∈ s.2, e.1 < slot) (now : Millis)
    (name : String) (v : Verdict) :
    listed (s.1.insert name ⟨v, now, slot⟩, s.2 ++ [(slot, name)]) =
      Roll.without name (listed s) ++ [⟨name, v, now⟩] := by
  have hlast : listedIn (s.1.insert name ⟨v, now, slot⟩) (slot, name) = some ⟨name, v, now⟩ :=
    listedIn_eq_some_iff.2 ⟨_, by rw [Table.get?_insert, if_pos rfl], rfl, rfl⟩
  rw [← listed_erase, listed, listed, List.filterMap_append, List.filterMap_cons_some hlast]
  congr 1
  apply List.filterMap_congr
  intro e he
  rw [listedIn, listedIn, Table.get?_insert, Table.get?_erase]
  by_cases hname : e.2 = name
  · -- the new record stands in another slot
    have hne : slot ≠ e.1 := Nat.ne_of_gt (hbound e he)
    simp [hname, hne]
  · simp [hname]

/-- A look at the failed settlements is one at the list. -/
theorem serve_get (h : f.Recalls log) (hp : f.roll.Proper t) (now : Millis) (name : String) :
    ((f.serve (.get now name)).1.roll, (f.serve (.get now name)).2) =
      f.roll.serve (.get now name) := by
  have hlisted : listed ((f.purge now).records, (f.purge now).slots) = f.roll.fresh now :=
    listed_purged h hp
  have hverdict := (h.purge now).aligned.verdict?_listed name
  rw [hlisted] at hverdict
  rw [Roll.serve, hverdict, ← hlisted]
  rfl

theorem serve_record (h : f.Recalls log) (hp : f.roll.Proper t) (now : Millis) (name : String)
    (v : Verdict) :
    ((f.serve (.record now name v)).1.roll, (f.serve (.record now name v)).2) =
      f.roll.serve (.record now name v) := by
  have ho : Aligned (f.purged now) := (h.purge now).aligned
  have hlisted : listed (f.purged now) = f.roll.fresh now := listed_purged h hp
  obtain ⟨turns, -, hloops⟩ := f.exists_loops_room now name
  have hbound : ∀ e ∈ (f.roomFor now name).2, e.1 < (f.purge now).nextSlot :=
    ((h.purge now).makeRoom).bound
  have hinsert := listed_insert hbound now name v
  have hpops : ∀ s s', roomTurn f.capacity name s = some s' → Pops (fun _ => True) s s' :=
    fun s s' hturn => (pops_of_roomTurn hturn).2.2
  have hothers : Roll.without name (listed (f.roomFor now name)) =
      if (f.roll.fresh now).any fun e => e.name == name then Roll.without name (f.roll.fresh now)
      else Roll.trim f.capacity (f.roll.fresh now) := by
    rw [← hlisted, ho.any_listed]
    split
    case isTrue hmem =>
      -- no room is made for a name that is on record
      rw [hloops.eq_of_contains hmem]
    case isFalse hmem =>
      rw [← hloops.listed_room ho (by simpa using hmem)]
      apply List.filter_eq_self.2
      intro l hl
      obtain ⟨r, hr, -⟩ := (hloops.aligned hpops ho).mem_listed_iff.1 hl
      have hr' := hloops.get?_of hpops hr
      have hne : l.name ≠ name := by
        rintro rfl
        rw [Table.contains, hr'] at hmem
        exact hmem rfl
      simpa using hne
  rw [Roll.serve, ← show f.capacity = f.roll.capacity from rfl, ← hothers, ← hinsert]
  rfl

theorem serve_remove (f : Failures) (name : String) :
    ((f.serve (.remove name)).1.roll, (f.serve (.remove name)).2) =
      f.roll.serve (.remove name) := by
  have hlisted := listed_erase f.records f.slots name
  simp only [Roll.serve, roll, ← hlisted]
  rfl

theorem serve_roll (h : f.Recalls log) (hp : f.roll.Proper t) (call : Call) :
    ((f.serve call).1.roll, (f.serve call).2) = f.roll.serve call := by
  cases call with
  | record now name v => exact serve_record h hp now name v
  | get now name => exact serve_get h hp now name
  | remove name => exact serve_remove f name

/-- The records go on agreeing with some history. -/
theorem Recalls.serve (h : f.Recalls log) (call : Call) :
    ∃ log', (f.serve call).1.Recalls log' := by
  cases call with
  | record now name v => exact ⟨_, h.record now name v⟩
  | get now name => exact ⟨_, h.purge now⟩
  | remove name => exact ⟨_, h.remove name⟩

theorem size_roll (h : f.Recalls log) : f.roll.size = f.size := h.aligned.length_listed

/-- A record whose slot stands in front of another one's is not from later. -/
theorem recordedAt_le (h : f.Recalls log) (hp : f.roll.Proper t) {name name' : String}
    {r r' : FailureRecord} (hr : f.records.get? name = some r)
    (hr' : f.records.get? name' = some r') (hlt : r.slot < r'.slot) :
    r.recordedAt ≤ r'.recordedAt := by
  have hslots := h.ordered.and (List.pairwise_filterMap.1 hp.ordered)
  rw [List.pairwise_iff_getElem] at hslots
  obtain ⟨i, hi, hslot⟩ := List.getElem_of_mem (h.stands name r hr)
  obtain ⟨j, hj, hslot'⟩ := List.getElem_of_mem (h.stands name' r' hr')
  have hij : i < j := by
    rcases Nat.lt_trichotomy i j with hij | rfl | hji
    · exact hij
    · rw [hslot] at hslot'
      obtain ⟨hsame, -⟩ := Prod.mk.inj hslot'
      omega
    · have hgt := (hslots j i hj hi hji).1
      rw [hslot, hslot'] at hgt
      omega
  have hle := (hslots i j hi hj hij).2
  rw [hslot, hslot'] at hle
  exact hle _ (listedIn_eq_some_iff.2 ⟨r, hr, rfl, rfl⟩) _
    (listedIn_eq_some_iff.2 ⟨r', hr', rfl, rfl⟩)

/-- What is not too old survives a purge. -/
theorem get?_purged (h : f.Recalls log) {name : String} {r : FailureRecord}
    (hr : f.records.get? name = some r) (hyoung : now - r.recordedAt < f.timeToLive) :
    (f.purged now).1.get? name = some r := by
  obtain ⟨turns, -, hloops⟩ := f.exists_loops_purge now
  have hpops : ∀ s s', purgeTurn now f.timeToLive s = some s' →
      Pops (fun r => ¬ now - r.recordedAt < f.timeToLive) s s' := fun s s' => pops_of_purgeTurn
  cases hp : (f.purged now).1.get? name with
  | none => exact absurd hyoung (hloops.of_gone hpops h.aligned hr hp).1
  | some r' => rw [← hr, hloops.get?_of hpops hp]

/-! ## Calls that follow each other -/

/-- What a call does to the records: there are not too many; a record that goes before it is too old
was recorded before all that is left; and the loops end, the second one not before there is room. -/
structure Fair (f : Failures) (call : Call) : Prop where
  bounded : (f.serve call).1.size ≤ f.capacity
  oldestFirst : ∀ name r, f.records.get? name = some r → call.writes name = false →
    (∀ now, call.time? = some now → now - r.recordedAt < f.timeToLive) →
    (f.serve call).1.records.get? name = none →
    ∀ name' r', f.records.get? name' = some r' → (f.serve call).1.records.get? name' = some r' →
      r.slot < r'.slot ∧ r.recordedAt ≤ r'.recordedAt
  purges : ∀ now, call.time? = some now → ∃ turns ≤ f.slots.length,
    Loops (purgeTurn now f.timeToLive) turns (f.records, f.slots) (f.purged now)
  makesRoom : ∀ now name v, call = .record now name v → ∃ turns ≤ (f.purge now).slots.length,
    Loops (roomTurn f.capacity name) turns (f.purged now) (f.roomFor now name) ∧
      ((f.roomFor now name).1.size < f.capacity ∨ (f.roomFor now name).1.contains name = true)

/-- A live record is dropped only if it stood in front of all that is left. -/
theorem lt_of_dropped (h : f.Recalls log) {call : Call} {name : String} {r : FailureRecord}
    (hr : f.records.get? name = some r) (hother : call.writes name = false)
    (hyoung : ∀ now, call.time? = some now → now - r.recordedAt < f.timeToLive)
    (hgone : (f.serve call).1.records.get? name = none) {name' : String} {r' : FailureRecord}
    (hleft : (f.serve call).1.records.get? name' = some r') : r.slot < r'.slot := by
  cases call with
  | get now name₀ =>
    have hkept := get?_purged h hr (hyoung now rfl)
    cases hkept.symm.trans hgone
  | remove name₀ =>
    have hne : name ≠ name₀ := fun he => by simp [Call.writes, he] at hother
    rw [serve, remove, Table.get?_erase, if_neg hne, hr] at hgone
    cases hgone
  | record now name₀ v =>
    have hne : name ≠ name₀ := fun he => by simp [Call.writes, he] at hother
    have hkept := get?_purged h hr (hyoung now rfl)
    have hgone : ((f.roomFor now name₀).1.insert name₀ ⟨v, now, f.nextSlot⟩).get? name = none :=
      hgone
    have hleft : ((f.roomFor now name₀).1.insert name₀ ⟨v, now, f.nextSlot⟩).get? name' = some r' :=
      hleft
    rw [Table.get?_insert, if_neg hne] at hgone
    rw [Table.get?_insert] at hleft
    split at hleft
    case isTrue =>
      -- the new record stands behind all others
      cases hleft
      exact h.bound _ (h.stands name r hr)
    case isFalse =>
      obtain ⟨turns, -, hloops⟩ := f.exists_loops_room now name₀
      exact (hloops.of_gone (fun s s' hturn => (pops_of_roomTurn hturn).2.2)
        (h.purge now).aligned hkept hgone).2 name' r' hleft

/-- Failed settlements that agree with a history and are faced with calls at later times. -/
structure Faces (f : Failures) (now : Millis) (calls : List Call) : Prop where
  recalls : ∃ log, f.Recalls log
  proper : f.roll.Proper now
  onward : (now :: calls.filterMap Call.time?).Pairwise (· ≤ ·)

namespace Faces

variable {call : Call} {calls rest : List Call}

theorem proper_serve (h : f.Faces now (call :: rest)) :
    ∃ later, (f.serve call).1.roll.Proper later ∧
      (later :: rest.filterMap Call.time?).Pairwise (· ≤ ·) := by
  obtain ⟨log, hlog⟩ := h.recalls
  have hroll : (f.serve call).1.roll = (f.roll.serve call).1 :=
    congrArg Prod.fst (serve_roll hlog h.proper call)
  rw [hroll]
  have honward := h.onward
  cases ht : call.time? with
  | none =>
    rw [List.filterMap_cons_none ht] at honward
    exact ⟨now, h.proper.serve (Nat.le_refl now) (by simp [ht]), honward⟩
  | some later =>
    rw [List.filterMap_cons_some ht] at honward
    have hle : now ≤ later := List.rel_of_pairwise_cons honward List.mem_cons_self
    exact ⟨later, h.proper.serve hle (by simp [ht]), honward.tail⟩

theorem serve (h : f.Faces now (call :: rest)) : ∃ later, (f.serve call).1.Faces later rest := by
  obtain ⟨later, hproper, honward⟩ := h.proper_serve
  exact ⟨later, h.recalls.elim fun log hlog => hlog.serve call, hproper, honward⟩

theorem fair (h : f.Faces now (call :: rest)) : f.Fair call where
  bounded := by
    obtain ⟨later, hproper, -⟩ := h.proper_serve
    obtain ⟨log, hlog⟩ := h.recalls
    obtain ⟨log', hlog'⟩ := hlog.serve call
    have hwithin := hproper.within
    rw [← Roll.size, size_roll hlog'] at hwithin
    cases call with
    | record => exact hwithin
    | get => exact hwithin
    | remove => exact hwithin
  oldestFirst := by
    obtain ⟨log, hlog⟩ := h.recalls
    intro name r hr hother hyoung hgone name' r' hr' hleft
    have hlt := lt_of_dropped hlog hr hother hyoung hgone hleft
    exact ⟨hlt, recordedAt_le hlog h.proper hr hr' hlt⟩
  purges later _ := f.exists_loops_purge later
  makesRoom later name v _ := by
    obtain ⟨log, hlog⟩ := h.recalls
    obtain ⟨turns, hturns, hloops⟩ := f.exists_loops_room later name
    exact ⟨turns, hturns, hloops, hloops.room (hlog.purge later).aligned h.proper.roomy⟩

theorem sights (h : f.Faces now calls) :
    sights Failures.serve size f calls = Failures.sights Roll.serve Roll.size f.roll calls := by
  induction calls generalizing f now with
  | nil => rfl
  | cons call rest ih =>
    obtain ⟨later, hnext⟩ := h.serve
    obtain ⟨log, hlog⟩ := h.recalls
    obtain ⟨log', hlog'⟩ := hlog.serve call
    rw [Failures.sights, Failures.sights, ← serve_roll hlog h.proper call]
    dsimp only
    rw [ih hnext, size_roll hlog']

theorem run {done : List Call} (h : f.Faces now (done ++ rest)) :
    ∃ later, (f.run done).Faces later rest := by
  induction done generalizing f now with
  | nil => exact ⟨now, h⟩
  | cons call done ih =>
    obtain ⟨later, hnext⟩ := h.serve
    exact ih hnext

end Faces

theorem faces_empty (capacity : Nat) (timeToLive : Millis) {calls : List Call}
    (h : (calls.filterMap Call.time?).Pairwise (· ≤ ·)) :
    (empty capacity timeToLive).Faces 0 calls where
  recalls := ⟨[], Recalls.empty capacity timeToLive⟩
  proper := Roll.proper_empty capacity timeToLive
  onward := List.pairwise_cons.2 ⟨fun _ _ => Nat.zero_le _, h⟩

@[simp] theorem capacity_run (f : Failures) (calls : List Call) :
    (f.run calls).capacity = f.capacity := by
  induction calls generalizing f with
  | nil => rfl
  | cons call rest ih =>
    rw [run, List.foldl_cons, ← run, ih]
    cases call with
    | record => rfl
    | get => rfl
    | remove => rfl

/-- Calls at times that do not go back see of the failed settlements what they see of the list.
There are never more of them than there is room for, and each call is fair. -/
theorem refines_roll (capacity : Nat) (timeToLive : Millis) (calls : List Call)
    (h : (calls.filterMap Call.time?).Pairwise (· ≤ ·)) :
    sights serve size (.empty capacity timeToLive) calls =
        sights Roll.serve Roll.size (.empty capacity timeToLive) calls ∧
      ∀ done call rest, calls = done ++ call :: rest →
        ((run (.empty capacity timeToLive) done).serve call).1.size ≤ max capacity 1 ∧
          (run (.empty capacity timeToLive) done).Fair call := by
  constructor
  · exact (faces_empty capacity timeToLive h).sights
  · rintro done call rest rfl
    obtain ⟨later, hfaces⟩ := (faces_empty capacity timeToLive h).run
    have hbounded := hfaces.fair.bounded
    rw [capacity_run] at hbounded
    exact ⟨hbounded, hfaces.fair⟩

/-- Calls that leave stale slots behind: of a name that is recorded anew, and of a name that is
removed. -/
def staleCalls : List Call :=
  [.record 0 "a" .accept, .record 1 "b" .requeue, .remove "a", .record 2 "a" .reject,
    .record 3 "c" .accept, .get 3 "b", .get 3 "a", .get 12 "a", .get 12 "c"]

/-- The record that was made anew is not taken for the removed one: that of `b` gives way. -/
theorem sights_staleCalls : sights serve size (.empty 2 10) staleCalls =
    [⟨none, 1⟩, ⟨none, 2⟩, ⟨none, 1⟩, ⟨none, 2⟩, ⟨none, 2⟩, ⟨none, 2⟩, ⟨some .reject, 2⟩,
      ⟨none, 1⟩, ⟨some .accept, 1⟩] :=
  (refines_roll 2 10 staleCalls (by decide)).1.trans (by decide +kernel)

end Operations

end Reconnect.Broker.Failures
