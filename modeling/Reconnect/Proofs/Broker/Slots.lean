import Reconnect.Proofs.Broker.Shelf

/-!
# How many slots there are

A record that is dropped or made anew leaves its slot behind, and such a stale slot goes only when
it comes to the front of the row. While the oldest record stays, every call that takes a younger one
off the list adds a slot that stays as long (`Roll.overtakes`). So no bound on the slots depends on
the room for records only (`no_bound_on_slots`). What holds is that the slots exceed that room by
one and by the number of such calls at most, and that a look leaves no more slots than failures were
recorded that are not too old (`slots_run`).

The proof looks at what stands in the slots (`marks`): a pop takes away the first mark, a name that
is taken off the list blanks one, and blanks in front of all others do not last (`gaps`).
-/

namespace Reconnect.Broker

/-! ## Calls that overtake -/

namespace Roll

open Failures (Call)

/-- Whether a call takes a name off the list that stands behind another one. -/
def overtakes (roll : Roll) : Call → Bool
  | .get _ _ => false
  | .record now name _ => (roll.fresh now).tail.any fun e => e.name == name
  | .remove name => roll.entries.tail.any fun e => e.name == name

/-- How many of the calls take a name off the list that stands behind another one. -/
def overtakings : Roll → List Call → Nat
  | _, [] => 0
  | roll, call :: rest => (roll.overtakes call).toNat + overtakings (roll.serve call).1 rest

end Roll

namespace Failures

/-- When a call records a failure. -/
def Call.recording? : Call → Option Millis
  | .record now _ _ => some now
  | .get _ _ | .remove _ => none

/-! ## Blanks in a list -/

section Blanks

variable {α : Type}

/-- How many blanks there are behind the first mark. -/
def gaps : List (Option α) → Nat
  | [] => 0
  | none :: ms => gaps ms
  | some _ :: ms => ms.countP Option.isNone

theorem gaps_le_countP (ms : List (Option α)) : gaps ms ≤ ms.countP Option.isNone := by
  induction ms with
  | nil => exact Nat.le_refl 0
  | cons m ms ih =>
    cases m with
    | none =>
      rw [gaps, List.countP_cons_of_pos rfl]
      exact Nat.le_succ_of_le ih
    | some a =>
      show ms.countP Option.isNone ≤ _
      exact Nat.le_of_eq (List.countP_cons_of_neg (by simp)).symm

/-- Taking marks and blanks away from the front makes no gaps. -/
theorem gaps_le_of_suffix {ms ms' : List (Option α)} (h : ms' <:+ ms) : gaps ms' ≤ gaps ms := by
  obtain ⟨front, rfl⟩ := h
  induction front with
  | nil => exact Nat.le_refl _
  | cons m front ih =>
    cases m with
    | none => exact ih
    | some a =>
      apply Nat.le_trans (gaps_le_countP ms')
      rw [List.cons_append, gaps, List.countP_append]
      exact Nat.le_add_left _ _

/-- A mark at the end makes no gap. -/
theorem gaps_concat (ms : List (Option α)) (a : α) : gaps (ms ++ [some a]) = gaps ms := by
  induction ms with
  | nil => rfl
  | cons m ms ih =>
    cases m with
    | none => exact ih
    | some b => simp [gaps]

theorem length_eq_countP_add (ms : List (Option α)) :
    ms.length = ms.countP Option.isNone + (ms.filterMap id).length := by
  induction ms with
  | nil => rfl
  | cons m ms ih =>
    cases m with
    | none =>
      simp only [List.length_cons, List.countP_cons_of_pos, Option.isNone_none,
        List.filterMap_cons_none, id_eq, ih]
      omega
    | some a =>
      simp only [List.length_cons, ih, List.filterMap_cons_some (f := id) (a := some a) rfl]
      rw [List.countP_cons_of_neg (by simp)]
      omega

theorem countP_map_filter (p : α → Bool) (ms : List (Option α)) :
    (ms.map (Option.filter p)).countP Option.isNone =
      ms.countP Option.isNone + (ms.filterMap id).countP (!p ·) := by
  induction ms with
  | nil => rfl
  | cons m ms ih =>
    cases m with
    | none =>
      simp only [List.map_cons, Option.filter_none, List.countP_cons_of_pos, Option.isNone_none,
        List.filterMap_cons_none, id_eq, ih]
      omega
    | some a =>
      cases hp : p a with
      | true => simp [Option.filter, hp, ih]
      | false =>
        simp [Option.filter, hp, ih]
        omega

/-- Only a mark behind the first one leaves a gap when it is blanked. -/
theorem gaps_map_filter_le (p : α → Bool) (ms : List (Option α)) :
    gaps (ms.map (Option.filter p)) ≤ gaps ms + (ms.filterMap id).tail.countP (!p ·) := by
  induction ms with
  | nil => exact Nat.le_refl 0
  | cons m ms ih =>
    cases m with
    | none => exact ih
    | some a =>
      have hle : gaps ((some a :: ms).map (Option.filter p)) ≤
          (ms.map (Option.filter p)).countP Option.isNone := by
        rw [List.map_cons]
        cases Option.filter p (some a) with
        | none => exact gaps_le_countP (ms.map (Option.filter p))
        | some b => exact Nat.le_refl _
      rw [countP_map_filter] at hle
      exact hle

end Blanks

/-! ## What stands in the slots -/

/-- What stands in the slots of a shelf, in order; a stale one is blank. -/
def marks (s : Shelf) : List (Option Listed) := s.2.map (listedIn s.1)

theorem listed_eq_marks (s : Shelf) : listed s = (marks s).filterMap id := by
  rw [listed, marks, List.filterMap_map]
  rfl

theorem length_marks (s : Shelf) : (marks s).length = s.2.length := List.length_map _

/-- A name that is taken off the list blanks its mark. -/
theorem marks_erase (records : Table String FailureRecord) (slots : List (Nat × String))
    (name : String) :
    marks (records.erase name, slots) =
      (marks (records, slots)).map (Option.filter fun l => l.name ≠ name) := by
  rw [marks, marks, List.map_map]
  apply List.map_congr_left
  intro e _
  exact listedIn_erase records name e

/-- A failure that is recorded blanks the mark of its name and adds one at the end. -/
theorem marks_insert {s : Shelf} {slot : Nat} (hbound : ∀ e ∈ s.2, e.1 < slot) (now : Millis)
    (name : String) (v : Verdict) :
    marks (s.1.insert name ⟨v, now, slot⟩, s.2 ++ [(slot, name)]) =
      (marks s).map (Option.filter fun l => l.name ≠ name) ++ [some ⟨name, v, now⟩] := by
  have hlast : listedIn (s.1.insert name ⟨v, now, slot⟩) (slot, name) = some ⟨name, v, now⟩ :=
    listedIn_eq_some_iff.2 ⟨_, by rw [Table.get?_insert, if_pos rfl], rfl, rfl⟩
  rw [← marks_erase, marks, marks, List.map_append, List.map_singleton, hlast]
  congr 1
  apply List.map_congr_left
  intro e he
  rw [listedIn, listedIn, Table.get?_insert, Table.get?_erase]
  by_cases hname : e.2 = name
  · -- the new record stands in another slot
    have hne : slot ≠ e.1 := Nat.ne_of_gt (hbound e he)
    simp [hname, hne]
  · simp [hname]

/-- A pop takes away the first mark. -/
theorem Pops.marks_eq {drops : FailureRecord → Prop} {s s' : Shelf} (h : Pops drops s s')
    (ho : Aligned s) : marks s' = (marks s).tail := by
  cases h with
  | stale => rfl
  | @drop records slot name rest r hr hslot _ =>
    -- the record that goes stands in no other slot
    have hkept : ∀ m ∈ marks (records, rest), Option.filter (fun l => l.name ≠ name) m = m := by
      intro m hm
      obtain ⟨e, he, rfl⟩ := List.mem_map.1 hm
      cases hl : listedIn records e with
      | none => rfl
      | some l =>
        obtain ⟨r', hr', hslot', rfl⟩ := listedIn_eq_some_iff.1 hl
        have hlt : slot < e.1 := List.rel_of_pairwise_cons ho.ordered he
        have hne : e.2 ≠ name := by
          intro hname
          rw [hname, hr] at hr'
          cases hr'
          omega
        simp [Option.filter, hne]
    rw [marks_erase, List.map_congr_left hkept, List.map_id']
    rfl

/-- The loops take marks away from the front. -/
theorem Loops.marks_suffix {turn : Shelf → Option Shelf} {drops : FailureRecord → Prop}
    {turns : Nat} {s t : Shelf} (hp : ∀ s s', turn s = some s' → Pops drops s s')
    (h : Loops turn turns s t) (ho : Aligned s) : marks t <:+ marks s := by
  induction h with
  | stop => exact List.suffix_rfl
  | next hturn _ ih =>
    have hpops := hp _ _ hturn
    apply (ih (hpops.aligned ho)).trans
    rw [hpops.marks_eq ho]
    exact List.tail_suffix _

theorem Loops.stopped {σ : Type} {turn : σ → Option σ} {turns : Nat} {s t : σ}
    (h : Loops turn turns s t) : turn t = none := by
  induction h with
  | stop hstop => exact hstop
  | next _ _ ih => exact ih

section Looks

variable {f : Failures} {log : List Note} {now t : Millis}

/-- What a look leaves at the front is not too old. -/
theorem front_purged (f : Failures) (now : Millis) :
    (f.purge now).slots = [] ∨ ∃ slot name rest r, (f.purge now).slots = (slot, name) :: rest ∧
      (f.purge now).records.get? name = some r ∧ r.slot = slot ∧
      now - r.recordedAt < f.timeToLive := by
  obtain ⟨turns, -, hloops⟩ := f.exists_loops_purge now
  exact front_of_purgeTurn hloops.stopped

/-- After a look all blanks are gaps. -/
theorem gaps_purged (f : Failures) (now : Millis) :
    gaps (marks (f.purged now)) = (marks (f.purged now)).countP Option.isNone := by
  rcases front_purged f now with hnil | ⟨slot, name, rest, r, hs, hr, hslot, -⟩
  · rw [marks, purged, hnil]
    rfl
  · have hfront : listedIn (f.purge now).records (slot, name) =
        some ⟨name, r.verdict, r.recordedAt⟩ := listedIn_eq_some_iff.2 ⟨r, hr, hslot, rfl⟩
    rw [marks, purged, hs, List.map_cons, hfront, gaps, List.countP_cons_of_neg (by simp)]

theorem marks_purged_suffix (h : f.Recalls log) (now : Millis) :
    marks (f.purged now) <:+ marks (f.records, f.slots) := by
  obtain ⟨turns, -, hloops⟩ := f.exists_loops_purge now
  exact hloops.marks_suffix (fun s s' => pops_of_purgeTurn) h.aligned

theorem marks_roomFor_suffix (h : f.Recalls log) (now : Millis) (name : String) :
    marks (f.roomFor now name) <:+ marks (f.purged now) := by
  obtain ⟨turns, -, hloops⟩ := f.exists_loops_room now name
  exact hloops.marks_suffix (fun s s' hturn => (pops_of_roomTurn hturn).2.2)
    (h.purge now).aligned

end Looks

/-! ## One call -/

/-- There are no more gaps among the slots than names have overtaken others, and no more slots than
there is room for, and one, and one for each gap. -/
structure Spread (f : Failures) (overtaken : Nat) : Prop where
  gaps_le : gaps (marks (f.records, f.slots)) ≤ overtaken
  length_le : f.slots.length ≤ f.capacity + 1 + overtaken

/-- No name is listed twice. -/
theorem countP_name_le {s : Shelf} (h : Aligned s) (name : String) :
    ((listed s).tail.countP fun l => !decide (l.name ≠ name)) ≤
      ((listed s).tail.any fun l => l.name == name).toNat := by
  have hnodup : ((listed s).tail.map Listed.name).Nodup :=
    h.nodup_names.sublist ((List.tail_sublist _).map _)
  have hcount : ((listed s).tail.countP fun l => !decide (l.name ≠ name)) =
      ((listed s).tail.map Listed.name).count name := by
    rw [List.count, List.countP_map]
    apply List.countP_congr
    intro l _
    simp
  rw [hcount]
  cases hany : (listed s).tail.any fun l => l.name == name with
  | true => exact List.nodup_iff_count_le_one.1 hnodup name
  | false =>
    apply Nat.le_of_eq
    apply List.count_eq_zero.2
    intro hmem
    obtain ⟨l, hl, rfl⟩ := List.mem_map.1 hmem
    have hne := List.any_eq_false.1 hany l hl
    simp at hne

namespace Faces

variable {f : Failures} {now : Millis} {rest : List Call} {call : Call} {overtaken : Nat}

theorem spread_get {later : Millis} {name : String} (h : f.Faces now (.get later name :: rest))
    (hs : f.Spread overtaken) : (f.serve (.get later name)).1.Spread overtaken := by
  obtain ⟨log, hlog⟩ := h.recalls
  have hsuffix := marks_purged_suffix hlog later
  constructor
  · exact Nat.le_trans (gaps_le_of_suffix hsuffix) hs.gaps_le
  · have hle := hsuffix.length_le
    rw [length_marks, length_marks] at hle
    exact Nat.le_trans hle hs.length_le

theorem spread_remove {name : String} (h : f.Faces now (.remove name :: rest))
    (hs : f.Spread overtaken) :
    (f.serve (.remove name)).1.Spread
      (overtaken + (f.roll.overtakes (.remove name)).toNat) := by
  obtain ⟨log, hlog⟩ := h.recalls
  constructor
  · show gaps (marks (f.records.erase name, f.slots)) ≤ _
    rw [marks_erase]
    apply Nat.le_trans (gaps_map_filter_le _ _)
    rw [← listed_eq_marks]
    exact Nat.add_le_add hs.gaps_le (countP_name_le hlog.aligned name)
  · exact Nat.le_trans hs.length_le (Nat.add_le_add_left (Nat.le_add_right _ _) _)

theorem spread_record {later : Millis} {name : String} {v : Verdict}
    (h : f.Faces now (.record later name v :: rest)) (hs : f.Spread overtaken) :
    (f.serve (.record later name v)).1.Spread
      (overtaken + (f.roll.overtakes (.record later name v)).toNat) := by
  obtain ⟨log, hlog⟩ := h.recalls
  obtain ⟨turns, -, hloops⟩ := f.exists_loops_room later name
  have haligned : Aligned (f.roomFor later name) :=
    hloops.aligned (fun s s' hturn => (pops_of_roomTurn hturn).2.2) (hlog.purge later).aligned
  have hsuffix := marks_roomFor_suffix hlog later name
  have hlisted : (listed (f.roomFor later name)).Sublist (f.roll.fresh later) := by
    rw [← listed_purged hlog h.proper, listed_eq_marks, listed_eq_marks]
    exact (hsuffix.filterMap id).sublist
  -- room is made at the front only, where no blank is a gap
  have hblanks : (marks (f.roomFor later name)).countP Option.isNone ≤ overtaken := calc
    (marks (f.roomFor later name)).countP Option.isNone
      ≤ (marks (f.purged later)).countP Option.isNone := hsuffix.sublist.countP_le
    _ = gaps (marks (f.purged later)) := (gaps_purged f later).symm
    _ ≤ gaps (marks (f.records, f.slots)) := gaps_le_of_suffix (marks_purged_suffix hlog later)
    _ ≤ overtaken := hs.gaps_le
  have hbound : ∀ e ∈ (f.roomFor later name).2, e.1 < (f.purge later).nextSlot :=
    ((hlog.purge later).makeRoom).bound
  have hmarks : marks ((f.serve (.record later name v)).1.records,
      (f.serve (.record later name v)).1.slots) = _ := marks_insert hbound later name v
  have hlength : (f.serve (.record later name v)).1.slots.length =
      (marks (f.roomFor later name)).length + 1 := by
    rw [length_marks]
    exact List.length_append
  constructor
  · rw [hmarks, gaps_concat]
    apply Nat.le_trans (gaps_map_filter_le _ _)
    rw [← listed_eq_marks]
    apply Nat.add_le_add (Nat.le_trans (gaps_le_countP _) hblanks)
    apply Nat.le_trans (countP_name_le haligned name)
    cases hany : (listed (f.roomFor later name)).tail.any fun l => l.name == name with
    | false => exact Nat.zero_le _
    | true =>
      have hovertakes : f.roll.overtakes (.record later name v) = true := by
        obtain ⟨l, hl, hname⟩ := List.any_eq_true.1 hany
        exact List.any_eq_true.2 ⟨l, hlisted.tail.subset hl, hname⟩
      exact Nat.le_of_eq (congrArg Bool.toNat hovertakes.symm)
  · have hsize : (listed (f.roomFor later name)).length ≤ f.capacity :=
      Nat.le_trans hlisted.length_le
        (Nat.le_trans (List.length_filter_le _ _) h.proper.within)
    have hcapacity : (f.serve (.record later name v)).1.capacity = f.capacity := rfl
    rw [length_eq_countP_add, ← listed_eq_marks] at hlength
    omega

/-- A call adds a gap only if it overtakes. -/
theorem spread (h : f.Faces now (call :: rest)) (hs : f.Spread overtaken) :
    (f.serve call).1.Spread (overtaken + (f.roll.overtakes call).toNat) := by
  cases call with
  | record later name v => exact h.spread_record hs
  | get later name => exact h.spread_get hs
  | remove name => exact h.spread_remove hs

theorem spread_run {calls : List Call} (h : f.Faces now calls) (hs : f.Spread overtaken) :
    (f.run calls).Spread (overtaken + f.roll.overtakings calls) := by
  induction calls generalizing f now overtaken with
  | nil => exact hs
  | cons call rest ih =>
    obtain ⟨later, hnext⟩ := h.serve
    obtain ⟨log, hlog⟩ := h.recalls
    have hroll : (f.serve call).1.roll = (f.roll.serve call).1 :=
      congrArg Prod.fst (serve_roll hlog h.proper call)
    have hrest := ih hnext (h.spread hs)
    rw [hroll, Nat.add_assoc] at hrest
    exact hrest

end Faces

theorem spread_empty (capacity : Nat) (timeToLive : Millis) :
    (empty capacity timeToLive).Spread 0 where
  gaps_le := Nat.le_refl 0
  length_le := Nat.zero_le _

/-! ## Slots and times -/

/-- The slots are numbered by the failures that have been recorded, at the given times. -/
structure Dated (f : Failures) (times : List Millis) : Prop where
  next : f.nextSlot = times.length
  dated : ∀ name r, f.records.get? name = some r → times[r.slot]? = some r.recordedAt

namespace Dated

variable {f : Failures} {times : List Millis} {log : List Note}

theorem empty (capacity : Nat) (timeToLive : Millis) : Dated (.empty capacity timeToLive) [] where
  next := rfl
  dated := nofun

/-- A call that records a failure adds its time. -/
theorem serve (h : f.Dated times) (call : Call) :
    (f.serve call).1.Dated (times ++ call.recording?.toList) := by
  cases call with
  | get now name =>
    obtain ⟨turns, -, hloops⟩ := f.exists_loops_purge now
    rw [Call.recording?, Option.toList_none, List.append_nil]
    refine ⟨h.next, ?_⟩
    intro k r hr
    exact h.dated k r (hloops.get?_of (fun s s' => pops_of_purgeTurn) hr)
  | remove name =>
    rw [Call.recording?, Option.toList_none, List.append_nil]
    refine ⟨h.next, ?_⟩
    intro k r hr
    have hr : (f.records.erase name).get? k = some r := hr
    rw [Table.get?_erase] at hr
    split at hr
    · cases hr
    · exact h.dated k r hr
  | record now name v =>
    obtain ⟨turns, -, hpurge⟩ := f.exists_loops_purge now
    obtain ⟨turns', -, hroom⟩ := f.exists_loops_room now name
    rw [Call.recording?, Option.toList_some]
    constructor
    · rw [List.length_append, ← h.next]
      rfl
    · intro k r hr
      have hr : ((f.roomFor now name).1.insert name ⟨v, now, f.nextSlot⟩).get? k = some r := hr
      rw [Table.get?_insert] at hr
      split at hr
      case isTrue =>
        cases hr
        rw [h.next, List.getElem?_concat_length]
      case isFalse =>
        -- the record is older than the call
        have hold := hpurge.get?_of (fun s s' => pops_of_purgeTurn)
          (hroom.get?_of (fun s s' hturn => (pops_of_roomTurn hturn).2.2) hr)
        have hdate := h.dated k r hold
        obtain ⟨hlt, -⟩ := List.getElem?_eq_some_iff.1 hdate
        rw [List.getElem?_append_left hlt]
        exact hdate

theorem run (h : f.Dated times) (calls : List Call) :
    (f.run calls).Dated (times ++ calls.filterMap Call.recording?) := by
  induction calls generalizing f times with
  | nil =>
    rw [List.filterMap_nil, List.append_nil]
    exact h
  | cons call rest ih =>
    have hrest := ih (h.serve call)
    rw [List.append_assoc] at hrest
    cases hc : call.recording? with
    | none =>
      rw [hc] at hrest
      rwa [List.filterMap_cons_none hc]
    | some t =>
      rw [hc] at hrest
      rwa [List.filterMap_cons_some hc]

/-- Numbers that go up from one number and stay below another one are not many. -/
theorem length_le_of_increasing {slots : List (Nat × String)} {low high : Nat}
    (hordered : slots.Pairwise fun a b => a.1 < b.1) (hlow : ∀ e ∈ slots, low ≤ e.1)
    (hhigh : ∀ e ∈ slots, e.1 < high) : slots.length ≤ high - low := by
  induction slots generalizing low with
  | nil => exact Nat.zero_le _
  | cons e rest ih =>
    rw [List.pairwise_cons] at hordered
    have hrest : rest.length ≤ high - (e.1 + 1) :=
      ih hordered.2 hordered.1 fun e' he' => hhigh e' (List.mem_cons_of_mem _ he')
    have he := hlow e List.mem_cons_self
    have hlt := hhigh e List.mem_cons_self
    rw [List.length_cons]
    omega

/-- A look leaves a slot only for failures that were recorded not too long ago. -/
theorem length_purge_le (h : f.Dated times) (hlog : f.Recalls log)
    (hordered : times.Pairwise (· ≤ ·)) (now : Millis) :
    (f.purge now).slots.length ≤ times.countP fun t => now - t < f.timeToLive := by
  have hpurged := hlog.purge now
  rcases front_purged f now with hnil | ⟨slot, name, rest, r, hs, hr, hslot, hyoung⟩
  · rw [hnil]
    exact Nat.zero_le _
  · obtain ⟨turns, -, hloops⟩ := f.exists_loops_purge now
    have hdate := h.dated name r (hloops.get?_of (fun s s' => pops_of_purgeTurn) hr)
    obtain ⟨hlt, hat⟩ := List.getElem?_eq_some_iff.1 hdate
    have hlow : ∀ e ∈ (f.purge now).slots, r.slot ≤ e.1 := by
      intro e he
      have hpairwise := hpurged.ordered
      rw [hs] at he hpairwise
      rcases List.mem_cons.1 he with rfl | he
      · exact Nat.le_of_eq hslot
      · rw [hslot]
        exact Nat.le_of_lt (List.rel_of_pairwise_cons hpairwise he)
    -- what was recorded in a later slot was recorded later
    have hlater : ∀ t ∈ times.drop r.slot, now - t < f.timeToLive := by
      intro t ht
      rw [List.drop_eq_getElem_cons hlt, hat] at ht
      have hdropped := hordered.sublist (List.drop_sublist r.slot times)
      rw [List.drop_eq_getElem_cons hlt, hat] at hdropped
      rcases List.mem_cons.1 ht with rfl | ht
      · exact hyoung
      · have hle : r.recordedAt ≤ t := List.rel_of_pairwise_cons hdropped ht
        unfold Millis at *
        omega
    calc (f.purge now).slots.length
        ≤ (f.purge now).nextSlot - r.slot :=
          length_le_of_increasing hpurged.ordered hlow hpurged.bound
      _ = (times.drop r.slot).length := by
          rw [List.length_drop, ← h.next]
          rfl
      _ = (times.drop r.slot).countP fun t => now - t < f.timeToLive := by
          symm
          apply List.countP_eq_length.2
          intro t ht
          exact decide_eq_true (hlater t ht)
      _ ≤ times.countP fun t => now - t < f.timeToLive :=
          (List.drop_sublist r.slot times).countP_le

end Dated

/-! ## Calls that follow each other -/

@[simp] theorem timeToLive_run (f : Failures) (calls : List Call) :
    (f.run calls).timeToLive = f.timeToLive := by
  induction calls generalizing f with
  | nil => rfl
  | cons call rest ih =>
    rw [run, List.foldl_cons, ← run, ih]
    cases call with
    | record => rfl
    | get => rfl
    | remove => rfl

theorem recording?_sublist (calls : List Call) :
    (calls.filterMap Call.recording?).Sublist (calls.filterMap Call.time?) := by
  induction calls with
  | nil => exact List.Sublist.refl _
  | cons call rest ih =>
    cases call with
    | record now name v => exact ih.cons_cons now
    | get now name => exact ih.cons now
    | remove name => exact ih

/-- Calls at times that do not go back leave no more records than there is room for. They leave no
more slots than that, and one, and one for each name that was taken off the list from behind another
one; and a look leaves no more slots than failures were recorded that are not too old. -/
theorem slots_run (capacity : Nat) (timeToLive : Millis) (calls : List Call)
    (h : (calls.filterMap Call.time?).Pairwise (· ≤ ·)) :
    (run (.empty capacity timeToLive) calls).size ≤ max capacity 1 ∧
      (run (.empty capacity timeToLive) calls).slots.length ≤
        max capacity 1 + 1 + (Roll.empty capacity timeToLive).overtakings calls ∧
      ∀ now, ((run (.empty capacity timeToLive) calls).purge now).slots.length ≤
        (calls.filterMap Call.recording?).countP fun t => now - t < timeToLive := by
  have hfaces := faces_empty capacity timeToLive h
  have hspread := hfaces.spread_run (spread_empty capacity timeToLive)
  rw [← List.append_nil calls] at hfaces
  obtain ⟨later, hend⟩ := hfaces.run
  obtain ⟨log, hlog⟩ := hend.recalls
  refine ⟨?_, ?_, fun now => ?_⟩
  · have hwithin := hend.proper.within
    rw [← Roll.size, size_roll hlog] at hwithin
    exact Nat.le_trans hwithin (Nat.le_of_eq (capacity_run _ calls))
  · have hlength := hspread.length_le
    rw [capacity_run, Nat.zero_add] at hlength
    exact hlength
  · have hdated := (Dated.empty capacity timeToLive).run calls
    rw [List.nil_append] at hdated
    have hlength := hdated.length_purge_le hlog (h.sublist (recording?_sublist calls)) now
    rw [timeToLive_run] at hlength
    exact hlength

/-- Two records that are dropped from behind an older one leave two stale slots. When the oldest
record is too old, the next look drops all of them. -/
def overtakingCalls : List Call :=
  [.record 0 "a" .accept, .record 1 "b" .reject, .remove "b", .record 2 "c" .reject, .remove "c",
    .record 3 "b" .accept]

theorem slots_overtakingCalls :
    (run (.empty 2 10) overtakingCalls).size ≤ 2 ∧
      (run (.empty 2 10) overtakingCalls).slots.length = 4 ∧
      (Roll.empty 2 10).overtakings overtakingCalls = 2 ∧
      ((run (.empty 2 10) overtakingCalls).purge 12).slots.length ≤ 1 := by
  obtain ⟨hsize, -, hlook⟩ := slots_run 2 10 overtakingCalls (by decide)
  exact ⟨hsize, by decide, by decide, hlook 12⟩

/-- Of two names, one is recorded and dropped again and again while the other one stays. -/
def churn : Nat → List Call
  | 0 => []
  | n + 1 => .record 0 "b" .accept :: .remove "b" :: churn n

theorem time?_churn (n : Nat) : (churn n).filterMap Call.time? = List.replicate n 0 := by
  induction n with
  | zero => rfl
  | succ n ih =>
    rw [List.replicate_succ, ← ih]
    rfl

/-- The slots are not dropped while the record in the front slot stays. -/
theorem length_slots_churn {f : Failures} {r : FailureRecord} {s : List (Nat × String)}
    (hroom : 1 < f.capacity) (hyoung : 0 < f.timeToLive) (hrecords : f.records = ⟨[("a", r)]⟩)
    (hslots : f.slots = (r.slot, "a") :: s) (n : Nat) :
    (f.run (churn n)).slots.length = f.slots.length + n := by
  induction n generalizing f s with
  | zero => rfl
  | succ n ih =>
    have hpurge : purgeFrom 0 f.timeToLive f.records f.slots = (f.records, f.slots) := by
      have hfront : f.records.get? "a" = some r := by
        rw [hrecords]
        rfl
      rw [hslots, purgeFrom, hfront]
      simp [hyoung]
    have hmake : makeRoom f.capacity "b" f.records f.slots = (f.records, f.slots) := by
      apply makeRoom_eq
      rw [hrecords]
      exact hroom
    have herase : (f.records.insert "b" ⟨.accept, 0, f.nextSlot⟩).erase "b" = f.records := by
      rw [hrecords]
      rfl
    have hnext : (f.record 0 "b" .accept).remove "b" =
        { f with slots := f.slots ++ [(f.nextSlot, "b")], nextSlot := f.nextSlot + 1 } := by
      simp only [record, purge, hpurge, hmake, remove, herase]
    have hrun : f.run (churn (n + 1)) = ((f.record 0 "b" .accept).remove "b").run (churn n) := rfl
    have hrest := ih (f := (f.record 0 "b" .accept).remove "b")
      (s := s ++ [(f.nextSlot, "b")])
      (by rw [hnext]; exact hroom) (by rw [hnext]; exact hyoung) (by rw [hnext]; exact hrecords)
      (by rw [hnext]; exact congrArg (· ++ [(f.nextSlot, "b")]) hslots)
    have hlength : ((f.record 0 "b" .accept).remove "b").slots.length = f.slots.length + 1 := by
      rw [hnext]
      exact List.length_append
    rw [hrun, hrest, hlength]
    omega

/-- No bound on the slots depends on the room for records only. -/
theorem no_bound_on_slots : ¬ ∃ bound : Nat → Nat, ∀ capacity timeToLive calls,
    (calls.filterMap Call.time?).Pairwise (· ≤ ·) →
    (run (.empty capacity timeToLive) calls).size ≤ bound capacity ∧
      (run (.empty capacity timeToLive) calls).slots.length ≤ bound capacity := by
  rintro ⟨bound, hbound⟩
  have htimes : ((Call.record 0 "a" .accept :: churn (bound 2)).filterMap Call.time?).Pairwise
      (· ≤ ·) := by
    have hzero : (Call.record 0 "a" .accept :: churn (bound 2)).filterMap Call.time? =
        List.replicate (bound 2 + 1) 0 := by
      rw [List.replicate_succ, ← time?_churn]
      rfl
    rw [hzero]
    exact List.pairwise_replicate.2 (.inr (Nat.le_refl 0))
  obtain ⟨-, hslots⟩ := hbound 2 1 _ htimes
  have hlength := length_slots_churn (f := (empty 2 1).record 0 "a" .accept)
    (r := ⟨.accept, 0, 0⟩) (s := []) (by decide) (by decide) (by decide) (by decide) (bound 2)
  have hrun : run (.empty 2 1) (.record 0 "a" .accept :: churn (bound 2)) =
      ((empty 2 1).record 0 "a" .accept).run (churn (bound 2)) := rfl
  rw [hrun, hlength] at hslots
  have hone : ((empty 2 1).record 0 "a" .accept).slots.length = 1 := by decide
  omega

end Failures

end Reconnect.Broker
