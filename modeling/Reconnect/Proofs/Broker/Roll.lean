import Mathlib.Data.List.Basic
import Reconnect.Broker.Failures

/-!
# Failed settlements as a list

To a caller the failed settlements are a list of entries, the one that was recorded last at its end
(`Roll`). Entries that are too old are dropped whenever the list is looked at. An entry replaces
that of its name; another one makes the first entries give way while the list is full. So the
entries stand in the order of their times and there are never too many of them (`Roll.Proper`).

Calls see the verdicts that are returned and the number of entries (`sights`).
-/

namespace Reconnect.Broker

/-! ## The list -/

/-- A failed settlement on the list. -/
structure Listed where
  name : String
  verdict : Verdict
  recordedAt : Millis
  deriving DecidableEq, Repr

/-- Failed settlements in the order in which they were last recorded. -/
structure Roll where
  capacity : Nat
  timeToLive : Millis
  entries : List Listed := []
  deriving DecidableEq, Repr

/-- A call for the failed settlements. -/
inductive Failures.Call where
  | record (now : Millis) (name : String) (verdict : Verdict)
  | get (now : Millis) (name : String)
  | remove (name : String)
  deriving DecidableEq, Repr

namespace Failures.Call

/-- When the failed settlements are looked at for a call. -/
def time? : Call → Option Millis
  | .record now _ _ | .get now _ => some now
  | .remove _ => none

/-- Whether a call writes or drops the record of a name. -/
def writes (name : String) : Call → Bool
  | .record _ n _ | .remove n => n == name
  | .get _ _ => false

end Failures.Call

namespace Roll

open Failures (Call)

/-- A list without entries, with room for at least one. -/
def empty (capacity : Nat) (timeToLive : Millis) : Roll :=
  { capacity := max capacity 1, timeToLive }

def size (roll : Roll) : Nat := roll.entries.length

/-- The entries that are not too old. -/
def fresh (roll : Roll) (now : Millis) : List Listed :=
  roll.entries.filter fun e => now - e.recordedAt < roll.timeToLive

/-- The entries that are not of a name. -/
def without (name : String) (entries : List Listed) : List Listed :=
  entries.filter fun e => e.name ≠ name

/-- Drops the first entries while there are too many for one more. -/
def trim (capacity : Nat) : List Listed → List Listed
  | [] => []
  | e :: rest => if capacity ≤ rest.length + 1 then trim capacity rest else e :: rest

/-- The verdict of the entry of a name. -/
def verdict? (name : String) (entries : List Listed) : Option Verdict :=
  (entries.find? fun e => e.name == name).map Listed.verdict

/-- What a call makes of the list, and the verdict that it returns. -/
def serve (roll : Roll) : Call → Roll × Option Verdict
  | .get now name => ({ roll with entries := roll.fresh now }, verdict? name (roll.fresh now))
  | .record now name v =>
    let live := roll.fresh now
    let others :=
      if live.any (fun e => e.name == name) then without name live else trim roll.capacity live
    ({ roll with entries := others ++ [⟨name, v, now⟩] }, none)
  | .remove name => ({ roll with entries := without name roll.entries }, none)

/-- The entries stand in the order of their times, none is from later than now, and there are not
too many. -/
structure Proper (roll : Roll) (now : Millis) : Prop where
  roomy : 0 < roll.capacity
  ordered : roll.entries.Pairwise fun a b => a.recordedAt ≤ b.recordedAt
  past : ∀ e ∈ roll.entries, e.recordedAt ≤ now
  within : roll.entries.length ≤ roll.capacity

theorem proper_empty (capacity : Nat) (timeToLive : Millis) :
    (empty capacity timeToLive).Proper 0 where
  roomy := Nat.le_max_right capacity 1
  ordered := List.Pairwise.nil
  past := nofun
  within := Nat.zero_le _

theorem trim_sublist (capacity : Nat) (entries : List Listed) :
    (trim capacity entries).Sublist entries := by
  induction entries with
  | nil => exact List.Sublist.refl _
  | cons e rest ih =>
    rw [trim]
    split
    · exact ih.cons e
    · exact List.Sublist.refl _

theorem length_trim_lt {capacity : Nat} (h : 0 < capacity) (entries : List Listed) :
    (trim capacity entries).length < capacity := by
  induction entries with
  | nil => exact h
  | cons e rest ih =>
    rw [trim]
    split
    · exact ih
    · rw [List.length_cons]
      omega

theorem trim_of_lt {capacity : Nat} {entries : List Listed} (h : entries.length < capacity) :
    trim capacity entries = entries := by
  cases entries with
  | nil => rfl
  | cons e rest =>
    rw [List.length_cons] at h
    rw [trim, if_neg (by omega)]

/-- Fewer of the entries are as proper, later too. -/
theorem Proper.sublist {roll : Roll} {now later : Millis} {entries : List Listed}
    (h : roll.Proper now) (hle : now ≤ later) (hs : entries.Sublist roll.entries) :
    Proper { roll with entries } later where
  roomy := h.roomy
  ordered := h.ordered.sublist hs
  past e he := Nat.le_trans (h.past e (hs.subset he)) hle
  within := Nat.le_trans hs.length_le h.within

/-- One more entry is proper where there is room for it. -/
theorem Proper.concat {roll : Roll} {now : Millis} (h : roll.Proper now)
    (hroom : roll.entries.length < roll.capacity) (name : String) (v : Verdict) :
    Proper { roll with entries := roll.entries ++ [⟨name, v, now⟩] } now where
  roomy := h.roomy
  ordered := by
    apply List.pairwise_append.2
    refine ⟨h.ordered, List.pairwise_singleton _ _, ?_⟩
    intro e he e' he'
    rw [List.mem_singleton.1 he']
    exact h.past e he
  past := by
    intro e he
    rcases List.mem_append.1 he with he | he
    · exact h.past e he
    · obtain rfl := List.mem_singleton.1 he
      exact Nat.le_refl now
  within := by
    rw [List.length_append]
    exact hroom

/-- What a call leaves is proper. -/
theorem Proper.serve {roll : Roll} {now later : Millis} (h : roll.Proper now) (hle : now ≤ later)
    {call : Call} (hc : ∀ t, call.time? = some t → t = later) :
    (roll.serve call).1.Proper later := by
  cases call with
  | get t name =>
    obtain rfl := hc t rfl
    exact h.sublist hle List.filter_sublist
  | remove name => exact h.sublist hle List.filter_sublist
  | record t name v =>
    obtain rfl := hc t rfl
    have hlive : (roll.fresh t).Sublist roll.entries := List.filter_sublist
    simp only [Roll.serve]
    split
    case isTrue hany =>
      -- the entry of the name makes room
      obtain ⟨e, he, hname⟩ := List.any_eq_true.1 hany
      have hlt : (without name (roll.fresh t)).length < (roll.fresh t).length := by
        apply List.length_filter_lt_length_iff_exists.2
        exact ⟨e, he, by simpa using hname⟩
      have hroom : (without name (roll.fresh t)).length < roll.capacity :=
        Nat.lt_of_lt_of_le hlt (Nat.le_trans hlive.length_le h.within)
      exact (h.sublist hle (List.filter_sublist.trans hlive)).concat hroom name v
    case isFalse =>
      exact (h.sublist hle ((trim_sublist _ _).trans hlive)).concat
        (length_trim_lt h.roomy _) name v

end Roll

namespace Failures

/-! ## What a caller sees -/

/-- What a call makes of the failed settlements, and the verdict that it returns. -/
def serve (f : Failures) : Call → Failures × Option Verdict
  | .record now name v => (f.record now name v, none)
  | .get now name => f.get now name
  | .remove name => (f.remove name, none)

/-- What calls make of the failed settlements. -/
def run (f : Failures) (calls : List Call) : Failures := calls.foldl (fun f c => (f.serve c).1) f

/-- What a caller sees of a call: the verdict that it returns, and how many records there are. -/
structure Sight where
  verdict : Option Verdict
  size : Nat
  deriving DecidableEq, Repr

/-- What a caller sees of calls, one after the other. -/
def sights {σ : Type} (serve : σ → Call → σ × Option Verdict) (size : σ → Nat) :
    σ → List Call → List Sight
  | _, [] => []
  | s, call :: rest =>
    let (s', verdict) := serve s call
    ⟨verdict, size s'⟩ :: sights serve size s' rest

end Failures

end Reconnect.Broker
