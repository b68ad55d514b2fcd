import Reconnect.Broker.Failures
import Reconnect.Proofs.Table

/-!
# What is kept of failed settlements

As long as no record is too old and there is room, the failed settlements are a plain table of
verdicts: nothing is purged, and nothing gives way to a new record.
-/

namespace Reconnect.Broker.Failures

/-- The verdict on record under a name. -/
def verdict? (f : Failures) (name : String) : Option Verdict :=
  (f.records.get? name).map FailureRecord.verdict

/-- No record is older than a time. -/
def Since (f : Failures) (start : Millis) : Prop :=
  ∀ name r, f.records.get? name = some r → start ≤ r.recordedAt

variable {f : Failures} {start now : Millis}

theorem purgeFrom_records {ttl : Millis} {records : Table String FailureRecord}
    (h : ∀ name r, records.get? name = some r → now - r.recordedAt < ttl)
    (slots : List (Nat × String)) : (purgeFrom now ttl records slots).1 = records := by
  induction slots with
  | nil => rfl
  | cons e rest ih =>
    obtain ⟨slot, name⟩ := e
    rw [purgeFrom]
    split
    case h_1 r hr =>
      split
      · rw [if_pos (h name r hr)]
      · exact ih
    case h_2 => exact ih

/-- Nothing is purged before the oldest record is too old. -/
theorem purge_records (h : f.Since start) (hstart : start ≤ now)
    (hnow : now < start + f.timeToLive) :
    (f.purge now).records = f.records := by
  refine purgeFrom_records (fun name r hr => ?_) f.slots
  have hr' : start ≤ r.recordedAt := h name r hr
  unfold Millis at *
  omega

theorem get_records (h : f.Since start) (hstart : start ≤ now)
    (hnow : now < start + f.timeToLive) (name : String) :
    (f.get now name).1.records = f.records :=
  purge_records h hstart hnow

theorem get_verdict (h : f.Since start) (hstart : start ≤ now)
    (hnow : now < start + f.timeToLive) (name : String) :
    (f.get now name).2 = f.verdict? name := by
  rw [get, verdict?, purge_records h hstart hnow]

theorem makeRoom_eq {capacity : Nat} {records : Table String FailureRecord}
    (h : records.size < capacity) (name : String) (slots : List (Nat × String)) :
    makeRoom capacity name records slots = (records, slots) := by
  cases slots with
  | nil => rfl
  | cons e rest =>
    rw [makeRoom, if_neg]
    simp [Nat.not_le_of_lt h]

/-- A record finds its place where there is room. -/
theorem record_records (h : f.Since start) (hstart : start ≤ now)
    (hnow : now < start + f.timeToLive)
    (hroom : f.size < f.capacity) (name : String) (v : Verdict) :
    (f.record now name v).records = f.records.insert name ⟨v, now, f.nextSlot⟩ := by
  have hp := purge_records h hstart hnow
  have hsize : f.records.size < (f.purge now).capacity := hroom
  simp only [record, hp, makeRoom_eq hsize]
  rfl

theorem Since.get (h : f.Since start) (hstart : start ≤ now) (hnow : now < start + f.timeToLive)
    (name : String) : (f.get now name).1.Since start := by
  intro name' r hr
  rw [get_records h hstart hnow] at hr
  exact h name' r hr

theorem Since.record (h : f.Since start) (hstart : start ≤ now)
    (hnow : now < start + f.timeToLive) (hroom : f.size < f.capacity) (name : String)
    (v : Verdict) : (f.record now name v).Since start := by
  intro name' r hr
  rw [record_records h hstart hnow hroom, Table.get?_insert] at hr
  split at hr
  · cases hr
    exact hstart
  · exact h name' r hr

theorem Since.remove (h : f.Since start) (name : String) : (f.remove name).Since start := by
  intro name' r hr
  rw [Failures.remove, Table.get?_erase] at hr
  split at hr
  · cases hr
  · exact h name' r hr

end Reconnect.Broker.Failures
