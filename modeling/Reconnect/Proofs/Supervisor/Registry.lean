import Reconnect.Proofs.Table
import Reconnect.Supervisor.Registry

/-!
# What the steps of a registry leave

For each step of a registry: which slot every client has afterwards, and that the marks and counts
of the supervisor stay. The clients of a consistent registry are exactly those with a slot
(`Consistent`), and every step keeps it so.
-/

namespace Reconnect.Supervisor

variable {C : Type} (s : Supervisor C)

@[simp] theorem get?_enroll (id id' : Identifier) (slot : Option C) :
    (s.enroll id slot).slots.get? id' = if id' = id then some slot else s.slots.get? id' :=
  Table.get?_insert s.slots id id' slot

@[simp] theorem get?_setSlot (id id' : Identifier) (slot : Option C) :
    (s.setSlot id slot).slots.get? id' = if id' = id then some slot else s.slots.get? id' :=
  Table.get?_insert s.slots id id' slot

@[simp] theorem get?_withdraw (id id' : Identifier) :
    (s.withdraw id).slots.get? id' = if id' = id then none else s.slots.get? id' :=
  Table.get?_erase s.slots id id'

@[simp] theorem get?_withdrawAll (id : Identifier) : s.withdrawAll.slots.get? id = none := rfl

@[simp] theorem get?_clearSlots (id : Identifier) :
    s.clearSlots.slots.get? id = (s.slots.get? id).map fun _ => none :=
  Table.get?_mapValues s.slots (fun _ => none) id

/-- Giving connections away changes nothing but slots. -/
theorem publish_eq (fresh : List (Identifier × C)) :
    (s.publish fresh).1 = { s with slots := (s.publish fresh).1.slots } := by
  induction fresh generalizing s with
  | nil => rfl
  | cons e rest ih =>
    rw [publish]
    split
    · rw [ih (s.setSlot e.1 (some e.2))]
      rfl
    · exact ih s

@[simp] theorem publish_clients (fresh : List (Identifier × C)) :
    (s.publish fresh).1.clients = s.clients := by
  rw [publish_eq]

@[simp] theorem publish_recovering (fresh : List (Identifier × C)) :
    (s.publish fresh).1.recovering = s.recovering := by
  rw [publish_eq]

@[simp] theorem publish_cycles (fresh : List (Identifier × C)) :
    (s.publish fresh).1.cycles = s.cycles := by
  rw [publish_eq]

@[simp] theorem publish_generation (fresh : List (Identifier × C)) :
    (s.publish fresh).1.generation = s.generation := by
  rw [publish_eq]

/-- Giving connections away fills slots; it makes and drops none. -/
theorem isSome_get?_publish (fresh : List (Identifier × C)) (id : Identifier) :
    ((s.publish fresh).1.slots.get? id).isSome = (s.slots.get? id).isSome := by
  induction fresh generalizing s with
  | nil => rfl
  | cons e rest ih =>
    rw [publish]
    split
    -- the slot that is filled was there, though empty
    case h_1 hs =>
      rw [ih, get?_setSlot]
      split
      case isTrue he =>
        rw [he, hs]
        rfl
      case isFalse => rfl
    case h_2 => exact ih s

/-- In a full registry no client waits. -/
theorem ne_of_isFull {s : Supervisor C} (hf : s.isFull = true) (id : Identifier) :
    s.slots.get? id ≠ some none := by
  intro hs
  have h := List.all_eq_true.1 hf none (Table.mem_values_of_get? hs)
  cases h

/-- The registered clients are those that have a slot. -/
def Consistent (s : Supervisor C) : Prop :=
  ∀ id, id ∈ s.clients ↔ (s.slots.get? id).isSome = true

variable {s}

theorem Consistent.enroll (h : s.Consistent) (id : Identifier) (slot : Option C) :
    (s.enroll id slot).Consistent := by
  intro id'
  rw [get?_enroll, Supervisor.enroll]
  by_cases he : id' = id
  · subst he
    by_cases hm : id' ∈ s.clients <;> simp [hm]
  · by_cases hm : id ∈ s.clients <;> simp [hm, he, h id']

theorem Consistent.setSlot (h : s.Consistent) {id : Identifier} {old : Option C}
    (hs : s.slots.get? id = some old) (slot : Option C) : (s.setSlot id slot).Consistent := by
  intro id'
  rw [get?_setSlot]
  by_cases he : id' = id
  · subst he
    simp [Supervisor.setSlot, h id', hs]
  · simp [Supervisor.setSlot, h id', he]

theorem Consistent.withdraw (h : s.Consistent) (id : Identifier) :
    (s.withdraw id).Consistent := by
  intro id'
  rw [get?_withdraw]
  by_cases he : id' = id <;> simp [Supervisor.withdraw, h id', he]

theorem consistent_withdrawAll (s : Supervisor C) : s.withdrawAll.Consistent := by
  intro id
  rw [get?_withdrawAll]
  simp [withdrawAll]

theorem Consistent.clearSlots (h : s.Consistent) : s.clearSlots.Consistent := by
  intro id
  rw [get?_clearSlots, Option.isSome_map]
  exact h id

theorem Consistent.publish (h : s.Consistent) (fresh : List (Identifier × C)) :
    (s.publish fresh).1.Consistent := by
  intro id
  rw [publish_clients, isSome_get?_publish]
  exact h id

end Reconnect.Supervisor
