import Reconnect.Proofs.Supervisor.SingleFlight
import Mathlib.Data.List.Induction

/-!
# Conservation of connections

Every connection that a supervisor has opened has been closed, is in the slot of a client, or is
held by one call that is on its way: none is lost and none is closed twice (`Conserved`). This
holds as long as every identifier is registered once; a second registration would overwrite the
slot of the first.

A turn of a call moves connections between these places and keeps their total (`Goes.balance`). It
leans on two facts about the registry: the clients and the slots have the same keys (`Aligned`),
and the client of a registration that has not entered is new (`Expected`).
-/

namespace Reconnect.Supervisor

variable {C : Type}

/-! ## Connections in slots -/

section Slots

theorem perm_filterMap_cons {slot : Option C} {slots slots' : List (Option C)}
    (h : (slot :: slots).Perm slots') :
    (slot.toList ++ slots.filterMap id).Perm (slots'.filterMap id) := by
  have hf := h.filterMap id
  cases slot <;> exact hf

variable (s : Supervisor C)

theorem occupied_enroll {id : Identifier} (hs : s.slots.get? id = none) (slot : Option C) :
    (s.enroll id slot).occupied = s.occupied ++ slot.toList := by
  rw [occupied, Table.values, enroll, Table.entries_insert_of_get?_eq_none _ hs, List.map_append,
    List.filterMap_append]
  cases slot <;> rfl

/-- What a slot held is exchanged for what is written there. -/
theorem occupied_setSlot {id : Identifier} {old : Option C} (hs : s.slots.get? id = some old)
    (slot : Option C) :
    (old.toList ++ (s.setSlot id slot).occupied).Perm (slot.toList ++ s.occupied) := by
  refine (perm_filterMap_cons (s.slots.perm_values_insert hs)).trans ?_
  cases slot <;> exact List.Perm.refl _

/-- A client that is forgotten takes its connection along. -/
theorem occupied_withdraw (hn : s.slots.keys.Nodup) (id : Identifier) :
    ((s.slots.get? id).join.toList ++ (s.withdraw id).occupied).Perm s.occupied := by
  cases hs : s.slots.get? id with
  | none =>
    rw [withdraw, Table.erase_of_get?_eq_none _ hs]
    exact List.Perm.refl _
  | some old =>
    exact perm_filterMap_cons (s.slots.perm_values_erase hn hs)

@[simp] theorem occupied_withdrawAll : s.withdrawAll.occupied = [] := rfl

@[simp] theorem occupied_clearSlots : s.clearSlots.occupied = [] := by
  rw [occupied, List.filterMap_eq_nil_iff]
  intro slot hslot
  obtain ⟨e, he, rfl⟩ := List.mem_map.1 hslot
  obtain ⟨e', -, rfl⟩ := List.mem_map.1 he
  rfl

/-- Of the connections that are given away, those that are not in slots afterwards are left
over. -/
theorem occupied_publish (fresh : List (Identifier × C)) :
    ((s.publish fresh).2 ++ (s.publish fresh).1.occupied).Perm
      (fresh.map Prod.snd ++ s.occupied) := by
  induction fresh generalizing s with
  | nil => exact List.Perm.refl _
  | cons e rest ih =>
    rw [publish, List.map_cons]
    split
    case h_1 hs =>
      -- the connection goes from the front into the slot
      refine (ih (s.setSlot e.1 (some e.2))).trans ?_
      refine (List.Perm.append_left _ (s.occupied_setSlot hs (some e.2))).trans ?_
      exact List.perm_middle
    case h_2 => exact (ih s).cons e.2

end Slots

/-! ## Clients and slots -/

/-- The clients and the slots have the same keys, each of them once. -/
structure Aligned (s : Supervisor C) : Prop where
  keys : s.slots.keys = s.clients
  nodup : s.clients.Nodup

/-- The client whose registration enters it in this stage or the next one. -/
def Stage.enters? : Stage C → Option Identifier
  | .registerOpen id => some id
  | .registerEnter id _ => some id
  | _ => none

/-- The client that a stage is about to enter is new. -/
def Expected (s : Supervisor C) (stage : Stage C) : Prop :=
  ∀ id, stage.enters? = some id → id ∉ s.clients

namespace Aligned

variable {s : Supervisor C}

theorem get?_eq_none (h : s.Aligned) {id : Identifier} (hid : id ∉ s.clients) :
    s.slots.get? id = none := by
  rw [← h.keys, Table.mem_keys_iff, Option.not_isSome_iff_eq_none] at hid
  exact hid

theorem clients_enroll {id : Identifier} (hid : id ∉ s.clients) (slot : Option C) :
    (s.enroll id slot).clients = s.clients ++ [id] :=
  if_neg hid

theorem enroll (h : s.Aligned) {id : Identifier} (hid : id ∉ s.clients) (slot : Option C) :
    (s.enroll id slot).Aligned := by
  constructor
  · rw [clients_enroll hid, ← h.keys, Supervisor.enroll, Table.keys,
      Table.entries_insert_of_get?_eq_none _ (h.get?_eq_none hid), List.map_append]
    rfl
  · rw [clients_enroll hid, List.nodup_append]
    refine ⟨h.nodup, List.pairwise_singleton _ id, ?_⟩
    intro id' hid' id'' hid'' he
    rw [List.mem_singleton.1 hid''] at he
    exact hid (he ▸ hid')

theorem setSlot (h : s.Aligned) {id : Identifier} {old : Option C}
    (hs : s.slots.get? id = some old) (slot : Option C) : (s.setSlot id slot).Aligned :=
  ⟨(Table.keys_insert_of_get? _ hs).trans h.keys, h.nodup⟩

theorem withdraw (h : s.Aligned) (id : Identifier) : (s.withdraw id).Aligned := by
  refine ⟨?_, h.nodup.filter _⟩
  rw [Supervisor.withdraw, Table.keys_erase, h.keys]

theorem withdrawAll (s : Supervisor C) : s.withdrawAll.Aligned := ⟨rfl, List.nodup_nil⟩

theorem clearSlots (h : s.Aligned) : s.clearSlots.Aligned :=
  ⟨(Table.keys_mapValues _ _).trans h.keys, h.nodup⟩

theorem publish (h : s.Aligned) (fresh : List (Identifier × C)) :
    (s.publish fresh).1.Aligned := by
  induction fresh generalizing s with
  | nil => exact h
  | cons e rest ih =>
    rw [Supervisor.publish]
    split
    case h_1 hs => exact ih (h.setSlot hs (some e.2))
    case h_2 => exact ih h

/-- As many connections are in slots as clients have their slots filled. -/
theorem length_occupied (h : s.Aligned) :
    s.occupied.length =
      (s.clients.filter fun id => (s.slots.get? id).join.isSome).length := by
  have hentry : ∀ e ∈ s.slots.entries, (s.slots.get? e.1).join.isSome = e.2.isSome := by
    intro e he
    rw [Table.get?_of_mem_entries _ (h.keys ▸ h.nodup) he, Option.join_some]
  rw [occupied, Table.values, List.filterMap_map, List.length_filterMap_eq_countP, ← h.keys,
    ← List.countP_eq_length_filter, Table.keys, List.countP_map]
  apply List.countP_congr
  intro e he
  rw [Function.comp_apply, Function.comp_apply, hentry e he]
  rfl

end Aligned

/-! ## What one turn does -/

theorem report_closed (s : Supervisor C) (closed : List C) : (s.report closed).closed = closed := by
  rw [report]
  split <;> rfl

section Turn

variable {canceled : Bool} {s : Supervisor C} {stage : Stage C} {signal : Signal C} {t : Turn C}

theorem Goes.aligned (hg : Goes canceled s stage signal t) (h : s.Aligned)
    (he : Expected s stage) : t.supervisor.Aligned := by
  cases hg with
  | enterLate id => exact h.enroll (he id rfl) none
  | enterInTime id c => exact h.enroll (he id rfl) (some c)
  | enterEmpty id => exact h.enroll (he id rfl) none
  | reportEmpty =>
    rw [report_supervisor]
    exact ⟨h.keys, h.nodup⟩
  | take id old hr hs => exact h.setSlot hs none
  | give id c hr hs => exact h.setSlot hs (some c)
  | reportUnrenewed =>
    rw [report_supervisor]
    exact ⟨h.keys, h.nodup⟩
  | remove id => exact h.withdraw id
  | removeAll => exact .withdrawAll s
  | discard => exact h.clearSlots
  | publishAll fresh =>
    have hp := h.publish fresh
    exact ⟨hp.keys, hp.nodup⟩
  | publishSome fresh => exact h.publish fresh
  | _ => exact ⟨h.keys, h.nodup⟩

/-- A turn makes no client but the one that it enters. -/
theorem Goes.entrants (hg : Goes canceled s stage signal t) (he : Expected s stage) :
    (t.next.toList.filterMap Stage.enters? ++ t.supervisor.clients).Subperm
      (stage.enters?.toList ++ s.clients) := by
  have henter : ∀ {id slot} (next : List Identifier), id ∉ s.clients → next = [] →
      (next ++ (s.enroll id slot).clients).Subperm ([id] ++ s.clients) := by
    rintro id slot _ hid rfl
    rw [Aligned.clients_enroll hid]
    exact (List.perm_append_comm : (s.clients ++ [id]).Perm ([id] ++ s.clients)).subperm
  cases hg with
  | enterLate id => exact henter _ (he id rfl) rfl
  | enterInTime id => exact henter _ (he id rfl) rfl
  | enterEmpty id => exact henter _ (he id rfl) rfl
  | reportEmpty =>
    rw [report_next, report_supervisor]
    exact .refl _
  | reportUnrenewed =>
    rw [report_next, report_supervisor]
    exact .refl _
  | remove id => exact List.filter_sublist.subperm
  | removeAll => exact List.nil_subperm
  | publishAll fresh =>
    rw [publish_clients]
    exact .refl _
  | publishSome fresh =>
    rw [publish_clients]
    exact .refl _
  | _ => exact .refl _

/-- What is closed in a turn, is in a slot after it or is held by its call then, was opened in the
turn, was in a slot before it or was held by its call. -/
theorem Goes.balance (hg : Goes canceled s stage signal t) (h : s.Aligned)
    (he : Expected s stage) :
    (t.closed ++ (t.supervisor.occupied ++ t.next.toList.flatMap Stage.held)).Perm
      (signal.connection?.toList ++ (s.occupied ++ stage.held)) := by
  classical
  simp only [List.perm_iff_count, List.count_append]
  intro c
  cases hg with
  | enterLate id c' =>
    rw [occupied_enroll _ (h.get?_eq_none (he id rfl))]
    simp [Stage.held, Signal.connection?]
  | enterInTime id c' =>
    rw [occupied_enroll _ (h.get?_eq_none (he id rfl))]
    simp [Stage.held, Signal.connection?]
  | enterEmpty id =>
    rw [occupied_enroll _ (h.get?_eq_none (he id rfl))]
    simp [Stage.held, Signal.connection?]
  | reportEmpty => simp [Stage.held, Signal.connection?, Supervisor.occupied, report_closed]
  | take id old hr hs =>
    have hp := (occupied_setSlot s hs none).count_eq c
    simp [Stage.held, Signal.connection?] at hp ⊢
    omega
  | give id c' hr hs =>
    have hp := (occupied_setSlot s hs (some c')).count_eq c
    simp [Stage.held, Signal.connection?, List.count_cons] at hp ⊢
    omega
  | reportUnrenewed => simp [Stage.held, Signal.connection?, Supervisor.occupied, report_closed]
  | remove id =>
    have hp := (occupied_withdraw s (h.keys ▸ h.nodup) id).count_eq c
    simp [Stage.held, Signal.connection?] at hp ⊢
    omega
  | removeAll => simp [Stage.held, Signal.connection?]
  | discard => simp [Stage.held, Signal.connection?]
  | publishAll fresh =>
    have hp := (occupied_publish s fresh).count_eq c
    simp [Stage.held, Signal.connection?, Supervisor.occupied] at hp ⊢
    omega
  | publishSome fresh =>
    have hp := (occupied_publish s fresh).count_eq c
    simp [Stage.held, Signal.connection?] at hp ⊢
    omega
  | _ =>
    -- the other turns leave the slots alone: they hand on, close or take over what a call holds
    simp [Stage.held, Signal.connection?, stopRecovery, Supervisor.occupied] <;> omega

end Turn

namespace Interplay

/-! ## The invariant -/

/-- The clients whose registrations have not entered them. -/
def entrants (tasks : List (Task C)) : List Identifier :=
  tasks.filterMap (·.stage.enters?)

@[simp] theorem entrants_append (ts ts' : List (Task C)) :
    entrants (ts ++ ts') = entrants ts ++ entrants ts' :=
  List.filterMap_append

@[simp] theorem entrants_nil : entrants ([] : List (Task C)) = [] := rfl

theorem entrants_cons (t : Task C) (ts : List (Task C)) :
    entrants (t :: ts) = t.stage.enters?.toList ++ entrants ts := by
  rw [entrants, List.filterMap_cons]
  cases t.stage.enters? <;> rfl

/-- A recovery that starts enters no client. -/
theorem entrants_started (starts : Bool) (number : Nat) :
    entrants (if starts then [Task.recovery (C := C) number] else []) = [] := by
  cases starts <;> rfl

/-- The connections that calls hold. -/
def held (y : Interplay C) : List C := y.tasks.flatMap (·.stage.held)

/-- The clients that are there or on their way in are different, and among those whose registration
has begun. Every connection that was opened has been closed, is in a slot or is held by a call. -/
structure Balanced (ids : List Identifier) (y : Interplay C) : Prop where
  clients : (entrants y.tasks ++ y.supervisor.clients).Subperm ids
  aligned : y.supervisor.Aligned
  account : (y.closed ++ (y.supervisor.occupied ++ y.held)).Perm y.opened

theorem Balanced.expected {ids : List Identifier} {y : Interplay C} (h : y.Balanced ids)
    (hids : ids.Nodup) {t : Task C} (ht : t ∈ y.tasks) : Expected y.supervisor t.stage := by
  intro id hid hmem
  obtain ⟨l, hl, hsub⟩ := h.clients
  have hnodup := (hl.nodup_iff.1 (hids.sublist hsub))
  rw [List.nodup_append] at hnodup
  exact hnodup.2.2 id (List.mem_filterMap.2 ⟨t, ht, hid⟩) id hmem rfl

theorem flatMap_held_resume? {canceled : Bool} (s : Supervisor C) (t : Task C)
    (signal : Signal C) (h : t.stage.allows canceled signal = true) :
    (t.resume? canceled s signal h).toList.flatMap (·.stage.held) =
      (s.resume t.stage signal).next.toList.flatMap Stage.held := by
  rw [← Task.map_stage_resume? canceled s t signal h, List.flatMap_map]

theorem entrants_resume? {canceled : Bool} (s : Supervisor C) (t : Task C)
    (signal : Signal C) (h : t.stage.allows canceled signal = true) :
    entrants (t.resume? canceled s signal h).toList =
      (s.resume t.stage signal).next.toList.filterMap Stage.enters? := by
  rw [← Task.map_stage_resume? canceled s t signal h, List.filterMap_map]
  rfl

/-- A turn keeps the balance, and so does the start of a recovery, which holds nothing. -/
theorem Balanced.settle {ids : List Identifier} {y : Interplay C} {t : Turn C}
    {tasks : List (Task C)} (hc : (entrants tasks ++ t.supervisor.clients).Subperm ids)
    (ha : t.supervisor.Aligned)
    (hp : (y.closed ++ t.closed ++
      (t.supervisor.occupied ++ tasks.flatMap (·.stage.held))).Perm y.opened) :
    (y.settle t tasks).Balanced ids := by
  constructor
  · rw [settle_tasks, settle_supervisor, entrants_append, entrants_started, List.append_nil]
    exact hc
  · rw [settle_supervisor]
    exact ha
  · rw [settle_closed, settle_supervisor, settle_opened, held, settle_tasks, List.flatMap_append]
    cases t.startsRecovery <;> simpa [Task.recovery, Stage.held] using hp

theorem Balanced.advance {ids : List Identifier} {y : Interplay C} (h : y.Balanced ids)
    (hids : ids.Nodup) {before behind : List (Task C)} {t : Task C} {signal : Signal C}
    (ha : t.stage.allows y.canceled signal = true) (ht : y.tasks = before ++ t :: behind) :
    (y.advance before t behind signal ha).Balanced ids := by
  have hg := goes_resume y.supervisor ha
  have he := h.expected hids (ht ▸ List.mem_append_right before List.mem_cons_self)
  have hclients := h.clients
  have haccount := h.account
  rw [held] at haccount
  rw [ht] at hclients haccount
  refine Balanced.settle ?_ (hg.aligned h.aligned he) ?_
  · -- the turn exchanges its own client for what it leaves of it
    refine List.Subperm.trans ?_ hclients
    rw [List.subperm_ext_iff]
    intro id _
    have hturn := (hg.entrants he).count_le id
    rw [← entrants_resume? (h := ha)] at hturn
    simp only [entrants_append, entrants_cons, List.count_append] at hturn ⊢
    omega
  · classical
    rw [List.perm_iff_count] at haccount ⊢
    intro c
    have hbalance := (hg.balance h.aligned he).count_eq c
    have hcount := haccount c
    rw [← flatMap_held_resume? (h := ha)] at hbalance
    simp [List.flatMap_append] at hbalance hcount ⊢
    omega

/-- The client that a call registers. -/
def registers? : Call → Option Identifier
  | .register id => some id
  | _ => none

/-- The clients that moves register, in order. -/
def registered : List (Move C) → List Identifier
  | [] => []
  | .begin call :: rest => (registers? call).toList ++ registered rest
  | _ :: rest => registered rest

theorem registered_append (moves moves' : List (Move C)) :
    registered (moves ++ moves') = registered moves ++ registered moves' := by
  induction moves with
  | nil => rfl
  | cons m rest ih => cases m <;> simp [registered, ih]

theorem Balanced.begin {ids : List Identifier} {y : Interplay C} (h : y.Balanced ids) {call : Call}
    {t : Task C} (ht : call.first? = some t) :
    { y with tasks := y.tasks ++ [t] }.Balanced (ids ++ (registers? call).toList) := by
  -- a call holds nothing before its first stage, and enters the client that it registers
  obtain ⟨henters, hheld⟩ : t.stage.enters? = registers? call ∧ t.stage.held = [] := by
    cases call <;> cases ht <;> exact ⟨rfl, rfl⟩
  refine ⟨?_, h.aligned, ?_⟩
  · rw [List.subperm_ext_iff]
    intro id _
    have hle := h.clients.count_le id
    simp only [entrants_append, entrants_cons, entrants_nil, henters, List.append_nil,
      List.count_append] at hle ⊢
    omega
  · have hp := h.account
    rw [held] at hp ⊢
    rw [List.flatMap_append]
    simpa [hheld] using hp

theorem Balanced.step {ids : List Identifier} {y : Interplay C} (h : y.Balanced ids)
    (hids : ids.Nodup) (m : Move C) : (y.step m).Balanced (ids ++ registered [m]) := by
  cases m with
  | begin call =>
    simp only [registered, List.append_nil, Interplay.step]
    cases hf : call.first? (C := C) with
    | some t => exact h.begin hf
    | none =>
      have hnone : registers? call = none := by
        cases call <;> cases hf
        rfl
      rw [hnone]
      simpa using h
  | report =>
    simp only [registered, List.append_nil]
    refine Balanced.settle ?_ ?_ ?_
    · rw [report_supervisor]
      exact h.clients
    · rw [report_supervisor]
      exact ⟨h.aligned.keys, h.aligned.nodup⟩
    · rw [report_closed, report_supervisor, List.append_nil]
      exact h.account
  | go place signal =>
    simp only [registered, List.append_nil]
    exact step_go_cases y place signal h fun _ _ _ ha ht => h.advance hids ha ht
  | cancel =>
    simp only [registered, List.append_nil]
    exact ⟨h.clients, h.aligned, h.account⟩

/-- If every client is registered once, connections balance at every moment. -/
theorem balanced_run (moves : List (Move C)) (h : (registered moves).Nodup) :
    (run moves).Balanced (registered moves) := by
  induction moves using List.reverseRecOn with
  | nil => exact ⟨.refl _, .withdrawAll {}, .refl _⟩
  | append_singleton moves m ih =>
    rw [registered_append] at h ⊢
    have hids := h.sublist (List.sublist_append_left _ _)
    rw [run, List.foldl_append]
    exact (ih hids).step hids m

/-! ## Conservation -/

/-- Where the connections of an interplay are. -/
structure Conserved (y : Interplay C) : Prop where
  /-- Every connection that was opened has been closed, is in the slot of a client, or is held by a
  call, and no other connection is there. -/
  account : (y.closed ++ (y.supervisor.occupied ++ y.held)).Perm y.opened
  /-- As many connections were opened as were closed, as slots of clients are filled and as calls
  hold, taken together. -/
  number : y.opened.length = y.closed.length +
    (y.supervisor.clients.filter fun id => (y.supervisor.slots.get? id).join.isSome).length +
      y.held.length
  /-- If the connections that were opened are different, each of them is in one place, and none has
  been closed twice. -/
  once : y.opened.Nodup → (y.closed ++ (y.supervisor.occupied ++ y.held)).Nodup
  /-- The registered clients are those with slots, each of them once. -/
  keys : y.supervisor.slots.keys = y.supervisor.clients ∧ y.supervisor.clients.Nodup
  /-- When nothing is on its way, the connections that were opened and not closed are those of the
  clients that have one. -/
  idle : y.tasks = [] → y.opened.length = y.closed.length +
    (y.supervisor.clients.filter fun id => (y.supervisor.connection? id).isSome).length

theorem Balanced.number {ids : List Identifier} {y : Interplay C} (h : y.Balanced ids) :
    y.opened.length = y.closed.length +
      (y.supervisor.clients.filter fun id => (y.supervisor.slots.get? id).join.isSome).length +
        y.held.length := by
  rw [← h.account.length_eq, List.length_append, List.length_append, h.aligned.length_occupied,
    Nat.add_assoc]

/-- If every client is registered once, no connection is lost and none is closed twice, whatever
the calls and the network do. -/
theorem conserved_run (moves : List (Move C)) (h : (registered moves).Nodup) :
    (run moves).Conserved := by
  have hb := balanced_run moves h
  refine ⟨hb.account, hb.number, fun ho => hb.account.nodup_iff.2 ho,
    ⟨hb.aligned.keys, hb.aligned.nodup⟩, ?_⟩
  intro ht
  -- no task has the mark of a recovery to take back, so what is in a slot can be worked on
  have hr : (run moves).supervisor.recovering = false := by
    have hm := marked_run moves
    rw [Marked, ht] at hm
    cases hr : (run moves).supervisor.recovering with
    | false => rfl
    | true =>
      rw [hr] at hm
      cases hm
  simpa [connection?, hr, held, ht] using hb.number

/-- Two clients, the second of which registers while a recovery of the first one begins. -/
theorem conserved_two_clients :
    let moves : List (Move Nat) :=
      [.begin (.register ⟨1⟩), .go 0 (.opened 10), .go 0 .go, .begin (.register ⟨2⟩),
        .go 0 (.opened 11), .report, .go 0 .go, .go 0 .go, .go 0 .go, .go 0 .go, .go 0 .go,
        .go 0 .go, .go 0 (.opened 12), .go 0 .go, .go 0 .go, .go 0 .go, .go 0 (.opened 13),
        .go 0 (.opened 14), .go 0 .go, .go 0 .go, .go 0 .go, .go 0 .go]
    (registered moves).Nodup ∧ (run moves).closed = [11, 10, 12] ∧ (run moves).Conserved :=
  ⟨by decide, by decide, conserved_run _ (by decide)⟩

/-- A second registration of one client overwrites a connection that nobody closes. -/
example :
    ¬ (run (C := Nat)
      [.begin (.register ⟨1⟩), .go 0 (.opened 10), .go 0 .go, .begin (.register ⟨1⟩),
        .go 0 (.opened 11), .go 0 .go]).Conserved := by
  intro h
  exact absurd h.number (by decide)

end Interplay

end Reconnect.Supervisor
