import Reconnect.Proofs.Supervisor.Conservation
import Reconnect.Proofs.Supervisor.Coverage

/-!
# The dismissal of a supervisor

A supervisor is dismissed by the removal of all its clients, after which their connections and the
transport are closed. Registrations, renewals and recoveries may be on their way all the while.
What a renewal or a recovery opens finds its slot gone and is closed; a registration makes its slot
anew. So whatever is left behind belongs to a latecomer, a client that had not been entered when all
clients were removed (`dismissed_run`). Without latecomers nothing is left, and once nothing is on
its way, every connection has been closed. `open_after_late_registration` has a latecomer.
-/

namespace Reconnect.Supervisor

variable {C : Type}

section Turn

variable {canceled : Bool} {s : Supervisor C} {stage next : Stage C} {signal : Signal C}
  {t : Turn C} {id : Identifier}

theorem eq_or_mem_of_mem_enroll {id' : Identifier} {slot : Option C}
    (h : id ∈ (s.enroll id' slot).clients) : id ∈ s.clients ∨ id' = id := by
  unfold enroll at h
  dsimp only at h
  split at h
  · exact .inl h
  · exact (List.mem_append.1 h).imp_right fun h => (List.mem_singleton.1 h).symm

/-- A turn makes nobody a client but the one that its stage enters. -/
theorem Goes.mem_clients (hg : Goes canceled s stage signal t) (hid : id ∈ t.supervisor.clients) :
    id ∈ s.clients ∨ stage.enters? = some id := by
  have henter : ∀ {id' slot}, id ∈ (s.enroll id' slot).clients →
      id ∈ s.clients ∨ (some id' : Option Identifier) = some id :=
    fun h => (eq_or_mem_of_mem_enroll h).imp_right (congrArg some)
  cases hg with
  | enterLate => exact henter hid
  | enterInTime => exact henter hid
  | enterEmpty => exact henter hid
  | reportEmpty =>
    rw [report_supervisor] at hid
    exact .inl hid
  | reportUnrenewed =>
    rw [report_supervisor] at hid
    exact .inl hid
  | remove => exact .inl (List.mem_filter.1 hid).1
  | removeAll => exact absurd hid List.not_mem_nil
  | publishAll =>
    rw [publish_clients] at hid
    exact .inl hid
  | publishSome =>
    rw [publish_clients] at hid
    exact .inl hid
  | _ => exact .inl hid

/-- A call that is about to enter a client was so before its last turn. -/
theorem Goes.enters_of_next (hg : Goes canceled s stage signal t) (hn : t.next = some next)
    (hid : next.enters? = some id) : stage.enters? = some id := by
  cases hg
  all_goals
    simp only [report_next, stopRecovery, Option.some.injEq, reduceCtorEq] at hn
  all_goals
    subst hn
    first
      | exact hid
      | cases hid

end Turn

namespace Interplay

/-- Whether all clients that are there or on their way in are among given ones. -/
def Harbours (y : Interplay C) (ids : List Identifier) : Prop :=
  ∀ id ∈ y.supervisor.clients ++ entrants y.tasks, id ∈ ids

namespace Harbours

variable {y : Interplay C} {ids : List Identifier}

theorem settle {t : Turn C} {tasks : List (Task C)} (hc : ∀ id ∈ t.supervisor.clients, id ∈ ids)
    (ht : ∀ id ∈ entrants tasks, id ∈ ids) : (y.settle t tasks).Harbours ids := by
  intro id hid
  rw [settle_supervisor, settle_tasks, entrants_append, entrants_started, List.append_nil] at hid
  exact (List.mem_append.1 hid).elim (hc id) (ht id)

/-- After a turn the clients are those from before, apart from the one that was on its way in. -/
theorem advance {before behind : List (Task C)} {t : Task C} {signal : Signal C}
    (h : y.Harbours ids) (ha : t.stage.allows y.canceled signal = true)
    (ht : y.tasks = before ++ t :: behind) :
    (y.advance before t behind signal ha).Harbours ids := by
  have hg := goes_resume y.supervisor ha
  have hclient : ∀ id ∈ y.supervisor.clients, id ∈ ids :=
    fun id hid => h id (List.mem_append_left _ hid)
  have hentrant : ∀ t' ∈ y.tasks, ∀ id, t'.stage.enters? = some id → id ∈ ids :=
    fun t' ht' id hid => h id (List.mem_append_right _ (List.mem_filterMap.2 ⟨t', ht', hid⟩))
  have hself : t ∈ y.tasks := ht ▸ List.mem_append_right before List.mem_cons_self
  refine settle (fun id hid => ?_) fun id hid => ?_
  · exact (hg.mem_clients hid).elim (hclient id) (hentrant t hself id)
  · obtain ⟨t', ht', henters⟩ := List.mem_filterMap.1 hid
    rw [List.mem_append, List.mem_append] at ht'
    -- only the call that took the turn has another stage
    rcases ht' with (hbefore | hnext) | hbehind
    · exact hentrant t' (ht ▸ List.mem_append_left _ hbefore) id henters
    · have hstage : t'.stage ∈ (y.supervisor.resume t.stage signal).next.toList := by
        rw [← Task.map_stage_resume? y.canceled y.supervisor t signal ha]
        exact List.mem_map_of_mem hnext
      exact hentrant t hself id (hg.enters_of_next (Option.mem_toList.1 hstage) henters)
    · exact hentrant t' (ht ▸ List.mem_append_right _ (List.mem_cons_of_mem t hbehind)) id henters

/-- Only a registration that begins brings a client that was not expected. -/
theorem step (h : y.Harbours ids) (m : Move C) : (y.step m).Harbours (ids ++ registered [m]) := by
  cases m with
  | begin call =>
    intro id hid
    have hfirst : ∀ t, call.first? (C := C) = some t → t.stage.enters? = registers? call := by
      intro t ht
      cases call <;> cases ht <;> rfl
    simp only [registered, List.append_nil, List.mem_append]
    simp only [Interplay.step, entrants_append, ← List.append_assoc] at hid
    rw [List.mem_append] at hid
    refine hid.imp (h id) fun hnew => ?_
    cases hf : call.first? (C := C) with
    | none =>
      rw [hf] at hnew
      cases hnew
    | some t =>
      rw [hf, Option.toList_some, entrants_cons, entrants_nil, List.append_nil, hfirst t hf] at hnew
      exact hnew
  | report =>
    simp only [registered, List.append_nil]
    refine settle (fun id hid => ?_) fun id hid => h id (List.mem_append_right _ hid)
    rw [report_supervisor] at hid
    exact h id (List.mem_append_left _ hid)
  | go place signal =>
    simp only [registered, List.append_nil]
    exact step_go_cases (P := fun y => y.Harbours ids) y place signal h
      fun _ _ _ ha ht => h.advance ha ht
  | cancel =>
    simp only [registered, List.append_nil]
    exact h

theorem foldl (h : y.Harbours ids) (moves : List (Move C)) :
    (moves.foldl Interplay.step y).Harbours (ids ++ registered moves) := by
  induction moves generalizing y ids with
  | nil =>
    rw [registered, List.append_nil]
    exact h
  | cons m rest ih =>
    have hrest := ih (h.step m)
    rw [List.append_assoc, ← registered_append] at hrest
    exact hrest

/-- When all clients have been removed, only those on their way in are left. -/
theorem removeAll {place : Nat} {shut : Bool}
    (h : y.tasks[place]?.map Task.stage = some (.removeAll shut)) :
    (y.step (.go place .go)).Harbours (entrants y.tasks) := by
  obtain ⟨t, ht, hstage⟩ := Option.map_eq_some_iff.1 h
  obtain ⟨hlt, rfl⟩ := List.getElem?_eq_some_iff.1 ht
  have ha : y.tasks[place].stage.allows y.canceled .go = true := by
    rw [hstage]
    rfl
  -- the removal is no entrant, and its next stage is none either
  have hsplit : y.tasks = y.tasks.take place ++ y.tasks[place] :: y.tasks.drop (place + 1) := by
    rw [List.getElem_cons_drop, List.take_append_drop]
  have hgo := step_go hsplit ha
  rw [List.length_take_of_le (Nat.le_of_lt hlt)] at hgo
  rw [hgo]
  refine settle (fun id hid => ?_) fun id hid => ?_
  · rw [hstage] at hid
    exact absurd hid List.not_mem_nil
  · rw [entrants_append, entrants_append, entrants_resume?, hstage, List.append_assoc] at hid
    rw [hsplit, entrants_append, entrants_cons, hstage]
    exact hid

end Harbours

/-- What a supervisor leaves behind that has been dismissed. -/
structure Dismissed (latecomers : List Identifier) (y : Interplay C) : Prop where
  /-- Every registered client is a latecomer. -/
  clients : ∀ id ∈ y.supervisor.clients, id ∈ latecomers
  /-- So is every client with a connection. -/
  slots : ∀ id c, y.supervisor.slots.get? id = some (some c) → id ∈ latecomers
  /-- Every other connection that was opened has been closed, or is held by a call on its way. -/
  account : (y.closed ++ (y.supervisor.occupied ++ y.held)).Perm y.opened
  /-- Without latecomers no client is registered, and a connection that is not closed is held by a
  call on its way. -/
  alone : latecomers = [] →
    y.supervisor.clients = [] ∧ (y.closed ++ y.held).Perm y.opened
  /-- Without latecomers every connection has been closed once no call is on its way. -/
  idle : latecomers = [] → y.tasks = [] → y.closed.Perm y.opened

/-- From the removal of all clients on, only those are left behind whose registrations had not
entered them by then. -/
theorem dismissed_run (before after : List (Move C)) {place : Nat} {shut : Bool}
    (hr : (run before).tasks[place]?.map Task.stage = some (.removeAll shut))
    (hn : (registered (before ++ .go place .go :: after)).Nodup) :
    (run (before ++ .go place .go :: after)).Dismissed
      (entrants (run before).tasks ++ registered after) := by
  have hrun : run (before ++ .go place .go :: after) =
      after.foldl step ((run before).step (.go place .go)) := List.foldl_append
  have hharbours : (run (before ++ .go place .go :: after)).Harbours
      (entrants (run before).tasks ++ registered after) := by
    rw [hrun]
    exact (Harbours.removeAll hr).foldl after
  have hconsistent := (covered_run (before ++ .go place .go :: after)).consistent
  have hbalanced := balanced_run _ hn
  generalize run (before ++ .go place .go :: after) = y at hharbours hconsistent hbalanced ⊢
  have hclients : ∀ id ∈ y.supervisor.clients,
      id ∈ entrants (run before).tasks ++ registered after :=
    fun id hid => hharbours id (List.mem_append_left _ hid)
  have halone : entrants (run before).tasks ++ registered after = [] →
      y.supervisor.clients = [] ∧ (y.closed ++ y.held).Perm y.opened := by
    intro hnone
    have hempty : y.supervisor.clients = [] := by
      rw [List.eq_nil_iff_forall_not_mem]
      intro id hid
      have hlate := hclients id hid
      rw [hnone] at hlate
      cases hlate
    -- where there are no clients there are no slots
    have hslots : y.supervisor.occupied = [] := by
      rw [← List.length_eq_zero_iff, hbalanced.aligned.length_occupied, hempty]
      rfl
    have haccount := hbalanced.account
    rw [hslots, List.nil_append] at haccount
    exact ⟨hempty, haccount⟩
  refine ⟨hclients, fun id c hs => hclients id ?_, hbalanced.account, halone, fun hnone ht => ?_⟩
  · rw [hconsistent, hs]
    rfl
  · have haccount := (halone hnone).2
    rw [held, ht, List.flatMap_nil, List.append_nil] at haccount
    exact haccount

/-- A client is removed while its connection is renewed: the renewal closes what it opens. -/
theorem dismissed_during_renewal :
    let before : List (Move Nat) :=
      [.begin (.register ⟨1⟩), .go 0 (.opened 10), .go 0 .go, .begin (.register ⟨2⟩),
        .go 0 (.opened 11), .go 0 .go, .begin (.renew ⟨1⟩), .go 0 .go, .go 0 .go,
        .begin (.removeAll true)]
    let after : List (Move Nat) :=
      [.go 0 (.opened 12), .go 0 .go, .go 0 .go, .go 0 .go, .go 0 .go]
    let y := run (before ++ .go 1 .go :: after)
    (run before).tasks[1]?.map Task.stage = some (.removeAll true) ∧
      (registered (before ++ .go 1 .go :: after)).Nodup ∧ y.opened = [10, 11, 12] ∧
        y.tasks.length = 0 ∧ y.Dismissed [] := by
  intro before after y
  have hr : (run before).tasks[1]?.map Task.stage = some (.removeAll true) := by decide
  have hn : (registered (before ++ .go 1 .go :: after)).Nodup := by decide
  have hnone : entrants (run before).tasks ++ registered after = [] := by decide
  have hd := dismissed_run before after hr hn
  rw [hnone] at hd
  exact ⟨hr, hn, by decide, by decide, hd⟩

/-- A registration that opened its connection before all clients were removed enters its client
after that: nothing is on its way any more, and the connection stays open. -/
theorem open_after_late_registration :
    ∃ (before after : List (Move Nat)) (place : Nat),
      (run before).tasks[place]?.map Task.stage = some (.removeAll true) ∧ registered after = [] ∧
        (run (before ++ .go place .go :: after)).tasks.length = 0 ∧
          (run (before ++ .go place .go :: after)).supervisor.clients = [⟨1⟩] ∧
            (run (before ++ .go place .go :: after)).opened = [10] ∧
              (run (before ++ .go place .go :: after)).closed = [] :=
  ⟨[.begin (.register ⟨1⟩), .go 0 (.opened 10), .begin (.removeAll true)],
    [.go 1 .go, .go 1 .go, .go 0 .go], 1, by decide, by decide, by decide, by decide, by decide,
    by decide⟩

end Interplay

end Reconnect.Supervisor
