import Reconnect.Proofs.Supervisor.Rules

/-!
# The interplay of the calls of a supervisor

Any number of calls of one supervisor are on their way at the same time. Between two stages of one
call, stages of other calls may run; a stage goes on with any signal that it allows, so an attempt
to open or to ask a connection may succeed or fail at any time. A recovery is started by a report of
a network failure only. Calls run to their end.

`Interplay.run` replays a list of moves. `Interplay.step_cases` says what one move can do and
`Interplay.run_induction` carries an invariant through a run: every property of the interplay is
derived from these two.

An interplay also keeps books that no call reads: which milestones each recovery has passed, and
which connections were opened and closed.
-/

namespace Reconnect.Supervisor

variable {C : Type}

/-! ## Calls under way -/

/-- A call of a supervisor. -/
inductive Call where
  | register (id : Identifier)
  | renew (id : Identifier)
  | remove (id : Identifier)
  /-- Removal of all clients; `shut` tells whether the transport is closed after them. -/
  | removeAll (shut : Bool)
  /-- The recovery of a number: how many recoveries were started before it. -/
  | recovery (number : Nat)
  deriving DecidableEq, Repr

/-- Whether a stage is one of a call. -/
def Call.Runs : Call → Stage C → Prop
  | .register id, .registerOpen id' => id' = id
  | .register id, .registerEnter id' _ => id' = id
  | .register _, .registerReport _ => True
  | .renew id, .renewTake id' => id' = id
  | .renew id, .renewClose id' _ => id' = id
  | .renew id, .renewOpen id' => id' = id
  | .renew id, .renewGive id' _ => id' = id
  | .renew _, .renewReport _ => True
  | .remove id, .remove id' => id' = id
  | .remove _, .removeClose _ shut => shut = false
  | .removeAll shut, .removeAll shut' => shut' = shut
  | .removeAll shut, .removeClose _ shut' => shut' = shut
  | .removeAll shut, .removeShut => shut = true
  | .recovery _, stage => stage.ofRecovery = true
  | _, _ => False

/-- A call before one of its stages. -/
structure Task (C : Type) where
  call : Call
  stage : Stage C
  runs : call.Runs stage

/-- A call before its first stage. A recovery does not begin this way. -/
def Call.first? : Call → Option (Task C)
  | .register id => some ⟨.register id, .registerOpen id, rfl⟩
  | .renew id => some ⟨.renew id, .renewTake id, rfl⟩
  | .remove id => some ⟨.remove id, .remove id, rfl⟩
  | .removeAll shut => some ⟨.removeAll shut, .removeAll shut, rfl⟩
  | .recovery _ => none

/-- A recovery before its first stage. -/
def Task.recovery (number : Nat) : Task C := ⟨.recovery number, .recover, rfl⟩

/-- The next stage of a call is one of that call. -/
theorem Goes.runs {canceled : Bool} {s : Supervisor C} {call : Call} {stage next : Stage C}
    {signal : Signal C} {t : Turn C} (hg : Goes canceled s stage signal t)
    (hr : call.Runs stage) (hn : t.next = some next) : call.Runs next := by
  cases hg
  all_goals
    simp only [report_next, stopRecovery, Option.some.injEq, reduceCtorEq] at hn
  -- the turns that end their call are gone; each other one names its next stage
  all_goals
    subst hn
    cases call <;> simp_all [Call.Runs, Stage.ofRecovery]

/-- The call of a task before its next stage, if it has one. -/
def Task.resume? (canceled : Bool) (s : Supervisor C) (t : Task C) (signal : Signal C)
    (ha : t.stage.allows canceled signal = true) : Option (Task C) :=
  (s.resume t.stage signal).next.pmap (fun next hr => ⟨t.call, next, hr⟩)
    fun _ hn => (goes_resume s ha).runs t.runs hn

@[simp] theorem Task.map_stage_resume? (canceled : Bool) (s : Supervisor C) (t : Task C)
    (signal : Signal C) (ha : t.stage.allows canceled signal = true) :
    (t.resume? canceled s signal ha).toList.map Task.stage =
      (s.resume t.stage signal).next.toList := by
  rw [← Option.toList_map, resume?, Option.map_pmap, Option.pmap_eq_map, Option.map_id']

theorem Task.call_of_mem_resume? {canceled : Bool} {s : Supervisor C} {t t' : Task C}
    {signal : Signal C} {ha : t.stage.allows canceled signal = true}
    (h : t' ∈ (t.resume? canceled s signal ha).toList) : t'.call = t.call := by
  rw [Option.mem_toList, resume?, Option.pmap_eq_some_iff] at h
  obtain ⟨next, -, -, rfl⟩ := h
  rfl

theorem Task.exists_mem_resume? {canceled : Bool} {s : Supervisor C} {t : Task C}
    {signal : Signal C} (ha : t.stage.allows canceled signal = true) {next : Stage C}
    (hn : (s.resume t.stage signal).next = some next) :
    ∃ t' ∈ (t.resume? canceled s signal ha).toList, t'.call = t.call ∧ t'.stage = next := by
  refine ⟨⟨t.call, next, (goes_resume s ha).runs t.runs hn⟩, ?_, rfl, rfl⟩
  rw [Option.mem_toList, resume?, Option.pmap_eq_some_iff]
  exact ⟨next, (goes_resume s ha).runs t.runs hn, hn, rfl⟩

theorem Call.Runs.ofRecovery_iff {call : Call} {stage : Stage C} (h : call.Runs stage) :
    stage.ofRecovery = true ↔ ∃ number, call = .recovery number := by
  cases call <;> cases stage <;> simp_all [Call.Runs, Stage.ofRecovery]

/-! ## Milestones of a recovery -/

/-- What a recovery passes on its way. -/
inductive Milestone where
  /-- A report started it. -/
  | started
  /-- It took its first turn. -/
  | begun
  /-- It gave every client a connection. -/
  | republished
  /-- It ended because the supervisor was stopped. -/
  | stopped
  /-- It announced that the clients have connections again. -/
  | announced
  deriving DecidableEq, Repr

/-- The milestone that a stage passes with a signal. -/
def milestone? (s : Supervisor C) : Stage C → Signal C → Option Milestone
  | .recover, .go => some .begun
  | .probe, .stopped => some .stopped
  | .pause, .stopped => some .stopped
  | .republishGive fresh, .go =>
    if (s.publish fresh).1.isFull then some .republished else none
  | .announce, .go => some .announced
  | _, _ => none

/-- The number and the milestone that a task passes, if it is a recovery. -/
def Task.milestone? (s : Supervisor C) (t : Task C) (signal : Signal C) :
    Option (Nat × Milestone) :=
  match t.call with
  | .recovery number => (Supervisor.milestone? s t.stage signal).map fun m => (number, m)
  | _ => none

/-- The milestones of the recovery of a number in a log. -/
def milestonesIn (number : Nat) (log : List (Nat × Milestone)) : List Milestone :=
  (log.filter (·.1 = number)).map Prod.snd

/-- The numbers of the recoveries that pass a milestone in a log. -/
def numbersIn (m : Milestone) (log : List (Nat × Milestone)) : List Nat :=
  (log.filter (·.2 = m)).map Prod.fst

/-- The stages of the recovery of a number among tasks. -/
def stagesIn (number : Nat) (tasks : List (Task C)) : List (Stage C) :=
  (tasks.filter (·.call = .recovery number)).map Task.stage

@[simp] theorem milestonesIn_append (number : Nat) (log log' : List (Nat × Milestone)) :
    milestonesIn number (log ++ log') = milestonesIn number log ++ milestonesIn number log' := by
  rw [milestonesIn, List.filter_append, List.map_append]
  rfl

@[simp] theorem numbersIn_append (m : Milestone) (log log' : List (Nat × Milestone)) :
    numbersIn m (log ++ log') = numbersIn m log ++ numbersIn m log' := by
  rw [numbersIn, List.filter_append, List.map_append]
  rfl

theorem length_numbersIn (m : Milestone) (log : List (Nat × Milestone)) :
    (numbersIn m log).length = (log.map Prod.snd).count m := by
  rw [numbersIn, List.length_map, ← List.countP_eq_length_filter, List.count, List.countP_map]
  apply List.countP_congr
  intro e _
  simp

theorem count_numbersIn (m : Milestone) (log : List (Nat × Milestone)) (number : Nat) :
    (numbersIn m log).count number = (milestonesIn number log).count m := by
  rw [numbersIn, milestonesIn, List.count, List.count, List.countP_map, List.countP_map,
    List.countP_filter, List.countP_filter]
  apply List.countP_congr
  intro e _
  simp [and_comm]

@[simp] theorem stagesIn_append (number : Nat) (ts ts' : List (Task C)) :
    stagesIn number (ts ++ ts') = stagesIn number ts ++ stagesIn number ts' := by
  rw [stagesIn, List.filter_append, List.map_append]
  rfl

theorem stagesIn_cons (number : Nat) (t : Task C) (ts : List (Task C)) :
    stagesIn number (t :: ts) =
      (if t.call = .recovery number then [t.stage] else []) ++ stagesIn number ts := by
  by_cases h : t.call = .recovery number <;> simp [stagesIn, h]

@[simp] theorem stagesIn_recovery (number started : Nat) :
    stagesIn (C := C) number [.recovery started] =
      if started = number then [.recover] else [] := by
  rw [stagesIn_cons, Task.recovery]
  by_cases h : started = number <;> simp [stagesIn, h]

theorem stagesIn_resume? {canceled : Bool} (s : Supervisor C) (t : Task C) (signal : Signal C)
    (ha : t.stage.allows canceled signal = true) (number : Nat) :
    stagesIn number (t.resume? canceled s signal ha).toList =
      if t.call = .recovery number then (s.resume t.stage signal).next.toList else [] := by
  rw [stagesIn, ← Task.map_stage_resume? canceled s t signal ha]
  split
  case isTrue hc =>
    rw [List.filter_eq_self.2]
    intro t' ht
    simp [Task.call_of_mem_resume? ht, hc]
  case isFalse hc =>
    rw [List.filter_eq_nil_iff.2]
    · rfl
    · intro t' ht
      simp [Task.call_of_mem_resume? ht, hc]

theorem milestone?_of_not_ofRecovery {s : Supervisor C} {stage : Stage C} {signal : Signal C}
    (hr : stage.ofRecovery = false) : milestone? s stage signal = none := by
  unfold milestone?
  split <;> simp_all [Stage.ofRecovery]

/-- Only recoveries pass milestones. -/
theorem Task.map_snd_milestone? (s : Supervisor C) (t : Task C) (signal : Signal C) :
    (t.milestone? s signal).map Prod.snd = Supervisor.milestone? s t.stage signal := by
  rw [Task.milestone?]
  split
  case h_1 => rw [Option.map_map, Function.comp_def, Option.map_id']
  case h_2 hc =>
    rw [milestone?_of_not_ofRecovery]
    · rfl
    · rw [← Bool.not_eq_true, t.runs.ofRecovery_iff]
      rintro ⟨number, hn⟩
      exact hc number hn

theorem milestonesIn_milestone? (s : Supervisor C) (t : Task C) (signal : Signal C)
    (number : Nat) :
    milestonesIn number (t.milestone? s signal).toList =
      if t.call = .recovery number then (Supervisor.milestone? s t.stage signal).toList
      else [] := by
  rw [Task.milestone?]
  split
  case h_1 number' hc =>
    rw [hc]
    by_cases hn : number' = number <;>
      cases Supervisor.milestone? s t.stage signal <;> simp [milestonesIn, hn]
  case h_2 hc =>
    rw [if_neg (hc number)]
    rfl

/-! ## The interplay -/

/-- The connection that a signal brings. -/
def Signal.connection? : Signal C → Option C
  | .opened c => some c
  | _ => none

/-- A supervisor with the calls that are on their way. -/
structure Interplay (C : Type) where
  supervisor : Supervisor C := {}
  tasks : List (Task C) := []
  /-- Whether the context of the supervisor has been canceled. -/
  canceled : Bool := false
  /-- How many recoveries have been started. -/
  started : Nat := 0
  /-- The milestones that recoveries have passed, each with the number of the recovery. -/
  log : List (Nat × Milestone) := []
  /-- The connections that were opened. -/
  opened : List C := []
  /-- The connections that were closed. -/
  closed : List C := []

/-- What can happen next. -/
inductive Move (C : Type) where
  /-- A call begins. -/
  | begin (call : Call)
  /-- A network failure is reported. -/
  | report
  /-- The task in a place goes on with a signal. -/
  | go (place : Nat) (signal : Signal C)
  /-- The context of the supervisor is canceled. -/
  | cancel

namespace Interplay

/-- The interplay after a turn that leaves the given tasks. A recovery that the turn started comes
after all of them. -/
def settle (y : Interplay C) (t : Turn C) (tasks : List (Task C)) : Interplay C :=
  if t.startsRecovery then
    { y with
      supervisor := t.supervisor
      tasks := tasks ++ [.recovery y.started]
      started := y.started + 1
      log := y.log ++ [(y.started, .started)]
      closed := y.closed ++ t.closed }
  else { y with supervisor := t.supervisor, tasks, closed := y.closed ++ t.closed }

/-- The interplay after a turn of a task that stood between `before` and `behind`. -/
def advance (y : Interplay C) (before : List (Task C)) (t : Task C) (behind : List (Task C))
    (signal : Signal C) (ha : t.stage.allows y.canceled signal = true) : Interplay C :=
  settle
    { y with
      log := y.log ++ (t.milestone? y.supervisor signal).toList
      opened := y.opened ++ signal.connection?.toList }
    (y.supervisor.resume t.stage signal)
    (before ++ (t.resume? y.canceled y.supervisor signal ha).toList ++ behind)

/-- One move. A move that is not possible changes nothing. -/
def step (y : Interplay C) : Move C → Interplay C
  | .begin call => { y with tasks := y.tasks ++ call.first?.toList }
  | .report => y.settle (y.supervisor.report []) y.tasks
  | .go place signal =>
    match y.tasks[place]? with
    | none => y
    | some t =>
      if ha : t.stage.allows y.canceled signal = true then
        y.advance (y.tasks.take place) t (y.tasks.drop (place + 1)) signal ha
      else y
  | .cancel => { y with canceled := true }

/-- The interplay after a list of moves. -/
def run (moves : List (Move C)) : Interplay C := moves.foldl step {}

/-- The numbers of the recoveries that have passed a milestone, in order. -/
def numbersAt (y : Interplay C) (m : Milestone) : List Nat := numbersIn m y.log

/-- The milestones that the recovery of a number has passed, in order. -/
def milestonesOf (y : Interplay C) (number : Nat) : List Milestone :=
  milestonesIn number y.log

/-- The stages before which the recovery of a number stands: one while it is under way. -/
def stagesOf (y : Interplay C) (number : Nat) : List (Stage C) := stagesIn number y.tasks

section Settle

variable (y : Interplay C) (t : Turn C) (tasks : List (Task C))

@[simp] theorem settle_supervisor : (y.settle t tasks).supervisor = t.supervisor := by
  rw [settle]
  split <;> rfl

@[simp] theorem settle_canceled : (y.settle t tasks).canceled = y.canceled := by
  rw [settle]
  split <;> rfl

@[simp] theorem settle_started :
    (y.settle t tasks).started = y.started + t.startsRecovery.toNat := by
  rw [settle]
  cases t.startsRecovery <;> rfl

@[simp] theorem settle_tasks :
    (y.settle t tasks).tasks =
      tasks ++ if t.startsRecovery then [.recovery y.started] else [] := by
  rw [settle]
  cases t.startsRecovery
  · exact (List.append_nil tasks).symm
  · rfl

@[simp] theorem settle_log :
    (y.settle t tasks).log =
      y.log ++ if t.startsRecovery then [(y.started, .started)] else [] := by
  rw [settle]
  cases t.startsRecovery
  · exact (List.append_nil y.log).symm
  · rfl

@[simp] theorem settle_opened : (y.settle t tasks).opened = y.opened := by
  rw [settle]
  split <;> rfl

@[simp] theorem settle_closed : (y.settle t tasks).closed = y.closed ++ t.closed := by
  rw [settle]
  split <;> rfl

end Settle

/-- The task that stands between `before` and `behind` takes its turn. -/
theorem step_go {y : Interplay C} {before behind : List (Task C)} {t : Task C} {signal : Signal C}
    (ht : y.tasks = before ++ t :: behind) (ha : t.stage.allows y.canceled signal = true) :
    y.step (.go before.length signal) = y.advance before t behind signal ha := by
  have hget : y.tasks[before.length]? = some t := by simp [ht]
  have htake : y.tasks.take before.length = before := by simp [ht]
  have hdrop : y.tasks.drop (before.length + 1) = behind := by simp [ht]
  simp only [step, hget, dif_pos ha, htake, hdrop]

/-- What a move of a task can do: nothing, or take a turn. -/
theorem step_go_cases {P : Interplay C → Prop} (y : Interplay C) (place : Nat)
    (signal : Signal C) (same : P y)
    (advance : ∀ before t behind (ha : t.stage.allows y.canceled signal = true),
      y.tasks = before ++ t :: behind → P (y.advance before t behind signal ha)) :
    P (y.step (.go place signal)) := by
  rw [step]
  split
  -- nobody is in the place
  case h_1 => exact same
  case h_2 t ht =>
    obtain ⟨hlt, rfl⟩ := List.getElem?_eq_some_iff.1 ht
    split
    case isTrue ha =>
      apply advance _ _ _ ha
      rw [List.getElem_cons_drop, List.take_append_drop]
    -- the stage does not go on with this signal
    case isFalse => exact same

/-- What one move can do: nothing, begin a call, report, take a turn, or cancel. -/
theorem step_cases {P : Interplay C → Prop} (y : Interplay C) (m : Move C) (same : P y)
    (begins : ∀ (call : Call) (t : Task C), call.first? = some t →
      P { y with tasks := y.tasks ++ [t] })
    (report : P (y.settle (y.supervisor.report []) y.tasks))
    (advance : ∀ before t behind signal (ha : t.stage.allows y.canceled signal = true),
      y.tasks = before ++ t :: behind → P (y.advance before t behind signal ha))
    (cancel : P { y with canceled := true }) : P (y.step m) := by
  cases m with
  | begin call =>
    cases hf : call.first? (C := C) with
    | none => simpa [step, hf] using same
    | some t => simpa [step, hf] using begins call t hf
  | report => exact report
  | go place signal =>
    exact step_go_cases y place signal same fun before t behind ha =>
      advance before t behind signal ha
  | cancel => exact cancel

/-- A property that holds at first and that every move keeps holds after every run. -/
theorem run_induction {P : Interplay C → Prop} (first : P {})
    (step : ∀ y m, P y → P (step y m)) (moves : List (Move C)) : P (run moves) := by
  exact List.foldlRecOn moves Interplay.step first fun y h m _ => step y m h

end Interplay

end Reconnect.Supervisor
