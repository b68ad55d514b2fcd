import Reconnect.Proofs.Supervisor.Interplay
import Reconnect.Proofs.Supervisor.Registry
import Mathlib.Data.List.Perm.Subperm

/-!
# One recovery at a time

In every interplay the mark of a recovery is set exactly while one recovery has been started and has
neither given every client a connection nor been stopped. The number of recoveries that have begun
and the generation of the connections count what they say they count.

Two invariants carry this. `Interplay.Marked` counts the tasks that have the mark to take back, and
`Interplay.Life` ties the milestones that a recovery has passed to the stage it stands before.
-/

namespace Reconnect.Supervisor

variable {C : Type}

/-- Whether a stage belongs to a recovery that has not taken its mark back. -/
def Stage.keepsMark : Stage C → Bool
  | .republishClose _ full => !full
  | .announce => false
  | stage => stage.ofRecovery

/-- The milestones that a recovery has passed before a stage. -/
def Stage.passed : Stage C → List Milestone
  | .recover => [.started]
  | .republishClose _ true | .announce => [.started, .begun, .republished]
  | _ => [.started, .begun]

/-- The milestones of a recovery that gave the connections back. -/
def completed : List Milestone := [.started, .begun, .republished, .announced]

/-- The milestones of a recovery that was stopped. -/
def broken : List Milestone := [.started, .begun, .stopped]

/-! ## What one turn does -/

section Turn

variable {canceled : Bool} {s : Supervisor C} {stage : Stage C} {signal : Signal C} {t : Turn C}

/-- The mark is set by a turn that starts a recovery, and taken back by the turn after which the
recovery does not keep it any more. -/
theorem Goes.mark (hg : Goes canceled s stage signal t)
    (hm : stage.keepsMark = true → s.recovering = true) :
    t.supervisor.recovering.toNat + stage.keepsMark.toNat =
      s.recovering.toNat + (t.next.any Stage.keepsMark).toNat + t.startsRecovery.toNat := by
  cases hg with
  -- only a report sets the mark, and only where it is not set already
  | reportEmpty => cases hr : s.recovering <;> simp [Stage.keepsMark, Stage.ofRecovery, hr]
  | reportUnrenewed => cases hr : s.recovering <;> simp [Stage.keepsMark, Stage.ofRecovery, hr]
  | _ =>
    simp_all [Stage.keepsMark, Stage.ofRecovery, enroll, setSlot, withdraw, withdrawAll,
      clearSlots, stopRecovery]

/-- A turn starts a recovery exactly if it sets the mark. -/
theorem Goes.starts (hg : Goes canceled s stage signal t) :
    t.startsRecovery = (!s.recovering && t.supervisor.recovering) := by
  cases hg with
  | reportEmpty => simp
  | reportUnrenewed => simp
  | _ => simp_all [enroll, setSlot, withdraw, withdrawAll, clearSlots, stopRecovery]

/-- The count of begun recoveries counts the first turns. -/
theorem Goes.cycles (hg : Goes canceled s stage signal t) :
    t.supervisor.cycles = s.cycles + (milestone? s stage signal).toList.count .begun := by
  cases hg <;>
    simp_all [milestone?, enroll, setSlot, withdraw, withdrawAll, clearSlots, stopRecovery]

/-- The generation counts the announcements. -/
theorem Goes.generation (hg : Goes canceled s stage signal t) :
    t.supervisor.generation =
      s.generation + (milestone? s stage signal).toList.count .announced := by
  cases hg <;>
    simp_all [milestone?, enroll, setSlot, withdraw, withdrawAll, clearSlots, stopRecovery]

/-- A recovery that goes on has passed, before its next stage, what it had passed before and the
milestone of this turn. -/
theorem Goes.passed (hg : Goes canceled s stage signal t) (hr : stage.ofRecovery = true)
    {next : Stage C} (hn : t.next = some next) :
    next.passed = stage.passed ++ (milestone? s stage signal).toList := by
  cases hg <;> simp_all [Stage.ofRecovery, Stage.passed, milestone?, stopRecovery]
  all_goals
    subst hn
    rfl

/-- A recovery that ends has passed all milestones of a life. -/
theorem Goes.ended (hg : Goes canceled s stage signal t) (hr : stage.ofRecovery = true)
    (hn : t.next = none) :
    stage.passed ++ (milestone? s stage signal).toList = completed ∨
      stage.passed ++ (milestone? s stage signal).toList = broken := by
  cases hg <;>
    simp_all [Stage.ofRecovery, Stage.passed, milestone?, stopRecovery, completed, broken]

theorem Goes.ofRecovery (hg : Goes canceled s stage signal t) (hr : stage.ofRecovery = true)
    {next : Stage C} (hn : t.next = some next) : next.ofRecovery = true := by
  cases hg <;> simp_all [Stage.ofRecovery, stopRecovery]
  all_goals
    subst hn
    rfl

end Turn

theorem Stage.ofRecovery_of_keepsMark {stage : Stage C} (h : stage.keepsMark = true) :
    stage.ofRecovery = true := by
  cases stage <;> simp_all [Stage.keepsMark, Stage.ofRecovery]

/-- Before a stage that keeps the mark, the recovery has neither given every client a connection nor
been stopped. -/
theorem Stage.keepsMark_iff {stage : Stage C} (hr : stage.ofRecovery = true) :
    stage.keepsMark = true ↔ .republished ∉ stage.passed := by
  cases stage with
  | republishClose unused full => cases full <;> simp [Stage.keepsMark, Stage.passed]
  | _ => simp_all [Stage.keepsMark, Stage.passed, Stage.ofRecovery]

theorem Stage.started_mem_passed (stage : Stage C) : .started ∈ stage.passed := by
  unfold Stage.passed
  split <;> simp

/-- What a recovery has passed before one of its stages is the beginning of a completed life. -/
theorem Stage.passed_isPrefix (stage : Stage C) : stage.passed <+: completed := by
  unfold Stage.passed
  split
  · exact ⟨[.begun, .republished, .announced], rfl⟩
  · exact ⟨[.announced], rfl⟩
  · exact ⟨[.announced], rfl⟩
  · exact ⟨[.republished, .announced], rfl⟩

namespace Interplay

/-! ## The mark -/

/-- As many tasks have the mark of a recovery to take back as marks are set. -/
def Marked (y : Interplay C) : Prop :=
  y.tasks.countP (·.stage.keepsMark) = y.supervisor.recovering.toNat

theorem Marked.recovering {y : Interplay C} (h : y.Marked) {t : Task C} (ht : t ∈ y.tasks)
    (hk : t.stage.keepsMark = true) : y.supervisor.recovering = true := by
  have hpos : 0 < y.tasks.countP (·.stage.keepsMark) := List.countP_pos_iff.2 ⟨t, ht, hk⟩
  rw [h] at hpos
  cases hr : y.supervisor.recovering with
  | true => rfl
  | false =>
    rw [hr] at hpos
    cases hpos

theorem countP_resume? (canceled : Bool) (s : Supervisor C) (t : Task C) (signal : Signal C)
    (ha : t.stage.allows canceled signal = true) :
    (t.resume? canceled s signal ha).toList.countP (·.stage.keepsMark) =
      ((s.resume t.stage signal).next.any Stage.keepsMark).toNat := by
  rw [← Function.comp_def, ← List.countP_map, Task.map_stage_resume?]
  cases (s.resume t.stage signal).next with
  | none => rfl
  | some next => cases hk : next.keepsMark <;> simp [hk]

theorem countP_started (starts : Bool) (number : Nat) :
    (if starts then [Task.recovery (C := C) number] else []).countP (·.stage.keepsMark) =
      starts.toNat := by
  cases starts <;> rfl

theorem Marked.step {y : Interplay C} (h : y.Marked) (m : Move C) : (y.step m).Marked := by
  refine step_cases y m h ?begins ?report ?advance h
  case begins =>
    -- a call that begins is no recovery
    intro call t ht
    have hk : t.stage.keepsMark = false := by
      cases call <;> cases ht <;> rfl
    simpa [Marked, List.countP_append, hk] using h
  case report =>
    -- a report adds a recovery if it sets the mark
    unfold Marked at h ⊢
    rw [settle_tasks, settle_supervisor, List.countP_append, countP_started, h]
    cases hr : y.supervisor.recovering <;> simp [hr]
  case advance =>
    -- a turn moves the mark and the task that has it to take back together
    intro before t behind signal ha ht
    have hg := goes_resume y.supervisor ha
    have hm := hg.mark fun hk => h.recovering (ht ▸ List.mem_append_right _ List.mem_cons_self) hk
    unfold Marked at h ⊢
    rw [ht, List.countP_append, List.countP_cons] at h
    rw [advance, settle_tasks, settle_supervisor, List.countP_append, countP_started,
      List.countP_append, List.countP_append, countP_resume?]
    have hk : (if t.stage.keepsMark = true then 1 else 0) = t.stage.keepsMark.toNat := by
      cases t.stage.keepsMark <;> rfl
    rw [hk] at h
    omega

/-- In every interplay as many tasks have a mark to take back as marks are set. -/
theorem marked_run (moves : List (Move C)) : (run moves).Marked :=
  run_induction (by rfl) (fun _ m h => h.step m) moves

/-! ## The life of a recovery -/

/-- What is known of a recovery when a number of recoveries have been started: it has not been
started, or it stands before one stage and has passed the milestones before it, or it is over and
has passed all of them. -/
inductive Life (started number : Nat) : List (Stage C) → List Milestone → Prop
  | ahead (hs : started ≤ number) : Life started number [] []
  | underWay (stage : Stage C) (hs : number < started) (hr : stage.ofRecovery = true) :
      Life started number [stage] stage.passed
  | past {passed : List Milestone} (hs : number < started)
      (hp : passed = completed ∨ passed = broken) : Life started number [] passed

/-- Every recovery leads a life. -/
def Lively (y : Interplay C) : Prop :=
  ∀ number, Life y.started number (y.stagesOf number) (y.milestonesOf number)

/-- A recovery starts its life before its first stage. -/
theorem Life.start {number : Nat} {stages : List (Stage C)} {passed : List Milestone}
    (h : Life number number stages passed) :
    Life (number + 1) number (stages ++ [.recover]) (passed ++ [.started]) := by
  cases h with
  | ahead => exact .underWay .recover (Nat.lt_succ_self number) rfl
  | underWay _ hs => exact absurd hs (Nat.lt_irrefl number)
  | past hs => exact absurd hs (Nat.lt_irrefl number)

/-- The start of another recovery leaves a life alone. -/
theorem Life.startOther {started number : Nat} {stages : List (Stage C)}
    {passed : List Milestone} (h : Life started number stages passed) (hne : started ≠ number) :
    Life (started + 1) number stages passed := by
  cases h with
  | ahead hs => exact .ahead (by omega)
  | underWay stage hs hr => exact .underWay stage (by omega) hr
  | past hs hp => exact .past (by omega) hp

/-- A recovery stands before one stage at most. -/
theorem Life.eq_singleton {started number : Nat} {stages : List (Stage C)}
    {passed : List Milestone} (h : Life started number stages passed) {stage : Stage C}
    (hs : stage ∈ stages) : stages = [stage] := by
  cases h with
  | ahead => cases hs
  | underWay stage' => rw [List.mem_singleton.1 hs]
  | past => cases hs

/-- A turn of a recovery leads its life on. -/
theorem Life.advance {started number : Nat} {before behind : List (Stage C)}
    {passed : List Milestone} {canceled : Bool} {s : Supervisor C} {stage : Stage C}
    {signal : Signal C} {t : Turn C}
    (h : Life started number (before ++ stage :: behind) passed)
    (hg : Goes canceled s stage signal t) :
    Life started number (before ++ t.next.toList ++ behind)
      (passed ++ (milestone? s stage signal).toList) := by
  generalize hl : before ++ stage :: behind = stages at h
  cases h with
  | ahead => simp at hl
  | past => simp at hl
  | underWay stage' hs hr =>
    -- the stage is the only one, so nothing stands before or behind it
    obtain ⟨rfl, rfl, rfl⟩ : before = [] ∧ stage = stage' ∧ behind = [] := by
      cases before <;> simp_all
    cases hn : t.next with
    | none => exact .past hs (hg.ended hr hn)
    | some next =>
      rw [← hg.passed hr hn]
      exact .underWay next hs (hg.ofRecovery hr hn)

theorem Lively.settle {y : Interplay C} {t : Turn C} {tasks : List (Task C)}
    (h : Lively { y with tasks }) : (y.settle t tasks).Lively := by
  intro number
  have hl := h number
  rw [stagesOf, milestonesOf] at hl ⊢
  rw [settle_started, settle_tasks, settle_log]
  cases t.startsRecovery with
  | false => simpa using hl
  | true =>
    by_cases hn : y.started = number
    · -- the recovery of this number is the one that starts
      subst hn
      simpa [milestonesIn] using hl.start
    · simpa [milestonesIn, hn] using hl.startOther hn

theorem Lively.step {y : Interplay C} (h : y.Lively) (m : Move C) : (y.step m).Lively := by
  refine step_cases y m h ?begins (Lively.settle h) ?advance h
  case begins =>
    -- a call that begins adds no stage to any recovery
    intro call t ht number
    have hn : t.call ≠ .recovery number := by
      cases call <;> cases ht <;> exact Call.noConfusion
    have hs : stagesIn number (y.tasks ++ [t]) = y.stagesOf number := by
      rw [stagesIn_append, stagesIn_cons, if_neg hn]
      exact List.append_nil _
    have hl := h number
    rw [← hs] at hl
    exact hl
  case advance =>
    intro before t behind signal ha ht
    apply Lively.settle
    intro number
    have hl := h number
    rw [stagesOf, milestonesOf] at hl ⊢
    rw [ht, stagesIn_append, stagesIn_cons] at hl
    simp only [stagesIn_append, milestonesIn_append, stagesIn_resume?, milestonesIn_milestone?]
    -- a turn leads the life of its own recovery on and leaves the other lives alone
    split
    case isTrue hc =>
      rw [if_pos hc] at hl
      exact hl.advance (goes_resume y.supervisor ha)
    case isFalse hc =>
      rw [if_neg hc] at hl
      simpa using hl

theorem lively_run (moves : List (Move C)) : (run moves).Lively :=
  run_induction (fun number => .ahead (Nat.zero_le number)) (fun _ m h => h.step m) moves

/-! ## The counts -/

/-- The numbers that a supervisor keeps count what they say they count. -/
structure Counted (y : Interplay C) : Prop where
  started : y.numbersAt .started = List.range y.started
  cycles : y.supervisor.cycles = (y.numbersAt .begun).length
  generation : y.supervisor.generation = (y.numbersAt .announced).length

theorem Counted.settle {y : Interplay C} {t : Turn C} (tasks : List (Task C))
    (hs : y.numbersAt .started = List.range y.started)
    (hc : t.supervisor.cycles = (y.numbersAt .begun).length)
    (hg : t.supervisor.generation = (y.numbersAt .announced).length) :
    (y.settle t tasks).Counted := by
  rw [numbersAt] at hs hc hg
  cases hr : t.startsRecovery with
  | false => constructor <;> simpa [numbersAt, hr]
  | true =>
    constructor
    · rw [numbersAt, settle_log, settle_started, hr, numbersIn_append, hs, Bool.toNat_true,
        List.range_succ]
      rfl
    · simpa [numbersAt, hr, numbersIn] using hc
    · simpa [numbersAt, hr, numbersIn] using hg

/-- The milestones of one turn that are of a kind are those that the turn of the stage passes. -/
theorem length_numbersIn_milestone? (s : Supervisor C) (t : Task C) (signal : Signal C)
    (m : Milestone) :
    (numbersIn m (t.milestone? s signal).toList).length =
      (Supervisor.milestone? s t.stage signal).toList.count m := by
  rw [length_numbersIn, ← Option.toList_map, Task.map_snd_milestone?]

/-- No turn of a recovery starts it. -/
theorem numbersIn_started_milestone? (s : Supervisor C) (t : Task C) (signal : Signal C) :
    numbersIn .started (t.milestone? s signal).toList = [] := by
  rw [← List.length_eq_zero_iff, length_numbersIn_milestone?, List.count_eq_zero,
    Option.mem_toList]
  unfold Supervisor.milestone?
  split
  -- the turn that gives the connections passes a milestone in a full registry only
  case h_4 => split <;> nofun
  all_goals nofun

theorem Counted.step {y : Interplay C} (h : y.Counted) (m : Move C) : (y.step m).Counted := by
  refine step_cases y m h ?begins ?report ?advance ?cancel
  case begins =>
    intro call t ht
    exact ⟨h.started, h.cycles, h.generation⟩
  case report =>
    refine Counted.settle y.tasks h.started ?_ ?_
    · rw [report_supervisor]
      exact h.cycles
    · rw [report_supervisor]
      exact h.generation
  case advance =>
    -- a turn passes the milestone that its change of the counts stands for
    intro before t behind signal ha ht
    have hg := goes_resume y.supervisor ha
    refine Counted.settle _ ?_ ?_ ?_
    · rw [numbersAt, numbersIn_append, numbersIn_started_milestone?, List.append_nil]
      exact h.started
    · rw [hg.cycles, numbersAt, numbersIn_append, List.length_append, h.cycles,
        length_numbersIn_milestone?]
      rfl
    · rw [hg.generation, numbersAt, numbersIn_append, List.length_append, h.generation,
        length_numbersIn_milestone?]
      rfl
  case cancel => exact ⟨h.started, h.cycles, h.generation⟩

theorem counted_run (moves : List (Move C)) : (run moves).Counted :=
  run_induction ⟨rfl, rfl, rfl⟩ (fun _ m h => h.step m) moves

/-! ## Single flight -/

/-- Whether a recovery has been started and has not taken its mark back: it has neither given every
client a connection nor been stopped. -/
def IsOpen (y : Interplay C) (number : Nat) : Prop :=
  .started ∈ y.milestonesOf number ∧ .republished ∉ y.milestonesOf number ∧
    .stopped ∉ y.milestonesOf number

/-- A recovery is open exactly while it stands before a stage that keeps the mark. -/
theorem isOpen_iff {y : Interplay C} (h : y.Lively) (number : Nat) :
    y.IsOpen number ↔ ∃ stage, y.stagesOf number = [stage] ∧ stage.keepsMark = true := by
  have hl := h number
  rw [IsOpen]
  generalize y.stagesOf number = stages at hl ⊢
  generalize y.milestonesOf number = passed at hl ⊢
  cases hl with
  | ahead => simp
  | underWay stage hs hr =>
    have hk := Stage.keepsMark_iff hr
    constructor
    · rintro ⟨-, hp, -⟩
      exact ⟨stage, rfl, hk.2 hp⟩
    · rintro ⟨stage', he, hk'⟩
      cases he
      refine ⟨stage.started_mem_passed, hk.1 hk', fun hs => ?_⟩
      -- a recovery that stands before a stage has not been stopped
      have hc : Milestone.stopped ∈ completed := stage.passed_isPrefix.subset hs
      simp [completed] at hc
  | past hs hp =>
    rcases hp with rfl | rfl <;> simp [completed, broken]

theorem mem_stagesOf {y : Interplay C} {number : Nat} {stage : Stage C} :
    stage ∈ y.stagesOf number ↔
      ∃ t ∈ y.tasks, t.call = .recovery number ∧ t.stage = stage := by
  simp [stagesOf, stagesIn, and_assoc]

/-- The mark is set exactly while a recovery is open. -/
theorem recovering_iff {y : Interplay C} (hm : y.Marked) (hl : y.Lively) :
    y.supervisor.recovering = true ↔ ∃ number, y.IsOpen number := by
  constructor
  · intro hr
    rw [Marked, hr] at hm
    have hpos : 0 < y.tasks.countP (·.stage.keepsMark) := by
      rw [hm]
      exact Nat.one_pos
    obtain ⟨t, ht, hk⟩ := List.countP_pos_iff.1 hpos
    obtain ⟨number, hc⟩ := t.runs.ofRecovery_iff.1 (Stage.ofRecovery_of_keepsMark hk)
    have hs := (hl number).eq_singleton (mem_stagesOf.2 ⟨t, ht, hc, rfl⟩)
    exact ⟨number, (isOpen_iff hl number).2 ⟨t.stage, hs, hk⟩⟩
  · rintro ⟨number, ho⟩
    obtain ⟨stage, hs, hk⟩ := (isOpen_iff hl number).1 ho
    have hmem : stage ∈ y.stagesOf number := hs ▸ List.mem_singleton_self stage
    obtain ⟨t, ht, -, rfl⟩ := mem_stagesOf.1 hmem
    exact hm.recovering ht hk

/-- No two recoveries are open at once. -/
theorem isOpen_unique {y : Interplay C} (hm : y.Marked) (hl : y.Lively) {i j : Nat}
    (hi : y.IsOpen i) (hj : y.IsOpen j) : i = j := by
  obtain ⟨stage, hs, hk⟩ := (isOpen_iff hl i).1 hi
  obtain ⟨stage', hs', hk'⟩ := (isOpen_iff hl j).1 hj
  obtain ⟨t, ht, hc, rfl⟩ := mem_stagesOf.1 (hs ▸ List.mem_singleton_self stage)
  obtain ⟨t', ht', hc', rfl⟩ := mem_stagesOf.1 (hs' ▸ List.mem_singleton_self stage')
  -- at most one task has a mark to take back, because there is one mark
  have hle : (y.tasks.filter (·.stage.keepsMark)).length ≤ 1 := by
    rw [← List.countP_eq_length_filter, hm]
    exact Bool.toNat_le _
  have hf : t ∈ y.tasks.filter (·.stage.keepsMark) := List.mem_filter.2 ⟨ht, hk⟩
  have hf' : t' ∈ y.tasks.filter (·.stage.keepsMark) := List.mem_filter.2 ⟨ht', hk'⟩
  -- both recoveries have such a task, so the tasks are the same
  have h : t = t' := by
    generalize y.tasks.filter (·.stage.keepsMark) = ts at hle hf hf'
    cases ts with
    | nil => cases hf
    | cons u rest =>
      obtain rfl := List.eq_nil_of_length_eq_zero (Nat.le_zero.1 (Nat.le_of_succ_le_succ hle))
      rw [List.mem_singleton.1 hf, List.mem_singleton.1 hf']
  rw [h, hc'] at hc
  cases hc
  rfl

/-- Fewer recoveries have passed a later milestone than an earlier one of the same life. -/
theorem length_numbersAt_le {y : Interplay C} {early late : Milestone}
    (h : ∀ number, (y.milestonesOf number).count late ≤ (y.milestonesOf number).count early) :
    (y.numbersAt late).length ≤ (y.numbersAt early).length := by
  refine List.Subperm.length_le (List.subperm_ext_iff.2 fun number _ => ?_)
  rw [numbersAt, numbersAt, count_numbersIn, count_numbersIn]
  exact h number

/-- A recovery passes the milestones of a completed life or those of a broken one, in order. -/
theorem milestonesOf_isPrefix {y : Interplay C} (h : y.Lively) (number : Nat) :
    y.milestonesOf number <+: completed ∨ y.milestonesOf number <+: broken := by
  have hl := h number
  generalize y.milestonesOf number = passed at hl ⊢
  generalize y.stagesOf number = stages at hl
  cases hl with
  | ahead => exact .inl List.nil_prefix
  | underWay stage => exact .inl stage.passed_isPrefix
  | past hs hp =>
    rcases hp with rfl | rfl
    · exact .inl (List.prefix_refl completed)
    · exact .inr (List.prefix_refl broken)

/-- A recovery that gave the connections back has announced it, or is on its way to. -/
theorem announced_or_underWay {y : Interplay C} (h : y.Lively) {number : Nat}
    (hr : .republished ∈ y.milestonesOf number) :
    .announced ∈ y.milestonesOf number ∨ ∃ stage, y.stagesOf number = [stage] := by
  have hl := h number
  generalize y.milestonesOf number = passed at hl hr ⊢
  generalize y.stagesOf number = stages at hl ⊢
  cases hl with
  | ahead => cases hr
  | underWay stage => exact .inr ⟨stage, rfl⟩
  | past hs hp =>
    rcases hp with rfl | rfl
    · exact .inl (by simp [completed])
    · simp [broken] at hr

theorem count_announced_le {y : Interplay C} (h : y.Lively) (number : Nat) :
    (y.milestonesOf number).count .announced ≤ (y.milestonesOf number).count .begun := by
  have hl := h number
  generalize y.milestonesOf number = passed at hl ⊢
  generalize y.stagesOf number = stages at hl
  cases hl with
  | ahead => exact Nat.le_refl 0
  | underWay stage =>
    unfold Stage.passed
    split <;> decide
  | past hs hp => rcases hp with rfl | rfl <;> decide

/-- From `y` to `y'` the mark was set and one recovery was started, or neither. -/
def StartsOnce (y y' : Interplay C) : Prop :=
  (y.supervisor.recovering = false ∧ y'.supervisor.recovering = true ∧
      y'.started = y.started + 1 ∧ Task.recovery y.started ∈ y'.tasks) ∨
    (y'.supervisor.recovering = true → y.supervisor.recovering = true) ∧
      y'.started = y.started

theorem startsOnce_settle {y y' : Interplay C} {t : Turn C} (hy : y'.started = y.started)
    (ht : t.startsRecovery = (!y.supervisor.recovering && t.supervisor.recovering))
    (tasks : List (Task C)) : StartsOnce y (y'.settle t tasks) := by
  rw [StartsOnce]
  rw [settle_supervisor, settle_started, settle_tasks, hy]
  cases hs : t.startsRecovery with
  | true =>
    rw [hs, eq_comm, Bool.and_eq_true, Bool.not_eq_true'] at ht
    exact .inl ⟨ht.1, ht.2, rfl, List.mem_append_right _ List.mem_cons_self⟩
  | false =>
    rw [hs, eq_comm, Bool.and_eq_false_iff, Bool.not_eq_false'] at ht
    refine .inr ⟨fun hr => ht.resolve_right ?_, rfl⟩
    rw [hr]
    exact Bool.noConfusion

/-- A move that sets the mark starts one recovery, and no other move starts any. -/
theorem startsOnce_step (y : Interplay C) (m : Move C) : StartsOnce y (y.step m) := by
  have same : StartsOnce y y := .inr ⟨id, rfl⟩
  refine step_cases y m same (fun _ _ _ => .inr ⟨id, rfl⟩) ?report ?advance (.inr ⟨id, rfl⟩)
  case report => exact startsOnce_settle rfl (by simp) y.tasks
  case advance =>
    intro before t behind signal ha ht
    refine startsOnce_settle ?_ (goes_resume y.supervisor ha).starts _
    rfl

end Interplay

/-- One recovery at a time. -/
structure Interplay.SingleFlight (y : Interplay C) : Prop where
  /-- The mark is set exactly while a recovery is open. -/
  recovering_iff : y.supervisor.recovering = true ↔ ∃ number, y.IsOpen number
  /-- No two recoveries are open at once. -/
  isOpen_unique : ∀ i j, y.IsOpen i → y.IsOpen j → i = j
  /-- An open recovery is under way. -/
  underWay : ∀ number, y.IsOpen number → ∃ stage, y.stagesOf number = [stage]
  /-- A move that sets the mark starts one recovery, which stands before its first stage. -/
  starts : ∀ m, y.supervisor.recovering = false → (y.step m).supervisor.recovering = true →
    (y.step m).started = y.started + 1 ∧ (y.step m).stagesOf y.started = [.recover]
  /-- No other move starts one. -/
  starts_only : ∀ m,
    ((y.step m).supervisor.recovering = true → y.supervisor.recovering = true) →
      (y.step m).started = y.started
  /-- The recoveries are numbered in the order in which they were started. -/
  numbersAt_started : y.numbersAt .started = List.range y.started
  /-- The cycles are the recoveries that have begun. -/
  cycles : y.supervisor.cycles = (y.numbersAt .begun).length
  /-- The generation is the number of recoveries that have announced connections. -/
  generation : y.supervisor.generation = (y.numbersAt .announced).length
  /-- A recovery begins, gives connections to all clients and announces them, each once, or it is
  stopped and announces nothing. -/
  life : ∀ number,
    y.milestonesOf number <+: completed ∨ y.milestonesOf number <+: broken
  /-- A recovery that gave connections to all clients does announce them. -/
  announced : ∀ number, .republished ∈ y.milestonesOf number →
    .announced ∈ y.milestonesOf number ∨ ∃ stage, y.stagesOf number = [stage]
  generation_le : y.supervisor.generation ≤ y.supervisor.cycles
  /-- No client sees a connection while the mark is set. -/
  hidden : y.supervisor.recovering = true → ∀ id, y.supervisor.connection? id = none

/-- Whatever the moves, recoveries run one at a time. -/
theorem Interplay.singleFlight_run (moves : List (Move C)) : (run moves).SingleFlight := by
  have hm := marked_run moves
  have hl := lively_run moves
  have hc := counted_run moves
  refine ⟨Interplay.recovering_iff hm hl, fun i j => Interplay.isOpen_unique hm hl, ?underWay,
    ?starts, ?starts_only, hc.started, hc.cycles, hc.generation, milestonesOf_isPrefix hl,
    fun number => announced_or_underWay hl, ?generation_le, ?hidden⟩
  case underWay =>
    intro number ho
    obtain ⟨stage, hs, -⟩ := (isOpen_iff hl number).1 ho
    exact ⟨stage, hs⟩
  case starts =>
    intro m hr hr'
    -- the new recovery has one stage only, and its task stands before the first one
    rcases startsOnce_step (run moves) m with ⟨-, -, hs, ht⟩ | ⟨h, -⟩
    · exact ⟨hs, (hl.step m _).eq_singleton (mem_stagesOf.2 ⟨_, ht, rfl, rfl⟩)⟩
    · rw [h hr'] at hr
      cases hr
  case starts_only =>
    intro m h
    rcases startsOnce_step (run moves) m with ⟨hr, hr', -⟩ | ⟨-, hs⟩
    · rw [h hr'] at hr
      cases hr
    · exact hs
  case generation_le =>
    rw [hc.generation, hc.cycles]
    exact length_numbersAt_le (count_announced_le hl)
  case hidden =>
    intro hr id
    rw [connection?, if_pos hr]

end Reconnect.Supervisor
