import Reconnect.Proofs.Supervisor.SingleFlight

/-!
# No client is stranded

While the context of the supervisor has not been canceled, a registered client without a connection
is never left alone: either a recovery runs, or a registration or renewal of that client is under
way that gives it a connection or reports a network failure (`Mends`).

The invariant is `Interplay.Covered`. It leans on the count of marks in `SingleFlight`: slots are
emptied by a recovery only while the mark is set, and the mark is taken back in a full registry.
-/

namespace Reconnect.Supervisor

variable {C : Type}

/-- A client has an empty slot and no recovery runs. -/
def Starves (s : Supervisor C) (id : Identifier) : Prop :=
  s.slots.get? id = some none ∧ s.recovering = false

/-- A call before a stage puts an end to the starvation of a client, whatever happens between its
turns: in finitely many turns at which the client starves, it gives the client a connection or
starts a recovery. -/
inductive Mends (id : Identifier) : Stage C → Prop
  | turn {stage : Stage C}
      (ends : ∀ canceled s signal, Starves s id → stage.allows canceled signal = true →
        (s.resume stage signal).next = none →
          (∃ c, (s.resume stage signal).supervisor.slots.get? id = some (some c)) ∨
            (s.resume stage signal).startsRecovery = true)
      (goes : ∀ canceled s signal, Starves s id → stage.allows canceled signal = true →
        ∀ next, (s.resume stage signal).next = some next → Mends id next) :
      Mends id stage

/-- Whether a call registers a client or renews its connection. -/
def Call.Serves (call : Call) (id : Identifier) : Prop :=
  call = .register id ∨ call = .renew id

/-- Whether the client of a call may have been left without a connection before a stage. -/
def Stage.owes : Stage C → Bool
  | .registerReport none => true
  | .renewClose _ _ => true
  | .renewOpen _ => true
  | .renewGive _ _ => true
  | .renewReport none => true
  | _ => false

/-! ## A call that owes its client a connection mends -/

theorem mends_of_report {id : Identifier} {stage : Stage C}
    (h : ∀ s : Supervisor C, s.resume stage .go = s.report []) (hn : stage.need = .nothing) :
    Mends id stage := by
  refine .turn ?_ ?_
  · intro canceled s signal hs ha _
    obtain rfl := go_of_allows hn ha
    rw [h, report_startsRecovery, hs.2]
    exact .inr rfl
  · intro canceled s signal hs ha next hnext
    obtain rfl := go_of_allows hn ha
    rw [h, report_next] at hnext
    cases hnext

theorem mends_registerReport (id : Identifier) : Mends id (.registerReport (C := C) none) :=
  mends_of_report (fun _ => rfl) rfl

theorem mends_renewReport (id : Identifier) : Mends id (.renewReport (C := C) none) :=
  mends_of_report (fun _ => rfl) rfl

theorem mends_renewGive (id : Identifier) (c : C) : Mends id (.renewGive id c) := by
  have hgive : ∀ s : Supervisor C, Starves s id →
      s.resume (.renewGive id c) .go = { supervisor := s.setSlot id (some c) } := by
    rintro s ⟨hs, hr⟩
    simp only [resume, hs, hr]
  refine .turn ?_ ?_
  · intro canceled s signal hs ha _
    obtain rfl := go_of_allows rfl ha
    rw [hgive s hs]
    exact .inl ⟨c, by simp⟩
  · intro canceled s signal hs ha next hnext
    obtain rfl := go_of_allows rfl ha
    rw [hgive s hs] at hnext
    cases hnext

theorem mends_renewOpen (id : Identifier) : Mends (C := C) id (.renewOpen id) := by
  refine .turn ?_ ?_
  -- the call does not end here: it goes on with the connection or to the report
  · intro canceled s signal hs ha hnext
    obtain ⟨c, rfl⟩ | rfl := opened_or_failed rfl ha <;> cases hnext
  · intro canceled s signal hs ha next hnext
    obtain ⟨c, rfl⟩ | rfl := opened_or_failed rfl ha
    · cases hnext
      exact mends_renewGive id c
    · cases hnext
      exact mends_renewReport id

theorem mends_renewClose (id : Identifier) (old : Option C) : Mends id (.renewClose id old) := by
  refine .turn ?_ ?_
  · intro canceled s signal hs ha hnext
    obtain rfl := go_of_allows rfl ha
    cases hnext
  · intro canceled s signal hs ha next hnext
    obtain rfl := go_of_allows rfl ha
    cases hnext
    exact mends_renewOpen id

theorem mends_of_owes {call : Call} {id : Identifier} {stage : Stage C} (hs : call.Serves id)
    (hr : call.Runs stage) (ho : stage.owes = true) : Mends id stage := by
  rcases hs with rfl | rfl
  · cases stage with
    | registerReport stale =>
      cases stale with
      | none => exact mends_registerReport id
      | some c => cases ho
    | _ => simp_all [Stage.owes, Call.Runs]
  · cases stage with
    | renewClose id' old =>
      obtain rfl : id' = id := hr
      exact mends_renewClose id' old
    | renewOpen id' =>
      obtain rfl : id' = id := hr
      exact mends_renewOpen id'
    | renewGive id' c =>
      obtain rfl : id' = id := hr
      exact mends_renewGive id' c
    | renewReport leftover =>
      cases leftover with
      | none => exact mends_renewReport id
      | some c => cases ho
    | _ => simp_all [Stage.owes, Call.Runs]

/-! ## What one turn leaves -/

/-- Every turn keeps the clients and the slots of the registry consistent. -/
theorem Goes.consistent {canceled : Bool} {s : Supervisor C} {stage : Stage C}
    {signal : Signal C} {t : Turn C} (hg : Goes canceled s stage signal t)
    (h : s.Consistent) : t.supervisor.Consistent := by
  cases hg with
  | enterLate id => exact h.enroll id none
  | enterInTime id c => exact h.enroll id (some c)
  | enterEmpty id => exact h.enroll id none
  | reportEmpty =>
    rw [report_supervisor]
    exact h
  | take id old hr hs => exact h.setSlot hs none
  | give id c hr hs => exact h.setSlot hs (some c)
  | reportUnrenewed =>
    rw [report_supervisor]
    exact h
  | remove id => exact h.withdraw id
  | removeAll => exact consistent_withdrawAll s
  | discard => exact h.clearSlots
  | publishAll fresh => exact h.publish fresh
  | publishSome fresh => exact h.publish fresh
  | _ => exact h

/-- If a client starves after a turn, it starved before and the call of the turn still owes it a
connection if it did before, or the call serves it and owes it a connection now. -/
theorem Goes.starves {s : Supervisor C} {call : Call} {stage : Stage C} {signal : Signal C}
    {t : Turn C} {id : Identifier} (hg : Goes false s stage signal t) (hr : call.Runs stage)
    (hm : stage.keepsMark = true → s.recovering = true) (ha : Starves t.supervisor id) :
    (Starves s id ∧ (call.Serves id → stage.owes = true →
        ∃ next, t.next = some next ∧ next.owes = true)) ∨
      call.Serves id ∧ ∃ next, t.next = some next ∧ next.owes = true := by
  obtain ⟨hs, hrec⟩ := ha
  cases hg with
  -- a client that enters during a recovery does not starve
  | enterLate id' c hr' => exact absurd (hr'.symm.trans hrec) Bool.noConfusion
  | enterInTime id' c hr' =>
    rw [get?_enroll] at hs
    split at hs
    case isTrue => cases hs
    case isFalse hne => exact .inl ⟨⟨hs, hr'⟩, fun _ ho => by cases ho⟩
  | enterEmpty id' =>
    rw [get?_enroll] at hs
    split at hs
    -- the client that entered without a connection: its registration reports next
    case isTrue he =>
      cases call <;> cases hr
      exact .inr ⟨.inl (congrArg Call.register he.symm), _, rfl, rfl⟩
    case isFalse hne => exact .inl ⟨⟨hs, hrec⟩, fun _ ho => by cases ho⟩
  | take id' old hr' hs' =>
    rw [get?_setSlot] at hs
    split at hs
    -- the client whose connection was taken: its renewal goes on to open another one
    case isTrue he =>
      cases call <;> cases hr
      exact .inr ⟨.inr (congrArg Call.renew he.symm), _, rfl, rfl⟩
    case isFalse hne => exact .inl ⟨⟨hs, hr'⟩, fun _ ho => by cases ho⟩
  | give id' c hr' hs' =>
    rw [get?_setSlot] at hs
    split at hs
    case isTrue => cases hs
    case isFalse hne =>
      refine .inl ⟨⟨hs, hr'⟩, fun hc => absurd ?_ hne⟩
      rcases hc with rfl | rfl <;> cases hr
      rfl
  | giveNot id' c h =>
    -- the renewal keeps its connection back only from a filled slot or during a recovery
    refine .inl ⟨⟨hs, hrec⟩, fun hc => ?_⟩
    rcases hc with rfl | rfl <;> cases hr
    exact absurd ((h hs).symm.trans hrec) Bool.noConfusion
  | remove id' =>
    rw [get?_withdraw] at hs
    split at hs
    case isTrue => cases hs
    case isFalse hne => exact .inl ⟨⟨hs, hrec⟩, fun _ ho => by cases ho⟩
  -- a recovery empties slots while its mark is set, and leaves a full registry
  | discard => exact absurd ((hm rfl).symm.trans hrec) Bool.noConfusion
  | publishAll fresh hf => exact absurd hs (ne_of_isFull hf id)
  | publishSome fresh =>
    rw [publish_recovering] at hrec
    exact absurd ((hm rfl).symm.trans hrec) Bool.noConfusion
  | _ => simp_all [Starves, Stage.owes, Stage.keepsMark, Stage.ofRecovery]

namespace Interplay

/-! ## The invariant -/

/-- The clients are those with a slot, and every client that starves has a call under way that owes
it a connection. -/
structure Covered (y : Interplay C) : Prop where
  consistent : y.supervisor.Consistent
  owed : y.canceled = false → ∀ id, Starves y.supervisor id →
    ∃ t ∈ y.tasks, t.call.Serves id ∧ t.stage.owes = true

theorem Covered.settle {y : Interplay C} {t : Turn C} {tasks : List (Task C)}
    (hc : t.supervisor.Consistent)
    (ho : y.canceled = false → ∀ id, Starves t.supervisor id →
      ∃ u ∈ tasks, u.call.Serves id ∧ u.stage.owes = true) :
    (y.settle t tasks).Covered := by
  constructor
  · rw [settle_supervisor]
    exact hc
  · rw [settle_supervisor, settle_canceled, settle_tasks]
    intro hcanceled id hs
    obtain ⟨u, hu, hserves⟩ := ho hcanceled id hs
    exact ⟨u, List.mem_append_left _ hu, hserves⟩

/-- A turn hands the debt of its call on to the next stage; the other calls keep theirs. -/
theorem Covered.advance {y : Interplay C} (h : y.Covered) (hm : y.Marked)
    {before behind : List (Task C)} {t : Task C} {signal : Signal C}
    (ha : t.stage.allows y.canceled signal = true) (ht : y.tasks = before ++ t :: behind) :
    (y.advance before t behind signal ha).Covered := by
  have hg := goes_resume y.supervisor ha
  apply Covered.settle (hg.consistent h.consistent)
  intro hcanceled id hs
  have hmark := hm.recovering (t := t) (ht ▸ List.mem_append_right _ List.mem_cons_self)
  -- a next stage that owes the connection is that of the task after its turn
  have hand : (∃ next, (y.supervisor.resume t.stage signal).next = some next ∧
      next.owes = true) → t.call.Serves id →
      ∃ u ∈ before ++ (t.resume? y.canceled y.supervisor signal ha).toList ++ behind,
        u.call.Serves id ∧ u.stage.owes = true := by
    rintro ⟨next, hn, howes⟩ hserves
    obtain ⟨u, hu, hcall, rfl⟩ := Task.exists_mem_resume? ha hn
    refine ⟨u, List.mem_append_left _ (List.mem_append_right _ hu), ?_, howes⟩
    rw [hcall]
    exact hserves
  have hg' : Goes false y.supervisor t.stage signal _ := hcanceled ▸ hg
  rcases hg'.starves t.runs hmark hs with ⟨hs', hkeep⟩ | ⟨hserves, hnext⟩
  · -- the client starved before: the call that owed it a connection took this turn or waits
    obtain ⟨u, hu, hserves, howes⟩ := h.owed hcanceled id hs'
    rw [ht, List.mem_append, List.mem_cons] at hu
    rcases hu with hu | rfl | hu
    · exact ⟨u, List.mem_append_left _ (List.mem_append_left _ hu), hserves, howes⟩
    · exact hand (hkeep hserves howes) hserves
    · exact ⟨u, List.mem_append_right _ hu, hserves, howes⟩
  · exact hand hnext hserves

theorem Covered.step {y : Interplay C} (h : y.Covered) (hm : y.Marked) (m : Move C) :
    (y.step m).Covered := by
  refine step_cases y m h ?begins ?report (fun _ _ _ _ ha ht => h.advance hm ha ht) ?cancel
  case begins =>
    -- the calls that were under way still are
    intro call t _
    refine ⟨h.consistent, fun hcanceled id hs => ?_⟩
    obtain ⟨u, hu, hserves⟩ := h.owed hcanceled id hs
    exact ⟨u, List.mem_append_left _ hu, hserves⟩
  case report =>
    refine Covered.settle ?_ ?_
    · rw [report_supervisor]
      exact h.consistent
    · -- after a report the mark is set, so nobody starves
      rw [report_supervisor]
      rintro _ id ⟨-, hr⟩
      cases hr
  case cancel => exact ⟨h.consistent, nofun⟩

theorem covered_run (moves : List (Move C)) : (run moves).Covered := by
  have h : (run moves).Marked ∧ (run moves).Covered := by
    refine run_induction (P := fun y => y.Marked ∧ y.Covered) ⟨by rfl, ?_, ?_⟩
      (fun _ m h => ⟨h.1.step m, h.2.step h.1 m⟩) moves
    · exact consistent_withdrawAll {}
    · rintro - id ⟨hs, -⟩
      cases hs
  exact h.2

/-- While no recovery runs, a registration or renewal of a client without a connection mends. -/
theorem Covered.served {y : Interplay C} (h : y.Covered) (hc : y.canceled = false)
    (hr : y.supervisor.recovering = false) {id : Identifier} (hid : id ∈ y.supervisor.clients)
    (hnone : y.supervisor.connection? id = none) :
    ∃ t ∈ y.tasks, t.call.Serves id ∧ Mends id t.stage := by
  obtain ⟨slot, hslot⟩ := Option.isSome_iff_exists.1 ((h.consistent id).1 hid)
  rw [connection?, hr, if_neg Bool.false_ne_true, hslot, Option.join_some] at hnone
  rw [hnone] at hslot
  obtain ⟨t, ht, hserves, howes⟩ := h.owed hc id ⟨hslot, hr⟩
  exact ⟨t, ht, hserves, mends_of_owes hserves t.runs howes⟩

/-! ## No client is stranded -/

/-- Every client that waits for a connection is attended to. -/
structure Attended (y : Interplay C) : Prop where
  /-- While no recovery runs, a registration or renewal of each waiting client mends. -/
  served : y.supervisor.recovering = false → ∀ id ∈ y.supervisor.clients,
    y.supervisor.connection? id = none → ∃ t ∈ y.tasks, t.call.Serves id ∧ Mends id t.stage
  /-- Without such calls and recoveries every client has a connection. -/
  connected : y.supervisor.recovering = false →
    (∀ t ∈ y.tasks, ∀ id, ¬ t.call.Serves id) →
      ∀ id ∈ y.supervisor.clients, ∃ c, y.supervisor.connection? id = some c
  /-- When nothing is under way, no recovery runs. -/
  quiet : y.tasks = [] → y.supervisor.recovering = false

/-- Until the context of the supervisor is canceled, no client is stranded. -/
theorem attended_run (moves : List (Move C)) (hc : (run moves).canceled = false) :
    (run moves).Attended := by
  have h := covered_run moves
  have served : (run moves).supervisor.recovering = false →
      ∀ id ∈ (run moves).supervisor.clients, (run moves).supervisor.connection? id = none →
        ∃ t ∈ (run moves).tasks, t.call.Serves id ∧ Mends id t.stage :=
    fun hr id hid hnone => h.served hc hr hid hnone
  refine ⟨served, ?_, ?_⟩
  · intro hr hcalls id hid
    rw [← Option.ne_none_iff_exists']
    intro hnone
    obtain ⟨t, ht, hserves, -⟩ := served hr id hid hnone
    exact hcalls t ht id hserves
  · -- no task is left to take the mark back, so it is not set
    intro ht
    have hm := marked_run moves
    rw [Marked, ht] at hm
    cases hr : (run moves).supervisor.recovering with
    | false => rfl
    | true =>
      rw [hr] at hm
      cases hm

/-- A client whose registration failed waits for the report of that registration. -/
theorem attended_failed_registration :
    (run (C := Nat) [.begin (.register ⟨1⟩), .go 0 .failed, .go 0 .go]).canceled = false ∧
      (run (C := Nat) [.begin (.register ⟨1⟩), .go 0 .failed, .go 0 .go]).Attended :=
  ⟨rfl, attended_run _ rfl⟩

end Interplay

end Reconnect.Supervisor
