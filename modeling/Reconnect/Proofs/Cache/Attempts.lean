import Reconnect.Proofs.Cache.LockCall
import Reconnect.Proofs.Execution.Course

/-!
# How an acquisition spends its time

An acquisition pauses after an attempt that found a key taken, and the execution of an attempt
pauses after a failure of the network; both have a deadline. What an acquisition is about to do, or
pauses for, is its `Pose`. `Paces` lists what one step in a pose comes to and what is noted of it,
and `steps` shows that all acquisitions follow it whose attempts end with them (`Apt`).
-/

namespace Reconnect.Execution

variable {S C α : Type} [Site S C]

/-- One step of the execution of an operation that comes to its end at once: the result to which an
attempt comes in it, the world, and the step. -/
inductive Serves (run : World S C → C → World S C × Except Fault α) (w : World S C) (opens : Bool)
    (e : Execution C) :
    Option (Except Fault α) → World S C → Step (Execution C) (Outcome α) → Prop
  /-- It is canceled, or the supervisor has gone. -/
  | leaves {err : CallError Fault} (herr : err ≠ .operationTimeout) :
      Serves run w opens e none w (e.finish (.error err))
  | enter {timeout : Millis} (hp : e.phase = .entering timeout) :
      Serves run w opens e none w
        (.moves { e with deadline := w.now + timeout, phase := .seeking })
  | connect {c : C} (hp : e.phase = .seeking) :
      Serves run w opens e none w
        (.moves { e with attempts := e.attempts + 1, phase := .running c })
  | miss (hp : e.phase = .seeking) :
      Serves run w opens e none w (.moves { e with phase := .resting (w.after e.client.retryWait) })
  | succeed {c : C} {a : α} {w' : World S C} (hp : e.phase = .running c)
      (hr : run w c = (w', .ok a)) :
      Serves run w opens e (some (.ok a)) w' (e.finish (.ok a))
  | retry {c : C} {fault : Fault} {w' : World S C} (hp : e.phase = .running c)
      (hr : run w c = (w', .error fault)) :
      Serves run w opens e (some (.error fault)) w'.report
        (.moves { e with phase := .resting (w'.after e.client.retryWait) })
  | refuse {c : C} {fault : Fault} {w' : World S C} (hp : e.phase = .running c)
      (hr : run w c = (w', .error fault)) :
      Serves run w opens e (some (.error fault)) w' (e.finish (.error (.operation fault)))
  | wake {till : Event} (hp : e.phase = .resting till) (hh : w.hasHappened till = true) :
      Serves run w opens e none w (.moves { e with phase := .seeking })
  | rest {till : Event} (hp : e.phase = .resting till) (hh : w.hasHappened till = false)
      (hd : w.now < e.deadline) (hc : opens = true → w.isCanceled e.client.context = false) :
      Serves run w opens e none w (.waits e)
  | expire {till : Event} (hp : e.phase = .resting till) (hd : e.deadline ≤ w.now) :
      Serves run w opens e none w (e.finish (.error .operationTimeout))

theorem serves_step (run : World S C → C → World S C × Except Fault α) (w : World S C)
    (opens : Bool) (e : Execution C) :
    Serves run w opens e (e.comes? (.atOnce run) w opens) (e.step (.atOnce run) w opens).1
      (e.step (.atOnce run) w opens).2 := by
  have hidle : (∀ c, e.phase ≠ .running c) → e.comes? (.atOnce run) w opens = none := by
    intro hp
    unfold comes?
    split
    case h_1 c hc => exact absurd hc (hp c)
    case h_2 => rfl
  have hruns : ∀ {c}, e.phase = .running c →
      (opens = true → w.isCanceled e.client.context = false) →
      e.comes? (.atOnce run) w opens = some (run w c).2 := by
    intro c hp hc
    simp [comes?, hp, heeds_eq_false hc, Operation.atOnce]
  have hstep : ∀ {c : C} {w₁ : World S C} {r : Except Fault α},
      (Operation.atOnce run).step w c = (w₁, .ends r) → run w c = (w₁, r) := by
    intro c w₁ r hs
    rw [Operation.atOnce, Prod.mk.injEq, Step.ends.injEq] at hs
    exact Prod.ext hs.1 hs.2
  have hg := e.goes_step (.atOnce run) w opens
  generalize (e.step (.atOnce run) w opens).1 = w' at hg
  generalize (e.step (.atOnce run) w opens).2 = s at hg
  cases hg with
  | canceled ho hcan =>
    have hnone : e.comes? (.atOnce run) w opens = none := by
      rcases ho with rfl | ⟨timeout, hp⟩
      · unfold comes? heeds
        rw [hcan]
        split <;> rfl
      · exact hidle (by simp [hp])
    rw [hnone]
    exact .leaves (by simp)
  | enter hp hc =>
    rw [hidle (by simp [hp])]
    exact .enter hp
  | works hc h =>
    cases h with
    | detached hp =>
      rw [hidle (by simp [hp])]
      exact .leaves (by simp)
    | connect hp =>
      rw [hidle (by simp [hp])]
      exact .connect hp
    | miss hp =>
      rw [hidle (by simp [hp])]
      exact .miss hp
    | workWaits _ hs => simp [Operation.atOnce] at hs
    | workMoves _ hs => simp [Operation.atOnce] at hs
    | succeed hp hs =>
      rw [hruns hp hc, hstep hs]
      exact .succeed hp (hstep hs)
    | retry hp hs =>
      rw [hruns hp hc, hstep hs]
      exact .retry hp (hstep hs)
    | refuse hp hs =>
      rw [hruns hp hc, hstep hs]
      exact .refuse hp (hstep hs)
    | wake hp hh =>
      rw [hidle (by simp [hp])]
      exact .wake hp hh
    | rest hp hh =>
      rw [hidle (by simp [hp])]
      rcases waitOrExpire_cases (α := α) w e with ⟨hw, hd⟩ | ⟨hw, hd⟩ <;> rw [hw]
      · exact .rest hp hh hd hc
      · exact .expire hp hd

end Reconnect.Execution

namespace Reconnect.Cache.Acquisition

open Execution

/-- Two worlds at one time. -/
structure Still {S C : Type} (w w' : World S C) : Prop where
  now : w'.now = w.now
  round : w'.round = w.round

theorem Still.after {S C : Type} {w w' : World S C} (h : Still w w') (pause : Millis) :
    w'.after pause = w.after pause := by
  unfold World.after
  rw [h.now, h.round]

variable {S C : Type}

/-! ## Poses -/

/-- What an acquisition is about to do. -/
inductive Pose where
  | entering
  | trying
  /-- It makes an attempt, which comes to a result after so many more steps. -/
  | asking (steps : Nat)
  /-- It pauses amid the execution of an attempt. -/
  | pausing (till : Event)
  /-- It pauses between two attempts. -/
  | resting (till : Event)
  deriving DecidableEq, Repr

def pose (a : Acquisition C) : Pose :=
  match a.phase with
  | .entering => .entering
  | .trying => .trying
  | .asking e =>
    match e.phase with
    | .entering _ => .asking 2
    | .seeking => .asking 1
    | .running _ => .asking 0
    | .resting till => .pausing till
  | .resting till => .resting till

theorem phase_of_resting {a : Acquisition C} {till : Event} (h : a.pose = .resting till) :
    a.phase = .resting till := by
  unfold pose at h
  split at h
  case h_4 hp => rw [hp, Pose.resting.inj h]
  case h_3 => split at h <;> cases h
  all_goals cases h

theorem phase_of_pausing {a : Acquisition C} {till : Event} (h : a.pose = .pausing till) :
    ∃ e, a.phase = .asking e ∧ e.phase = .resting till := by
  unfold pose at h
  split at h
  case h_3 e hp =>
    refine ⟨e, hp, ?_⟩
    split at h
    case h_4 he => rw [he, Pose.pausing.inj h]
    all_goals cases h
  all_goals cases h

/-- An execution that ends with the acquisition for which it makes an attempt. -/
structure Fits (now : Millis) (a : Acquisition C) (e : Execution C) : Prop where
  client : e.client = a.client.client
  begins : ∀ timeout, e.phase = .entering timeout → now + timeout = a.deadline
  deadline : (∀ timeout, e.phase ≠ .entering timeout) → e.deadline = a.deadline

/-- It goes on so if it has begun. -/
theorem Fits.goesOn {now : Millis} {a : Acquisition C} {e : Execution C} (h : Fits now a e)
    (he : ∀ timeout, e.phase ≠ .entering timeout) {attempts : Nat} {phase : Execution.Phase C}
    (hp : ∀ timeout, phase ≠ .entering timeout) : Fits now a { e with attempts, phase } :=
  ⟨h.client, fun timeout ht => absurd ht (hp timeout), fun _ => h.deadline he⟩

/-- An acquisition whose attempts end with it. -/
def Apt (now : Millis) (a : Acquisition C) : Prop := ∀ e, a.phase = .asking e → Fits now a e

/-! ## Notes -/

/-- What is noted of an acquisition, and when. -/
inductive Note where
  /-- It turns to the store. -/
  | tries (t : Millis)
  /-- The store answers that a key is taken, and the acquisition pauses. -/
  | held (t pause : Millis)
  /-- The store answers that the token is written. -/
  | took (t : Millis)
  /-- The store does not answer. -/
  | failed (t : Millis) (fault : Fault)
  deriving DecidableEq, Repr

def Note.time : Note → Millis
  | .tries t | .held t _ | .took t | .failed t _ => t

def Note.isHeld : Note → Bool
  | .held _ _ => true
  | _ => false

/-- The pause that a step comes to. -/
def pauseFrom {ρ : Type} (now : Millis) : Step (Acquisition C) ρ → Millis
  | .moves a =>
    match a.phase with
    | .resting (.time t) => t - now
    | _ => 0
  | _ => 0

/-- What is noted of what an attempt comes to, if it does. -/
def answerNotes (now pause : Millis) : Option (Except Fault Bool) → List Note
  | none => []
  | some (.ok true) => [.took now]
  | some (.ok false) => [.held now pause]
  | some (.error fault) => [.failed now fault]

section Notes

variable [Site S C] [Keeper S C]

/-- What is noted of a step. -/
def notes (w : World (Guarded S) C) (opens : Bool) (a : Acquisition C) : List Note :=
  match a.phase with
  | .trying =>
    match (a.step w opens).2 with
    | .moves _ => [.tries w.now]
    | _ => []
  | .asking e =>
    if opens && stopped w a.context then []
    else
      answerNotes w.now (pauseFrom w.now (a.step w opens).2)
        (e.comes? (offer (lockAt w a.lock).keys a.token a.client.settings.ttl) w opens)
  | _ => []

end Notes

/-! ## What a step comes to -/

section Steps

variable [Site S C]

/-- How an acquisition comes from one pose to the next, and what is noted of it. -/
inductive Leads (w : World (Guarded S) C) (a : Acquisition C) : Pose → List Note → Pose → Prop
  | tries (hd : w.now < a.deadline) : Leads w a .trying [.tries w.now] (.asking 2)
  | asks (steps : Nat) : Leads w a (.asking (steps + 1)) [] (.asking steps)
  | misses : Leads w a (.asking 1) [] (.pausing (w.after a.client.client.retryWait))
  | retries (fault : Fault) :
      Leads w a (.asking 0) [.failed w.now fault] (.pausing (w.after a.client.client.retryWait))
  | held (roll : Nat) {pause : Millis}
      (hpause : pause = min (a.client.pause roll) (a.deadline - w.now)) :
      Leads w a (.asking 0) [.held w.now pause] (.resting (w.after pause))
  | resumes {till : Event} (hh : w.hasHappened till = true) :
      Leads w a (.pausing till) [] (.asking 1)
  | wakes {till : Event} (hh : w.hasHappened till = true) : Leads w a (.resting till) [] .trying

theorem Leads.ne_entering {w : World (Guarded S) C} {a : Acquisition C} {p p' : Pose}
    {notes : List Note} (h : Leads w a p notes p') : p ≠ .entering ∧ p' ≠ .entering := by
  cases h <;> exact ⟨nofun, nofun⟩

variable [Keeper S C]

/-- What is noted of one step of an acquisition, and what the step comes to. -/
inductive Paces (w : World (Guarded S) C) (opens : Bool) (a : Acquisition C) :
    List Note → Step (Acquisition C) (Except (LockError Fault) Unit) → Prop
  /-- It is canceled, or not begun. -/
  | leaves {e : LockError Fault} (he : e = .canceled ∨ e = .locksAlreadyAcquired) :
      Paces w opens a [] (.ends (.error e))
  | fails {notes : List Note} {e : CallError Fault}
      (hp : a.pose ≠ .entering ∧ a.pose ≠ .trying ∧ ∀ till, a.pose ≠ .resting till)
      (hn : notes = [] ∨ ∃ fault, notes = [.failed w.now fault]) :
      Paces w opens a notes (.ends (.error (.client e)))
  | takes (hp : a.pose = .asking 0) : Paces w opens a [.took w.now] (.ends (.ok ()))
  | expires (hp : a.pose ≠ .entering) (hd : a.deadline ≤ w.now) :
      Paces w opens a [] (.ends (.error .lockAcquireTimeout))
  | enters {a' : Acquisition C} (hp : a.pose = .entering) (hc : a'.client = a.client)
      (hd : a'.deadline = w.now + a.client.settings.acquireTimeout) (hp' : a'.pose = .trying) :
      Paces w opens a [] (.moves a')
  | goesOn {notes : List Note} {a' : Acquisition C} (hl : Leads w a a.pose notes a'.pose)
      (hc : a'.client = a.client) (hd : a'.deadline = a.deadline) :
      Paces w opens a notes (.moves a')
  /-- Nothing that it waits for has come about. -/
  | waits {till : Event}
      (hp : a.pose = .pausing till ∧ w.now < a.deadline ∨ a.pose = .resting till)
      (hw : opens = true → ∀ event ∈ a.wakes (S := S), w.hasHappened event = false) :
      Paces w opens a [] (.waits a)

/-- What one step of an acquisition does: the clock stands still, and attempts still end with it. -/
structure Steps (w : World (Guarded S) C) (opens : Bool) (a : Acquisition C) : Prop where
  still : Still w (a.step w opens).1
  paces : Paces w opens a (a.notes w opens) (a.step w opens).2
  apt : ∀ a', (a.step w opens).2 = .moves a' → a'.Apt w.now

theorem Steps.of {w w' : World (Guarded S) C} {opens : Bool} {a : Acquisition C}
    {s : Step (Acquisition C) (Except (LockError Fault) Unit)} {noted : List Note}
    (hstep : a.step w opens = (w', s)) (hn : a.notes w opens = noted) (hw : Still w w')
    (hp : Paces w opens a noted s) (ha : ∀ a', s = .moves a' → a'.Apt w.now) : Steps w opens a where
  still := by
    rw [hstep]
    exact hw
  paces := by
    rw [hstep, hn]
    exact hp
  apt := by
    rw [hstep]
    exact ha

theorem Steps.of_ends {w w' : World (Guarded S) C} {opens : Bool} {a : Acquisition C}
    {r : Except (LockError Fault) Unit} {noted : List Note}
    (hstep : a.step w opens = (w', .ends r)) (hn : a.notes w opens = noted) (hw : Still w w')
    (hp : Paces w opens a noted (.ends r)) : Steps w opens a :=
  .of hstep hn hw hp (by simp)

/-- The execution of an attempt goes on. -/
theorem Steps.of_attempt {w w' : World (Guarded S) C} {opens : Bool} {a : Acquisition C}
    {e e' : Execution C} {noted : List Note} (hp : a.phase = .asking e)
    (hstop : ¬ (opens && stopped w a.context) = true)
    (hr : e.step (offer (lockAt w a.lock).keys a.token a.client.settings.ttl) w opens =
      (w', .moves e')) (hn : a.notes w opens = noted) (hw : Still w w')
    (hl : Leads w a a.pose noted (pose { a with phase := .asking e' })) (h : Fits w.now a e') :
    Steps w opens a := by
  have hstep : a.step w opens = (w', .moves { a with phase := .asking e' }) := by
    simp [step, hp, hstop, hr]
  refine .of hstep hn hw (.goesOn hl rfl rfl) ?_
  rintro a' ⟨⟩ e₁ ⟨⟩
  exact ⟨h.client, h.begins, h.deadline⟩

omit [Site S C] [Keeper S C] in
theorem pauseFrom_resting {ρ : Type} {w w' : World (Guarded S) C} (hw : Still w w')
    {a : Acquisition C} {pause : Millis} (hp : a.phase = .resting (w'.after pause)) :
    pauseFrom w.now (.moves a : Step (Acquisition C) ρ) = pause := by
  rw [hw.after] at hp
  simp only [pauseFrom, hp, World.after]
  split
  case h_1 t ht =>
    split at ht
    case isTrue => cases ht
    case isFalse =>
      cases ht
      exact Nat.add_sub_cancel_left ..
  case h_2 hne =>
    split at hne
    case isTrue hp => exact hp.symm
    case isFalse => exact absurd rfl (hne _)

omit [Keeper S C] in
theorem not_hasHappened_cancellation {w : World (Guarded S) C} {context : Option String}
    (h : stopped w context = false) {event : Event}
    (hmem : event ∈ context.toList.map .cancellation) : w.hasHappened event = false := by
  cases context with
  | none => cases hmem
  | some context =>
    obtain rfl := List.mem_singleton.1 hmem
    exact h

omit [Keeper S C] in
/-- A round that has not come about before the deadline has not been missed at the deadline. -/
theorem not_hasHappened_latest {w : World (Guarded S) C} {a : Acquisition C} {till event : Event}
    (h : w.hasHappened till = false) (hmem : event ∈ a.latest till) :
    w.hasHappened event = false := by
  cases till with
  | round t n =>
    rw [latest] at hmem
    split at hmem
    case isTrue hlt =>
      obtain rfl := List.mem_singleton.1 hmem
      simp only [World.hasHappened, Bool.or_eq_false_iff, decide_eq_false_iff_not] at h ⊢
      exact fun hle => h.1 (Nat.lt_of_lt_of_le hlt hle)
    case isFalse => cases hmem
  | _ => cases hmem

/-- Nothing that it waits for has come about if it pauses amid an execution. -/
theorem not_hasHappened_pausing {w : World (Guarded S) C} {a : Acquisition C} {e : Execution C}
    {till event : Event} (hp : a.phase = .asking e) (he : e.phase = .resting till)
    (hstop : stopped w a.context = false) (hc : w.isCanceled e.client.context = false)
    (hd : w.now < e.deadline) (hh : w.hasHappened till = false)
    (hmem : event ∈ a.wakes (S := S)) : w.hasHappened event = false := by
  rw [wakes, hp] at hmem
  rcases List.mem_append.1 hmem with hmem | hmem
  · exact not_hasHappened_cancellation hstop hmem
  · simp only [Execution.wakes, he, List.mem_cons, List.not_mem_nil, or_false] at hmem
    rcases hmem with rfl | rfl | rfl
    · exact hc
    · exact decide_eq_false (Nat.not_le_of_lt hd)
    · exact hh

/-- The steps of an attempt. -/
theorem steps_asking (w : World (Guarded S) C) (opens : Bool) {a : Acquisition C}
    {e : Execution C} (hp : a.phase = .asking e) (h : Fits w.now a e) : Steps w opens a := by
  obtain ⟨run, hoffer, hstill⟩ : ∃ run,
      offer (lockAt w a.lock).keys a.token a.client.settings.ttl = .atOnce run ∧
        ∀ (w : World (Guarded S) C) (c : C), Still w (run w c).1 :=
    ⟨_, rfl, fun _ _ => ⟨rfl, rfl⟩⟩
  have hran : ∀ {c w' result}, run w c = (w', result) → Still w w' := by
    intro c w' result hr
    have hw := hstill w c
    rw [hr] at hw
    exact hw
  by_cases hstop : (opens && stopped w a.context) = true
  · have hstep : a.step w opens = (changeLock w a.lock Lock.giveUp, .ends (.error .canceled)) := by
      simp [step, fail, hp, hstop]
    have hn : a.notes w opens = [] := by simp [notes, hp, hstop]
    exact .of_ends hstep hn ⟨rfl, rfl⟩ (.leaves (.inl rfl))
  · have hserves := serves_step run w opens e
    rcases hr : e.step (.atOnce run) w opens with ⟨w', s⟩
    rw [hr] at hserves
    dsimp only at hserves
    have hnotes : ∀ {result}, e.comes? (.atOnce run) w opens = result →
        a.notes w opens = answerNotes w.now (pauseFrom w.now (a.step w opens).2) result := by
      rintro result rfl
      simp only [notes, hp, hoffer, if_neg hstop]
    have hgoes := hoffer ▸ hr
    have hasking : ∀ {phase : Execution.Phase C}, e.phase = phase → a.pose = pose { a with
        phase := .asking { e with phase } } := by
      rintro phase rfl
      simp only [pose, hp]
    have hunder : a.pose ≠ .entering ∧ a.pose ≠ .trying ∧ ∀ till, a.pose ≠ .resting till := by
      rw [pose, hp]
      dsimp only
      split <;> simp
    generalize hcomes : e.comes? (.atOnce run) w opens = result at hserves
    have hn := hnotes hcomes
    cases hserves with
    | @leaves err herr =>
      have hstep : a.step w opens =
          (changeLock w a.lock Lock.giveUp, .ends (.error (.client err))) := by
        cases err with
        | operationTimeout => exact absurd rfl herr
        | _ => simp [step, fail, hp, hstop, hoffer, hr, finish]
      exact .of_ends hstep hn ⟨rfl, rfl⟩ (.fails hunder (.inl rfl))
    | enter he =>
      refine .of_attempt hp hstop hgoes hn ⟨rfl, rfl⟩ ?_
        ⟨h.client, by simp, fun _ => h.begins _ he⟩
      rw [hasking he]
      exact .asks 1
    | connect he =>
      refine .of_attempt hp hstop hgoes hn ⟨rfl, rfl⟩ ?_ (h.goesOn (by simp [he]) (by simp))
      rw [hasking he]
      exact .asks 0
    | miss he =>
      refine .of_attempt hp hstop hgoes hn ⟨rfl, rfl⟩ ?_ (h.goesOn (by simp [he]) (by simp))
      rw [hasking he, h.client]
      exact .misses
    | @succeed c granted w' he hrun =>
      have hw := hran hrun
      have hroll : Still w w'.roll.1 := ⟨hw.now, hw.round⟩
      cases granted with
      | true =>
        have hstep : a.step w opens =
            (changeLock w' a.lock (Lock.take · a.token w'.now), .ends (.ok ())) := by
          simp [step, hp, hstop, hoffer, hr, finish]
        exact .of_ends hstep hn ⟨hw.now, hw.round⟩ (.takes (hasking he))
      | false =>
        have hstep : a.step w opens =
            (w'.roll.1, .moves { a with
              phase := .resting (w'.roll.1.after
                (min (a.client.pause w'.roll.2) (a.deadline - w'.now))) }) := by
          simp [step, hp, hstop, hoffer, hr, finish]
          rfl
        rw [hstep, pauseFrom_resting hroll rfl] at hn
        refine .of hstep hn hroll (.goesOn ?_ rfl rfl) ?_
        · rw [hasking he, hroll.after]
          exact .held w'.roll.2 (by rw [hw.now])
        · rintro a' ⟨⟩ e' ⟨⟩
    | retry he hrun =>
      have hw := hran hrun
      refine .of_attempt hp hstop hgoes hn ?_ ?_ (h.goesOn (by simp [he]) (by simp))
      · exact ⟨(report_now _).trans hw.now, (report_round _).trans hw.round⟩
      · rw [hasking he, h.client, hw.after]
        exact .retries _
    | @refuse c fault w' he hrun =>
      have hstep : a.step w opens =
          (changeLock w' a.lock Lock.giveUp, .ends (.error (.client (.operation fault)))) := by
        simp [step, fail, hp, hstop, hoffer, hr, finish]
      have hw := hran hrun
      exact .of_ends hstep hn ⟨hw.now, hw.round⟩ (.fails hunder (.inr ⟨fault, rfl⟩))
    | wake he hh =>
      refine .of_attempt hp hstop hgoes hn ⟨rfl, rfl⟩ ?_ (h.goesOn (by simp [he]) (by simp))
      rw [hasking he]
      exact .resumes hh
    | rest he hh hd hc =>
      have hself : { a with phase := .asking e } = a := by rw [← hp]
      have hstep : a.step w opens = (w, .waits { a with phase := .asking e }) := by
        simp [step, hp, hstop, hoffer, hr]
      rw [hself] at hstep
      have hlimit : e.deadline = a.deadline := h.deadline (by simp [he])
      refine .of hstep hn ⟨rfl, rfl⟩ (.waits (.inl ⟨hasking he, hlimit ▸ hd⟩) ?_) (by simp)
      rintro rfl event hmem
      exact not_hasHappened_pausing hp he (by simpa using hstop) (hc rfl) hd hh hmem
    | expire he hd =>
      have hstep : a.step w opens =
          (changeLock w a.lock Lock.giveUp, .ends (.error .lockAcquireTimeout)) := by
        simp [step, fail, hp, hstop, hoffer, hr, finish]
      refine .of_ends hstep hn ⟨rfl, rfl⟩ (.expires hunder.1 ?_)
      rw [← h.deadline (by simp [he])]
      exact hd

/-- A cancellation is not noted. -/
theorem notes_of_stopped {w : World (Guarded S) C} {opens : Bool} {a : Acquisition C}
    (ho : opens = true) (hc : stopped w a.context = true) : a.notes w opens = [] := by
  unfold notes
  split
  case h_1 hp => simp [step, fail, hp, ho, hc]
  case h_2 => rw [ho, hc]; rfl
  case h_3 => rfl

theorem steps (w : World (Guarded S) C) (opens : Bool) {a : Acquisition C} (h : a.Apt w.now) :
    Steps w opens a := by
  have hg := a.goes_step w opens
  rcases hstep : a.step w opens with ⟨w', s⟩
  rw [hstep] at hg
  dsimp only at hg
  cases hg with
  | busy hp =>
    exact .of_ends hstep (by simp [notes, hp]) ⟨rfl, rfl⟩ (.leaves (.inr rfl))
  | enterStopped hp =>
    exact .of_ends hstep (by simp [notes, hp]) ⟨rfl, rfl⟩ (.leaves (.inl rfl))
  | enter hp =>
    refine .of hstep (by simp [notes, hp]) ⟨rfl, rfl⟩ (.enters (by rw [pose, hp]) rfl rfl rfl) ?_
    rintro a' ⟨⟩ e ⟨⟩
  | stop _ ho hc => exact .of_ends hstep (notes_of_stopped ho hc) ⟨rfl, rfl⟩ (.leaves (.inl rfl))
  | expire hp hc hd =>
    have hpose : a.pose ≠ .entering := by simp [pose, hp]
    exact .of_ends hstep (by simp [notes, hp, hstep]) ⟨rfl, rfl⟩ (.expires hpose hd)
  | ask hp hc hd =>
    have hpose : a.pose = .trying := by rw [pose, hp]
    have hn : a.notes w opens = [.tries w.now] := by simp [notes, hp, hstep]
    refine .of hstep hn ⟨rfl, rfl⟩ (.goesOn ?_ rfl rfl) ?_
    · rw [hpose]
      exact .tries hd
    · rintro a' ⟨⟩ e ⟨⟩
      refine ⟨rfl, ?_, fun hne => absurd rfl (hne _)⟩
      rintro timeout ⟨⟩
      exact Nat.add_sub_cancel' (Nat.le_of_lt hd)
  | @wake till hp hc hh =>
    have hpose : a.pose = .resting till := by rw [pose, hp]
    have hn : a.notes w opens = [] := by simp [notes, hp]
    refine .of hstep hn ⟨rfl, rfl⟩ (.goesOn ?_ rfl rfl) ?_
    · rw [hpose]
      exact .wakes hh
    · rintro a' ⟨⟩ e ⟨⟩
  | @rest till hp hc hh =>
    have hpose : a.pose = .resting till := by rw [pose, hp]
    refine .of hstep (by simp [notes, hp]) ⟨rfl, rfl⟩ (.waits (.inr hpose) ?_) (by simp)
    rintro rfl event hmem
    rw [wakes, hp] at hmem
    rcases List.mem_append.1 hmem with hmem | hmem
    · exact not_hasHappened_cancellation (hc rfl) hmem
    · rcases List.mem_cons.1 hmem with rfl | hmem
      · exact hh
      · exact not_hasHappened_latest hh hmem
  | askWaits hp => exact steps_asking w opens hp (h _ hp)
  | askMoves hp => exact steps_asking w opens hp (h _ hp)
  | take hp => exact steps_asking w opens hp (h _ hp)
  | takeNot hp => exact steps_asking w opens hp (h _ hp)
  | outOfTime hp => exact steps_asking w opens hp (h _ hp)
  | askFailed hp => exact steps_asking w opens hp (h _ hp)

end Steps

end Reconnect.Cache.Acquisition
