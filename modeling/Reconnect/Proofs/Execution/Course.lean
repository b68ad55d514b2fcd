import Reconnect.Proofs.Execution
import Reconnect.Proofs.Lists
import Reconnect.Proofs.Supervisor.Rules
import Reconnect.Rehearsal.Behaviour
import Reconnect.Rehearsal.Network
import Reconnect.Schedule.Session

/-!
# The course of an execution

An execution goes through attempts. Each of them begins on a connection of the client, while the
context has not been canceled, within the time of the execution, and after the pause that is due to
the failure before it. All attempts but the last fail because of the network, which the supervisor
is told; what the last one comes to is the result, unless the time is up, the context is canceled
or the supervisor is gone (`lawful_run`).

Between two turns of the execution anything may happen in the world (`Passes`): it is only asked
that the clock does not leave behind a time that the execution waits for, and that the supervisor
stays while an attempt runs. The schedule keeps to that (`passes_goOn`). Within a turn nothing
happens but that the supervisor goes when nobody holds it any more.
-/

namespace Reconnect.Execution

variable {S C K α : Type} [Site S C]

/-! ## Courses -/

/-- What happens to the attempts of an execution. -/
inductive Note (S C α : Type) where
  /-- An attempt begins in a world, on a connection. -/
  | began (w : World S C) (c : C)
  /-- An attempt comes to a result and leaves a world behind. -/
  | came (w : World S C) (result : Except Fault α)

/-- Whether a step opens a turn in which a cancellation is noticed. -/
def heeds (w : World S C) (opens : Bool) (e : Execution K) : Bool :=
  opens && w.isCanceled e.client.context

/-- The connection on which an attempt begins in the next step. -/
def begins? (w : World S C) (opens : Bool) (e : Execution K) : Option C :=
  match e.phase with
  | .seeking => if heeds w opens e then none else w.connection? e.client.id
  | _ => none

/-- The result to which the attempt comes in the next step. -/
def comes? (op : Operation (World S C) C K α) (w : World S C) (opens : Bool) (e : Execution K) :
    Option (Except Fault α) :=
  match e.phase with
  | .running state =>
    if heeds w opens e then none
    else
      match (op.step w state).2 with
      | .ends result => some result
      | _ => none
  | _ => none

/-- What is noted of a step. -/
def notes (op : Operation (World S C) C K α) (w : World S C) (opens : Bool) (e : Execution K) :
    List (Note S C α) :=
  (begins? w opens e).toList.map (.began w) ++
    (comes? op w opens e).toList.map (.came (e.step op w opens).1)

/-- An execution on its way, or its outcome. -/
structure Course (S C K α : Type) where
  world : World S C
  call : Execution K ⊕ Outcome α
  /-- Whether a turn of the execution has been opened and has not ended. -/
  amid : Bool := true
  log : List (Note S C α) := []

namespace Course

/-- The execution takes a step. Unless it is amid a turn, the step opens one. -/
def work (op : Operation (World S C) C K α) (y : Course S C K α) : Course S C K α :=
  match y.call with
  | .inl e =>
    let r := e.step op y.world (!y.amid)
    let log := y.log ++ e.notes op y.world (!y.amid)
    match r.2 with
    | .waits e => { world := r.1, call := .inl e, amid := false, log }
    | .moves e => { world := r.1, call := .inl e, amid := true, log }
    | .ends o => { world := r.1, call := .inr o, amid := false, log }
  | .inr _ => y

end Course

/-- What may happen in the world between two turns of an execution. -/
structure Passes (op : Operation (World S C) C K α) (e : Execution K) (w w' : World S C) :
    Prop where
  /-- While an attempt runs, the supervisor stays. -/
  held : e.holds = true → w.attached = true → w'.attached = true
  forth : w.now ≤ w'.now
  /-- The clock stops at every time that the execution waits for. -/
  timely : ∀ t, .time t ∈ e.wakes op → w'.now ≤ max w.now t

/-- What an execution that begins in a world may have come to. -/
inductive Reached (op : Operation (World S C) C K α) (w₀ : World S C) (client : Client)
    (timeout : Millis) : Course S C K α → Prop
  | begins : Reached op w₀ client timeout { world := w₀, call := .inl (start client timeout) }
  | works {y : Course S C K α} (h : Reached op w₀ client timeout y) :
      Reached op w₀ client timeout (y.work op)
  | passes {y : Course S C K α} {e : Execution K} {w : World S C}
      (h : Reached op w₀ client timeout y) (hc : y.call = .inl e) (ha : y.amid = false)
      (hp : Passes op e y.world w) : Reached op w₀ client timeout { y with world := w }
  /-- Nothing holds the supervisor any more. -/
  | detaches {y : Course S C K α} {e : Execution K} (h : Reached op w₀ client timeout y)
      (hc : y.call = .inl e) (hh : e.holds = false) :
      Reached op w₀ client timeout { y with world := { y.world with attached := false } }

/-- An operation whose steps take no time and leave the supervisor where it is. An attempt takes
time by waiting. -/
structure Calm (op : Operation (World S C) C K α) : Prop where
  now : ∀ w state, (op.step w state).1.now = w.now
  attached : ∀ w state, (op.step w state).1.attached = w.attached

/-! ## The law -/

/-- Attempts that have all failed because of the network, as the supervisor was told. -/
inductive Retried : List (Note S C α) → Prop
  | nil : Retried []
  | retry {log : List (Note S C α)} (h : Retried log) (w : World S C) (c : C) {w' : World S C}
      {fault : Fault} (hf : fault.isNetwork = true) (ha : w'.attached = true) :
      Retried (log ++ [.began w c, .came w'.report (.error fault)])

/-- Attempts that have all failed because of the network, but for one that may be on its way. -/
def Pending (log : List (Note S C α)) : Prop :=
  Retried log ∨ ∃ before w c, log = before ++ [.began w c] ∧ Retried before

/-- Attempts of which the last one has come to a result, and the others have failed because of the
network. -/
def Came (result : Except Fault α) (log : List (Note S C α)) : Prop :=
  ∃ before w c w', log = before ++ [.began w c, .came w' result] ∧ Retried before

/-- Whether an attempt may begin in a world, on a connection. -/
structure MayBegin (w₀ : World S C) (client : Client) (timeout : Millis)
    (before : List (Note S C α)) (w : World S C) (c : C) : Prop where
  connected : w.connection? client.id = some c
  uncanceled : w.isCanceled client.context = false
  inTime : w.now ≤ w₀.now + timeout
  /-- The pause after every attempt before it is over. -/
  rested : ∀ w' result, .came w' result ∈ before → w'.now + client.retryWait ≤ w.now

/-- What a result says about the world and the attempts at the end of an execution. -/
def Explains (w₀ : World S C) (client : Client) (timeout : Millis) (w : World S C)
    (log : List (Note S C α)) : Except (CallError Fault) α → Prop
  | .ok a => Came (.ok a) log
  | .error (.operation fault) => fault.isNetwork = false ∧ Came (.error fault) log
  | .error .operationTimeout => w.now = w₀.now + timeout ∧ Pending log
  | .error .contextCanceled => w.isCanceled client.context = true ∧ Pending log
  | .error .clientDetached => w.attached = false ∧ Retried log

/-- Whether a note is about the beginning of an attempt. -/
def Note.isBeginning : Note S C α → Bool
  | .began _ _ => true
  | .came _ _ => false

/-- What an execution may have come to. -/
structure Lawful (op : Operation (World S C) C K α) (w₀ : World S C) (client : Client)
    (timeout : Millis) (y : Course S C K α) : Prop where
  /-- An attempt begins only when it may. -/
  due : ∀ before w c after, y.log = before ++ .began w c :: after →
    MayBegin w₀ client timeout before w c
  /-- While the execution is on its way, its attempts have failed because of the network. -/
  pending : ∀ e, y.call = .inl e → Pending y.log
  /-- Its time is not over, -/
  inTime : ∀ e, y.call = .inl e → y.world.now ≤ w₀.now + timeout
  /-- and once it is up, the execution does not wait any more. -/
  lastTurn : ∀ e, y.call = .inl e → w₀.now + timeout ≤ y.world.now →
    ∀ e', (e.step op y.world (!y.amid)).2 ≠ .waits e'
  ending : ∀ o, y.call = .inr o → o.attempts = y.log.countP Note.isBeginning ∧
    Explains w₀ client timeout y.world y.log o.result
  /-- If the context was canceled before, the first step is the last one and there is no attempt. -/
  canceledBefore : w₀.isCanceled client.context = true →
    y.log = [] ∧ (y.work op).call = .inr ⟨0, .error .contextCanceled⟩

/-! ## What is noted of a step -/

section Notes

variable {op : Operation (World S C) C K α} {w : World S C} {opens : Bool} {e : Execution K}

omit [Site S C] in
theorem heeds_eq_false (hc : opens = true → w.isCanceled e.client.context = false) :
    heeds w opens e = false := by
  cases opens with
  | false => rfl
  | true => exact hc rfl

theorem notes_of_heeds (h : heeds w opens e = true) : notes op w opens e = [] := by
  unfold notes begins? comes?
  cases e.phase <;> simp [h]

theorem notes_of_entering {timeout : Millis} (hp : e.phase = .entering timeout) :
    notes op w opens e = [] := by
  simp [notes, begins?, comes?, hp]

theorem notes_of_resting {till : Event} (hp : e.phase = .resting till) :
    notes op w opens e = [] := by
  simp [notes, begins?, comes?, hp]

theorem notes_of_seeking (hp : e.phase = .seeking) (hh : heeds w opens e = false) :
    notes op w opens e = (w.connection? e.client.id).toList.map (.began w) := by
  simp [notes, begins?, comes?, hp, hh]

theorem notes_of_running {state : K} (hp : e.phase = .running state)
    (hh : heeds w opens e = false) :
    notes op w opens e =
      match (op.step w state).2 with
      | .ends result => [.came (e.step op w opens).1 result]
      | _ => [] := by
  simp only [notes, begins?, comes?, hp, hh]
  cases (op.step w state).2 <;> rfl

end Notes

/-! ## Clocks and pauses -/

section Clock

variable {w w' : World S C} {pause : Millis}

/-- A pause that is over has lasted its time. -/
theorem le_of_hasHappened_after (h : w'.hasHappened (w.after pause) = true) :
    w.now + pause ≤ w'.now := by
  unfold World.after at h
  split at h
  case isTrue hp =>
    simp only [World.hasHappened, Bool.or_eq_true, decide_eq_true_eq, Bool.and_eq_true,
      beq_iff_eq] at h
    subst hp
    exact h.elim Nat.le_of_lt fun h => Nat.le_of_eq h.1
  case isFalse hp => simpa [World.hasHappened] using h

/-- A pause that has just begun is not over. -/
theorem not_hasHappened_after (hn : w'.now = w.now) (hr : w'.round = w.round) :
    w'.hasHappened (w.after pause) = false := by
  unfold World.after
  split
  case isTrue hp => simp [World.hasHappened, hn, hr]
  case isFalse hp =>
    have hlt : w'.now < w.now + pause := by
      rw [hn]
      exact Nat.lt_add_of_pos_right (Nat.pos_of_ne_zero hp)
    exact decide_eq_false (Nat.not_le_of_lt hlt)

@[simp] theorem report_now (w : World S C) : w.report.now = w.now := by
  unfold World.report
  split <;> rfl

@[simp] theorem report_round (w : World S C) : w.report.round = w.round := by
  unfold World.report
  split <;> rfl

end Clock

/-! ## Where an execution stands -/

/-- Every attempt that has begun could begin. -/
def Due (w₀ : World S C) (client : Client) (timeout : Millis) (log : List (Note S C α)) : Prop :=
  ∀ before w c after, log = before ++ .began w c :: after → MayBegin w₀ client timeout before w c

/-- Where an execution stands in its phase, given what has been noted. -/
inductive AtPhase (w₀ : World S C) (client : Client) (timeout : Millis) (y : Course S C K α) :
    Phase K → Prop
  | entering (hl : y.log = []) (ha : y.amid = true) (hn : y.world.now = w₀.now) :
      AtPhase w₀ client timeout y (.entering timeout)
  | seeking (hl : Retried y.log) (ha : y.amid = true)
      (hc : y.world.isCanceled client.context = false)
      (hr : ∀ w result, .came w result ∈ y.log → w.now + client.retryWait ≤ y.world.now) :
      AtPhase w₀ client timeout y .seeking
  | running (state : K) {before : List (Note S C α)} {w : World S C} {c : C}
      (hl : y.log = before ++ [.began w c]) (hb : Retried before)
      (ha : y.world.attached = true) : AtPhase w₀ client timeout y (.running state)
  | resting {till : Event} (hl : Retried y.log) {w₁ : World S C}
      (ht : till = w₁.after client.retryWait)
      (hle : ∀ w result, .came w result ∈ y.log → w.now ≤ w₁.now)
      (ha : y.amid = true → y.world.hasHappened till = false) :
      AtPhase w₀ client timeout y (.resting till)

/-- Where an execution stands that is on its way. -/
structure Stands (w₀ : World S C) (client : Client) (timeout : Millis) (y : Course S C K α)
    (e : Execution K) : Prop where
  owner : e.client = client
  attempts : e.attempts = y.log.countP Note.isBeginning
  deadline : (∀ t, e.phase ≠ .entering t) → e.deadline = w₀.now + timeout
  inTime : y.world.now ≤ w₀.now + timeout
  past : ∀ w result, .came w result ∈ y.log → w.now ≤ y.world.now
  phase : AtPhase w₀ client timeout y e.phase

/-- What holds of every course. -/
structure Sound (w₀ : World S C) (client : Client) (timeout : Millis) (y : Course S C K α) :
    Prop where
  due : Due w₀ client timeout y.log
  stands : ∀ e, y.call = .inl e → Stands w₀ client timeout y e
  ending : ∀ o, y.call = .inr o → o.attempts = y.log.countP Note.isBeginning ∧
    Explains w₀ client timeout y.world y.log o.result

section Due

variable {w₀ : World S C} {client : Client} {timeout : Millis} {log : List (Note S C α)}

omit [Site S C] in
theorem Due.came (h : Due w₀ client timeout log) (w : World S C) (result : Except Fault α) :
    Due w₀ client timeout (log ++ [.came w result]) := by
  intro before w' c after he
  rcases eq_of_concat_eq he with ⟨hx, -⟩ | ⟨after, -, hlog⟩
  · cases hx
  · exact h before w' c after hlog

omit [Site S C] in
theorem Due.began (h : Due w₀ client timeout log) {w : World S C} {c : C}
    (hb : MayBegin w₀ client timeout log w c) : Due w₀ client timeout (log ++ [.began w c]) := by
  intro before w' c' after he
  rcases eq_of_concat_eq he with ⟨hx, rfl, -⟩ | ⟨after, -, hlog⟩
  · cases hx
    exact hb
  · exact h before w' c' after hlog

end Due

namespace Stands

variable {w₀ w : World S C} {client : Client} {timeout : Millis} {y : Course S C K α}
  {e e' : Execution K}

/-- An execution that goes on, with nothing new to note. -/
theorem goesOn (h : Stands w₀ client timeout y e) {amid : Bool} (hn : w.now = y.world.now)
    (ho : e'.client = e.client) (ha : e'.attempts = e.attempts)
    (hd : e'.deadline = w₀.now + timeout)
    (hp : AtPhase w₀ client timeout
      { world := w, call := .inl e', amid, log := y.log } e'.phase) :
    Stands w₀ client timeout { world := w, call := .inl e', amid, log := y.log } e' where
  owner := ho.trans h.owner
  attempts := ha.trans h.attempts
  deadline _ := hd
  inTime := hn ▸ h.inTime
  past := hn ▸ h.past
  phase := hp

theorem atPhase (h : Stands w₀ client timeout y e) {phase : Phase K} (hp : e.phase = phase) :
    AtPhase w₀ client timeout y phase :=
  hp ▸ h.phase

theorem retried (h : Stands w₀ client timeout y e) (hp : ∀ state, e.phase ≠ .running state) :
    Retried y.log := by
  cases hph : e.phase with
  | entering t =>
    cases h.atPhase hph with
    | entering hl => exact hl ▸ .nil
  | seeking =>
    cases h.atPhase hph with
    | seeking hl => exact hl
  | running state => exact absurd hph (hp state)
  | resting till =>
    cases h.atPhase hph with
    | resting hl => exact hl

theorem pending (h : Stands w₀ client timeout y e) : Pending y.log := by
  cases hph : e.phase with
  | running state =>
    cases h.atPhase hph with
    | running _ hl hb => exact .inr ⟨_, _, _, hl, hb⟩
  | _ => exact .inl (h.retried (by simp [hph]))

end Stands

/-- The course after a step and its notes. -/
def Course.after (y : Course S C K α) (w : World S C) (notes : List (Note S C α)) :
    Step (Execution K) (Outcome α) → Course S C K α
  | .waits e => { world := w, call := .inl e, amid := false, log := y.log ++ notes }
  | .moves e => { world := w, call := .inl e, amid := true, log := y.log ++ notes }
  | .ends o => { world := w, call := .inr o, amid := false, log := y.log ++ notes }

theorem Course.work_eq (op : Operation (World S C) C K α) {y : Course S C K α} {e : Execution K}
    (hc : y.call = .inl e) :
    y.work op = y.after (e.step op y.world (!y.amid)).1 (e.notes op y.world (!y.amid))
      (e.step op y.world (!y.amid)).2 := by
  rw [work, hc]
  dsimp only
  cases (e.step op y.world (!y.amid)).2 <;> rfl

namespace Sound

variable {op : Operation (World S C) C K α} {w₀ w' : World S C} {client : Client}
  {timeout : Millis} {log : List (Note S C α)} {y : Course S C K α} {e : Execution K}

theorem of_stands {amid : Bool} (hd : Due w₀ client timeout log)
    (h : Stands w₀ client timeout { world := w', call := .inl e, amid, log } e) :
    Sound w₀ client timeout { world := w', call := .inl e, amid, log } where
  due := hd
  stands e' he := by
    cases he
    exact h
  ending := nofun

theorem of_ending {o : Outcome α} (hd : Due w₀ client timeout log)
    (ha : o.attempts = log.countP Note.isBeginning)
    (h : Explains w₀ client timeout w' log o.result) :
    Sound w₀ client timeout
      ({ world := w', call := .inr o, amid := false, log } : Course S C K α) where
  due := hd
  stands := nofun
  ending o' ho := by
    cases ho
    exact ⟨ha, h⟩

/-- An execution that would wait goes on if its time is not up, and else it ends just in time. -/
theorem waitOrExpire (hd : Due w₀ client timeout log) (he : e.deadline = w₀.now + timeout)
    (h : Stands w₀ client timeout { world := w', call := .inl e, amid := false, log } e) :
    Sound w₀ client timeout
      (Course.after { y with log } w' [] (Execution.waitOrExpire w' e)) := by
  rcases waitOrExpire_cases (α := α) w' e with ⟨hw, -⟩ | ⟨hw, hlate⟩ <;> rw [hw]
  · rw [Course.after, List.append_nil]
    exact of_stands hd h
  · rw [finish, Course.after, List.append_nil]
    rw [he] at hlate
    exact of_ending hd h.attempts ⟨Nat.le_antisymm h.inTime hlate, h.pending⟩

/-- What holds of a course is kept by the work of an execution that is not canceled. The cases are
the rules by which it goes on; something is noted where an attempt begins or comes to a result. -/
theorem of_works (h : Sound w₀ client timeout y) (hop : Calm op) (hc : y.call = .inl e)
    (hcan : (!y.amid) = true → y.world.isCanceled e.client.context = false)
    {s : Step (Execution K) (Outcome α)} (hw : Works op y.world e w' s)
    (hr : (e.step op y.world (!y.amid)).1 = w') :
    Sound w₀ client timeout (y.after w' (e.notes op y.world (!y.amid)) s) := by
  have hs := h.stands e hc
  have hheeds := heeds_eq_false hcan
  have hdeadline : e.deadline = w₀.now + timeout := hs.deadline hw.not_entering
  cases hw with
  | detached hp ha =>
    have hconn : y.world.connection? e.client.id = none := by simp [World.connection?, ha]
    rw [notes_of_seeking hp hheeds, hconn, finish, Course.after]
    simp only [Option.toList_none, List.map_nil, List.append_nil]
    exact of_ending h.due hs.attempts ⟨ha, hs.retried (by simp [hp])⟩
  | @connect c hp ha hconn =>
    cases hs.atPhase hp with
    | seeking hl hamid huncanceled hrested =>
      rw [notes_of_seeking hp hheeds, hconn, Course.after]
      have hmay : MayBegin w₀ client timeout y.log y.world c :=
        ⟨hs.owner ▸ hconn, huncanceled, hs.inTime, hrested⟩
      refine of_stands (h.due.began hmay) ⟨hs.owner, ?_, fun _ => hdeadline, hs.inTime, ?_, ?_⟩
      · simp [hs.attempts, Note.isBeginning]
      · simpa using hs.past
      · exact .running _ rfl hl ha
  | miss hp ha hconn =>
    cases hs.atPhase hp with
    | seeking hl hamid huncanceled hrested =>
      rw [notes_of_seeking hp hheeds, hconn, Course.after]
      simp only [Option.toList_none, List.map_nil, List.append_nil]
      refine of_stands h.due (hs.goesOn rfl rfl rfl hdeadline ?_)
      exact .resting hl (hs.owner ▸ rfl) hs.past fun _ => not_hasHappened_after rfl rfl
  | @workWaits state state' w' hp hstep =>
    have hnow : w'.now = y.world.now := by rw [← hop.now y.world state, hstep]
    cases hs.atPhase hp with
    | running _ hl hb ha =>
      rw [notes_of_running hp hheeds, hstep]
      refine waitOrExpire h.due hdeadline (hs.goesOn hnow rfl rfl hdeadline ?_)
      exact .running _ hl hb (by rw [← ha, ← hop.attached y.world state, hstep])
  | @workMoves state state' w' hp hstep =>
    have hnow : w'.now = y.world.now := by rw [← hop.now y.world state, hstep]
    cases hs.atPhase hp with
    | running _ hl hb ha =>
      rw [notes_of_running hp hheeds, hstep, Course.after]
      dsimp only
      rw [List.append_nil]
      refine of_stands h.due (hs.goesOn hnow rfl rfl hdeadline ?_)
      exact .running _ hl hb (by rw [← ha, ← hop.attached y.world state, hstep])
  | @succeed state a w' hp hstep =>
    cases hs.atPhase hp with
    | running _ hl hb ha =>
      rw [notes_of_running hp hheeds, hstep, hr, finish, Course.after]
      refine of_ending (h.due.came w' _) (by simp [hs.attempts, Note.isBeginning]) ?_
      exact ⟨_, _, _, _, by rw [hl, List.append_assoc]; rfl, hb⟩
  | @retry state fault w' hp hstep hf =>
    have hnow : w'.now = y.world.now := by rw [← hop.now y.world state, hstep]
    cases hs.atPhase hp with
    | @running _ before w c hl hb ha =>
      have hattached : w'.attached = true := by rw [← ha, ← hop.attached y.world state, hstep]
      have hpast : ∀ w₁ result, .came w₁ result ∈ y.log ++ [.came w'.report (.error fault)] →
          w₁.now ≤ w'.now := by
        intro w₁ result hmem
        rcases List.mem_append.1 hmem with hold | hnew
        · exact hnow ▸ hs.past w₁ result hold
        · cases List.mem_singleton.1 hnew
          exact Nat.le_of_eq (report_now w')
      rw [notes_of_running hp hheeds, hstep, hr, Course.after]
      refine of_stands (h.due.came _ _) ⟨hs.owner, ?_, fun _ => hdeadline, ?_, ?_, ?_⟩
      · simp [hs.attempts, Note.isBeginning]
      · rw [report_now, hnow]
        exact hs.inTime
      · rw [report_now]
        exact hpast
      · refine .resting ?_ (hs.owner ▸ rfl) hpast fun _ => not_hasHappened_after ?_ ?_
        · rw [hl, List.append_assoc]
          exact .retry hb w c hf hattached
        · exact report_now w'
        · exact report_round w'
  | @refuse state fault w' hp hstep hf =>
    cases hs.atPhase hp with
    | running _ hl hb ha =>
      rw [notes_of_running hp hheeds, hstep, hr, finish, Course.after]
      refine of_ending (h.due.came w' _) (by simp [hs.attempts, Note.isBeginning]) ?_
      exact ⟨hf, _, _, _, _, by rw [hl, List.append_assoc]; rfl, hb⟩
  | @wake till hp hh =>
    cases hs.atPhase hp with
    | @resting _ hl w₁ ht hle ha =>
      rw [notes_of_resting hp, Course.after, List.append_nil]
      -- the pause was not over when it began, so this step opens a turn
      have hopens : (!y.amid) = true := by
        cases hamid : y.amid with
        | false => rfl
        | true =>
          rw [ha hamid] at hh
          cases hh
      refine of_stands h.due (hs.goesOn rfl rfl rfl hdeadline ?_)
      refine .seeking hl rfl (hs.owner ▸ hcan hopens) fun w result hmem => ?_
      calc w.now + client.retryWait
        _ ≤ w₁.now + client.retryWait := Nat.add_le_add_right (hle w result hmem) _
        _ ≤ y.world.now := le_of_hasHappened_after (ht ▸ hh)
  | @rest till hp hh =>
    rw [notes_of_resting hp]
    cases hs.atPhase hp with
    | resting hl ht hle ha =>
      refine waitOrExpire h.due hdeadline (hs.goesOn rfl rfl rfl hdeadline ?_)
      rw [hp]
      exact .resting hl ht hle nofun

/-- What holds of a course is kept by every step. -/
theorem work (h : Sound w₀ client timeout y) (hop : Calm op) :
    Sound w₀ client timeout (y.work op) := by
  cases hc : y.call with
  | inr o =>
    rw [Course.work, hc]
    exact h
  | inl e =>
    have hs := h.stands e hc
    have hg := goes_step op y.world (!y.amid) e
    rw [Course.work_eq op hc]
    generalize hr : (e.step op y.world (!y.amid)).1 = w' at hg
    generalize (e.step op y.world (!y.amid)).2 = s at hg
    cases hg with
    | canceled ho hcan =>
      have hn : e.notes op y.world (!y.amid) = [] := by
        rcases ho with ho | ⟨t, hp⟩
        · refine notes_of_heeds ?_
          rw [heeds, ho, hcan]
          rfl
        · exact notes_of_entering hp
      rw [hn, finish, Course.after, List.append_nil]
      exact of_ending h.due hs.attempts ⟨hs.owner ▸ hcan, hs.pending⟩
    | @enter t hp hcan =>
      cases hs.atPhase hp with
      | entering hl ha hstart =>
        rw [notes_of_entering hp, Course.after, List.append_nil]
        refine of_stands h.due (hs.goesOn rfl rfl rfl (hstart ▸ rfl) ?_)
        refine .seeking (hl ▸ .nil) rfl (hs.owner ▸ hcan) fun w result hmem => ?_
        rw [hl] at hmem
        cases hmem
    | works hcan hw => exact h.of_works hop hc hcan hw hr

theorem begins (w₀ : World S C) (client : Client) (timeout : Millis) :
    Sound (K := K) (α := α) w₀ client timeout
      { world := w₀, call := .inl (start client timeout) } where
  due before w c after he := by cases before <;> cases he
  stands e he := by
    cases he
    exact ⟨rfl, rfl, fun hp => absurd rfl (hp timeout), Nat.le_add_right _ _, nofun,
      .entering rfl rfl rfl⟩
  ending := nofun

/-- What holds of a course is kept by what may happen between two turns. An execution that is not
amid a turn rests or runs, and then it waits for its deadline. -/
theorem passes (h : Sound w₀ client timeout y) (hc : y.call = .inl e) (ha : y.amid = false)
    (hp : Passes op e y.world w') : Sound w₀ client timeout { y with world := w' } := by
  have hs := h.stands e hc
  have hpast : ∀ w result, .came w result ∈ y.log → w.now ≤ w'.now :=
    fun w result hmem => Nat.le_trans (hs.past w result hmem) hp.forth
  have hinTime : .time e.deadline ∈ e.wakes op → (∀ t, e.phase ≠ .entering t) →
      w'.now ≤ w₀.now + timeout := fun hmem hne =>
    calc w'.now
      _ ≤ max y.world.now e.deadline := hp.timely _ hmem
      _ ≤ w₀.now + timeout := Nat.max_le.2 ⟨hs.inTime, Nat.le_of_eq (hs.deadline hne)⟩
  refine ⟨h.due, fun e' he' => ?_, fun o ho => by rw [hc] at ho; cases ho⟩
  obtain rfl : e = e' := Sum.inl.inj (hc.symm.trans he')
  cases hph : e.phase with
  | entering t =>
    cases hs.atPhase hph with
    | entering hl hamid => rw [ha] at hamid; cases hamid
  | seeking =>
    cases hs.atPhase hph with
    | seeking hl hamid => rw [ha] at hamid; cases hamid
  | running state =>
    cases hs.atPhase hph with
    | running _ hl hb hattached =>
      refine ⟨hs.owner, hs.attempts, hs.deadline,
        hinTime (by simp [wakes, hph]) (by simp [hph]), hpast, ?_⟩
      rw [hph]
      exact .running _ hl hb (hp.held (by simp [holds, hph]) hattached)
  | resting till =>
    cases hs.atPhase hph with
    | resting hl ht hle hamid =>
      refine ⟨hs.owner, hs.attempts, hs.deadline,
        hinTime (by simp [wakes, hph]) (by simp [hph]), hpast, ?_⟩
      rw [hph]
      exact .resting hl ht hle fun hopen => by rw [ha] at hopen; cases hopen

/-- The supervisor may go when nobody holds it. -/
theorem detaches (h : Sound w₀ client timeout y) (hc : y.call = .inl e) (hh : e.holds = false) :
    Sound w₀ client timeout { y with world := { y.world with attached := false } } := by
  have hs := h.stands e hc
  refine ⟨h.due, fun e' he' => ?_, fun o ho => by rw [hc] at ho; cases ho⟩
  obtain rfl : e = e' := Sum.inl.inj (hc.symm.trans he')
  refine ⟨hs.owner, hs.attempts, hs.deadline, hs.inTime, hs.past, ?_⟩
  cases hph : e.phase with
  | entering t =>
    cases hs.atPhase hph with
    | entering hl hamid hn => exact .entering hl hamid hn
  | seeking =>
    cases hs.atPhase hph with
    | seeking hl hamid huncanceled hrested => exact .seeking hl hamid huncanceled hrested
  | running state => simp [holds, hph] at hh
  | resting till =>
    cases hs.atPhase hph with
    | resting hl ht hle hamid => exact .resting hl ht hle hamid

end Sound

/-- What holds of every course, by induction on what has happened in it. -/
theorem Reached.sound {op : Operation (World S C) C K α} {w₀ : World S C} {client : Client}
    {timeout : Millis} {y : Course S C K α} (h : Reached op w₀ client timeout y)
    (hop : Calm op) : Sound w₀ client timeout y := by
  induction h with
  | begins => exact .begins w₀ client timeout
  | works _ ih => exact ih.work hop
  | passes _ hc ha hp ih => exact ih.passes hc ha hp
  | detaches _ hc hh ih => exact ih.detaches hc hh

/-- An execution whose context is canceled before its first step ends with that step. -/
theorem work_of_canceled (op : Operation (World S C) C K α) {client : Client} {timeout : Millis}
    {y : Course S C K α} (hcall : y.call = .inl (start client timeout))
    (hc : y.world.isCanceled client.context = true) :
    y.work op = { y with call := .inr ⟨0, .error .contextCanceled⟩, amid := false } := by
  have hstep : (start client timeout).step op y.world (!y.amid) =
      (y.world, .ends ⟨0, .error .contextCanceled⟩) := by
    simp [step, start, hc, finish]
  rw [Course.work_eq op hcall, hstep, notes_of_entering rfl, Course.after, List.append_nil]

/-- If the context is canceled before an execution begins, the execution has not taken a step or has
ended with the first one. -/
theorem Reached.canceledBefore {op : Operation (World S C) C K α} {w₀ : World S C}
    {client : Client} {timeout : Millis} {y : Course S C K α} (h : Reached op w₀ client timeout y)
    (hc : w₀.isCanceled client.context = true) :
    y.log = [] ∧ (y.call = .inl (start client timeout) ∧ y.amid = true ∧
        y.world.isCanceled client.context = true ∨
      y.call = .inr ⟨0, .error .contextCanceled⟩) := by
  induction h with
  | begins => exact ⟨rfl, .inl ⟨rfl, rfl, hc⟩⟩
  | works _ ih =>
    obtain ⟨hl, ⟨hcall, -, hcan⟩ | hended⟩ := ih
    · rw [work_of_canceled op hcall hcan]
      exact ⟨hl, .inr rfl⟩
    · rw [Course.work, hended]
      exact ⟨hl, .inr hended⟩
  | passes _ hcall ha _ ih =>
    obtain ⟨-, ⟨-, hamid, -⟩ | hended⟩ := ih
    · rw [ha] at hamid
      cases hamid
    · rw [hcall] at hended
      cases hended
  | detaches _ hcall _ ih => exact ih

/-- At its deadline an execution does not wait any more. -/
theorem Goes.not_waits {op : Operation (World S C) C K α} {w w' : World S C} {opens : Bool}
    {e e' : Execution K} {s : Step (Execution K) (Outcome α)} (hg : Goes op w opens e w' s)
    (hop : Calm op) (hd : (∀ t, e.phase ≠ .entering t) → e.deadline ≤ w.now) :
    s ≠ .waits e' := by
  have hlate : ∀ (w₁ : World S C) (e₁ : Execution K), e₁.deadline ≤ w₁.now →
      Execution.waitOrExpire (α := α) w₁ e₁ ≠ .waits e' := by
    intro w₁ e₁ hle
    rw [Execution.waitOrExpire, if_pos hle]
    intro he
    cases he
  intro he
  cases hg with
  | canceled => cases he
  | enter => cases he
  | works _ hw =>
    have hle := hd hw.not_entering
    cases hw with
    | @workWaits state state' w' _ hstep =>
      refine hlate w' _ ?_ he
      have hnow := hop.now w state
      rw [hstep] at hnow
      rw [hnow]
      exact hle
    | rest => exact hlate w e hle he
    | _ => cases he

/-- Every execution follows the law, whatever its attempts come to and whatever happens between its
turns. -/
theorem lawful_run {op : Operation (World S C) C K α} {w₀ : World S C} {client : Client}
    {timeout : Millis} {y : Course S C K α} (hop : Calm op)
    (h : Reached op w₀ client timeout y) : Lawful op w₀ client timeout y := by
  have hy := h.sound hop
  refine ⟨hy.due, fun e hc => (hy.stands e hc).pending, fun e hc => (hy.stands e hc).inTime, ?_,
    hy.ending, ?_⟩
  · intro e hc hup e'
    refine (goes_step op y.world (!y.amid) e).not_waits hop fun hne => ?_
    rw [(hy.stands e hc).deadline hne]
    exact hup
  · intro hcan
    refine ⟨(h.canceledBefore hcan).1, ?_⟩
    obtain ⟨-, ⟨hcall, -, hc⟩ | hended⟩ := h.canceledBefore hcan
    · rw [work_of_canceled op hcall hc]
    · rw [Course.work, hended]
      exact hended

section Rehearsed

open Rehearsal

omit [Site S C] in
/-- Operations that behave as they are told take time by waiting only. -/
theorem calm_acting (behaviour : Nat → Behaviour) (fault? : S → C → Option Fault)
    (answer : World S C → Nat → α) : Calm (acting behaviour fault? answer) := by
  have hcancel : ∀ (w : World S C) (context : String),
      (w.cancel context).now = w.now ∧ (w.cancel context).attached = w.attached := by
    intro w context
    unfold World.cancel
    split <;> exact ⟨rfl, rfl⟩
  constructor <;> intro w state <;> cases state with
  | acting n c b =>
    cases b with
    | inspect =>
      simp only [acting]
      split <;> rfl
    | canceling context rest => simp [acting, hcancel]
    | _ => rfl
  | pausing n c due rest =>
    simp only [acting]
    split <;> rfl

/-- An operation whose first attempt fails because of the network. The next ones succeed after some
time. -/
def failingOnce : Operation (World Network Line) Line (Acting Line) Nat :=
  acting (fun n => if n = 0 then .fault .network else .after 10 .ok) (fun _ _ => none) fun _ n => n

/-- A world with a connection of one client, at a time. -/
def connectedAt (now : Millis) : World Network Line :=
  { site := {}, now
    supervisor := { clients := [⟨1⟩], slots := Table.empty.insert ⟨1⟩ (some ⟨1, 0⟩) } }

/-- An execution whose first attempt fails because of the network and whose second one succeeds.
Between them the supervisor has recovered. -/
theorem lawful_second_attempt :
    let client : Client := ⟨⟨1⟩, 50, 50, 25, "root"⟩
    ∃ y, Reached failingOnce (connectedAt 0) client 100 y ∧ y.call = .inr ⟨2, .ok 2⟩ ∧
      y.world.now = 35 ∧ Lawful failingOnce (connectedAt 0) client 100 y := by
  intro client
  have hop : Calm failingOnce := calm_acting _ _ _
  -- the first attempt fails, and the execution rests until 25
  have hfirst : ∃ w log, Reached failingOnce (connectedAt 0) client 100
      ⟨w, .inl ⟨client, 100, 1, .resting (.time 25)⟩, false, log⟩ ∧ w.now = 0 :=
    ⟨_, _, Reached.begins.works.works.works.works, rfl⟩
  obtain ⟨w₁, log₁, hrests, hnow₁⟩ := hfirst
  have hback := hrests.passes (w := connectedAt 25) rfl rfl
    ⟨nofun, hnow₁ ▸ by decide, by simp [wakes, hnow₁, connectedAt]⟩
  -- the second attempt begins, and takes its time until 35
  have hsecond : ∃ w log, Reached failingOnce (connectedAt 0) client 100
      ⟨w, .inl ⟨client, 100, 2, .running (.pausing 2 ⟨1, 0⟩ 35 .ok)⟩, false, log⟩ ∧ w.now = 25 :=
    ⟨_, _, hback.works.works.works.works, rfl⟩
  obtain ⟨w₂, log₂, hruns, hnow₂⟩ := hsecond
  have hlate := hruns.passes (w := connectedAt 35) rfl rfl
    ⟨fun _ _ => rfl, hnow₂ ▸ by decide, by
      simp [wakes, hnow₂, connectedAt, failingOnce, acting]⟩
  exact ⟨_, hlate.works.works, rfl, rfl, lawful_run hop hlate.works.works⟩

end Rehearsed

/-! ## The schedule -/

section Schedule

variable {Q R : Type} (m : Machine S C Q R) (s : Session S C Q R) {more : List Event}
  {limit : Millis}

omit [Site S C] in
theorem le_nextTime (hl : s.world.now ≤ limit) : s.world.now ≤ s.nextTime m more limit := by
  refine (List.le_min_iff (l := limit :: _) (List.cons_ne_nil _ _)).2 fun t ht => ?_
  rcases List.mem_cons.1 ht with rfl | ht
  · exact hl
  · exact Nat.le_of_lt (of_decide_eq_true (List.mem_filter.1 ht).2)

omit [Site S C] in
theorem nextTime_le {t : Millis} (ht : .time t ∈ more) (hnow : s.world.now < t) :
    s.nextTime m more limit ≤ t := by
  apply List.min_le_of_mem (l := limit :: _)
  apply List.mem_cons_of_mem
  refine List.mem_filter.2 ⟨List.mem_filterMap.2 ⟨.time t, ?_, rfl⟩, decide_eq_true hnow⟩
  exact List.mem_append_left _ ht

/-- While nobody can take a turn, the schedule goes on as an execution may expect: in another round,
or at the next time that somebody waits for. -/
theorem passes_goOn (op : Operation (World S C) C K α) {e : Execution K}
    (hl : s.world.now ≤ limit) (hw : (e.wakes op).any s.world.hasHappened = false) :
    Passes op e s.world (s.goOn m (e.wakes op) limit).world := by
  have hlate : ∀ t, .time t ∈ e.wakes op → s.world.now < t := by
    intro t ht
    have hnot := List.any_eq_false.1 hw _ ht
    simpa [World.hasHappened] using hnot
  cases hr : s.nextRound? m (e.wakes op) with
  | some s' =>
    have hworld : s'.world = { s.world with round := s.world.round + 1 } := by
      simp only [Session.nextRound?] at hr
      split at hr
      · cases hr
        rfl
      · cases hr
    rw [Session.goOn, hr, Option.getD_some, hworld]
    exact ⟨fun _ ha => ha, Nat.le_refl _, fun t _ => Nat.le_max_left _ _⟩
  | none =>
    rw [Session.goOn, hr, Option.getD_none]
    refine ⟨fun _ ha => ha, le_nextTime m s hl, fun t ht => ?_⟩
    exact Nat.le_trans (nextTime_le m s ht (hlate t ht)) (Nat.le_max_right _ _)

end Schedule

end Reconnect.Execution
