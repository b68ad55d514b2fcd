import Reconnect.Proofs.Broker.Consumption
import Reconnect.Proofs.Schedule.Simulation

/-!
# A consumption through outages

In a vigil one consumption runs at a site of which nothing is assumed. Between two of its steps the
world may change in any way in which worlds go on (`Onward`): contexts stay canceled, a supervisor
that is gone stays gone, and the generation of its connections does not fall. So there may be
outages and recoveries of any length, streams may end and requests may be refused at any time.

A vigil keeps a log that the consumption does not read: when connections of a new generation were
announced, when the consumption looked whether they were, and what came of its requests.
-/

namespace Reconnect.Broker

variable {S C : Type}

/-! ## How worlds go on -/

/-- A world that may come after another one. -/
structure Onward (w w' : World (Station S) C) : Prop where
  canceled : ∀ context, w.isCanceled context = true → w'.isCanceled context = true
  attached : w'.attached = true → w.attached = true
  generation : w.supervisor.generation ≤ w'.supervisor.generation

/-- A world that comes after another one and has the generation of that. -/
structure Level (w w' : World (Station S) C) : Prop extends Onward w w' where
  steady : w'.supervisor.generation = w.supervisor.generation

theorem Onward.refl (w : World (Station S) C) : Onward w w := ⟨fun _ => id, id, Nat.le_refl _⟩

theorem Onward.trans {w w' w'' : World (Station S) C} (h : Onward w w') (h' : Onward w' w'') :
    Onward w w'' :=
  ⟨fun x hx => h'.canceled x (h.canceled x hx), fun ha => h.attached (h'.attached ha),
    Nat.le_trans h.generation h'.generation⟩

/-- A supervisor that is gone does not come back. -/
theorem Onward.detached {w w' : World (Station S) C} (h : Onward w w')
    (hw : w.attached = false) : w'.attached = false := by
  cases ha : w'.attached with
  | false => rfl
  | true => rw [h.attached ha] at hw; cases hw

theorem Onward.cancel (w : World (Station S) C) (context : String) :
    Onward w (w.cancel context) := by
  unfold World.cancel
  split
  · exact .refl w
  · refine ⟨fun x hx => ?_, id, Nat.le_refl _⟩
    simp only [World.isCanceled, List.contains_cons] at hx ⊢
    rw [hx, Bool.or_true]

namespace Level

variable {w w' w'' : World (Station S) C}

theorem of_eq (hc : w'.canceled = w.canceled) (ha : w'.attached = w.attached)
    (hg : w'.supervisor.generation = w.supervisor.generation) : Level w w' where
  canceled context hx := by
    rw [World.isCanceled, hc]
    exact hx
  attached h := by
    rw [← ha]
    exact h
  generation := Nat.le_of_eq hg.symm
  steady := hg

theorem refl (w : World (Station S) C) : Level w w := of_eq rfl rfl rfl

theorem trans (h : Level w w') (h' : Level w' w'') : Level w w'' :=
  ⟨h.toOnward.trans h'.toOnward, h'.steady.trans h.steady⟩

theorem withStore (w : World (Station S) C) (store : S) : Level w (withStore w store) :=
  of_eq rfl rfl rfl

theorem changeRecord (w : World (Station S) C) (i : Nat) (f : Record → Record) :
    Level w (changeRecord w i f) := of_eq rfl rfl rfl

variable [Site S C]

/-- A report of a failure leaves the generation alone. -/
theorem report (w : World (Station S) C) : Level w w.report := by
  rw [World.report]
  split
  · have hs : (w.supervisor.report []).supervisor.generation = w.supervisor.generation := by
      rw [Supervisor.report_supervisor]
    exact of_eq rfl rfl hs
  · exact refl w

variable [Channels S C] {r : Request} {opens : Bool}

omit [Site S C] in
theorem request (w : World (Station S) C) (c : C) :
    Level w (let t := Broker.request w.site.store c r; (Broker.withStore w t.1, t.2)).1 :=
  withStore w _

theorem execution {e : Execution C} {s : Step (Execution C) (Execution.Outcome (Reply C))}
    (h : e.Goes (asking r) w opens w' s) : Level w w' := by
  -- the request changes the store, and a failure of the network is reported
  cases h.atOnce with
  | idle => exact refl w
  | @succeed c _ _ hp hr =>
    have hl := request (r := r) w c
    rwa [hr] at hl
  | @retry c _ _ hp hr =>
    have hl := request (r := r) w c
    rw [hr] at hl
    exact hl.trans (report _)
  | @refuse c _ _ hp hr =>
    have hl := request (r := r) w c
    rwa [hr] at hl

theorem arrangement {a : Arrangement C}
    {s : Step (Arrangement C) (Except (MessagingError Fault) Unit)} (h : a.Goes w opens w' s) :
    Level w w' := by
  cases h with
  | done => exact refl w
  | turn => exact refl w
  | askWaits hp he => exact execution he
  | askMoves hp he => exact execution he
  | askFailed hp he => exact execution he
  | refused hp he => exact execution he
  | succeed hp hr he => exact (execution he).trans (changeRecord _ _ _)
  | withdrawWaits hp he => exact execution he
  | withdrawMoves hp he => exact execution he
  | withdrawn hp he => exact execution he

end Level

section Errand

variable [Site S C]

/-- The world after some steps of an errand, if it does not end before. -/
def runErrand : Nat → Errand C → World (Station S) C → World (Station S) C
  | 0, _, w => w
  | n + 1, e, w =>
    let r := e.step w
    match r.2.state? with
    | some e => runErrand n e r.1
    | none => r.1

/-- Errands go on in a world, recoveries among them: no turn takes the generation back. -/
theorem onward_errand (w : World (Station S) C) {e : Errand C} (hf : e.Fits) :
    Onward w (e.step w).1 := by
  have htouch := e.step_touches w
  have hresumes := e.resumes_step w hf
  generalize (e.step w).1 = w' at htouch hresumes
  obtain ⟨-, hrest⟩ := htouch
  refine ⟨fun x hx => ?_, fun ha => ?_, ?_⟩
  · rw [hrest]
    exact hx
  · rw [hrest] at ha
    exact ha
  · cases hresumes with
    | stays hw => exact Nat.le_of_eq (congrArg Supervisor.generation hw).symm
    | goes ha hw =>
      rw [hw, (Supervisor.goes_resume _ ha).generation]
      exact Nat.le_add_right _ _

theorem onward_runErrand (n : Nat) (w : World (Station S) C) {e : Errand C} (hf : e.Fits) :
    Onward w (runErrand n e w) := by
  induction n generalizing w e with
  | zero => exact .refl w
  | succ n ih =>
    have hw := onward_errand w hf
    have hresumes := e.resumes_step w hf
    simp only [runErrand]
    generalize (e.step w).1 = w' at hw hresumes
    generalize (e.step w).2 = s at hresumes
    cases hs : s.state? with
    | none => exact hw
    | some e' =>
      have hf' : e'.Fits := by
        cases hresumes with
        | stays _ _ hs' _ hf' =>
          cases hs.symm.trans hs'
          exact hf'
        | goes _ _ _ hs' =>
          obtain ⟨next, -, rfl⟩ := Option.map_eq_some_iff.1 (hs'.symm.trans hs)
          trivial
      exact hw.trans (ih w' hf')

end Errand

/-! ## What a step of a consumption leaves alone -/

variable [Site S C] [Channels S C]

/-- A handler after whose calls a world has gone on within its generation. -/
def Handler.IsLevel (h : Handler (World (Station S) C)) : Prop :=
  ∀ w n m, Level w (h.handle w n m).1

/-- The handler that accepts every message at once. -/
def Handler.accepting : Handler (World (Station S) C) := ⟨fun w _ _ => (w, 0, .accept)⟩

omit [Site S C] [Channels S C] in
theorem Handler.isLevel_accepting : (Handler.accepting (S := S) (C := C)).IsLevel :=
  fun w _ _ => .refl w

namespace Consumption

variable {h : Handler (World (Station S) C)} {w w' : World (Station S) C} {opens : Bool}
  {c c' : Consumption C} {s : Step (Consumption C) Result}

omit [Site S C] [Channels S C] in
theorem finish_world (w : World (Station S) C) (c : Consumption C) (result : Result) :
    (finish w c result).1 = w := by
  rw [finish]
  split <;> rfl

omit [Site S C] [Channels S C] in
theorem fail_world (w : World (Station S) C) (c : Consumption C) (e : MessagingError Fault) :
    (fail w c e).1 = w := finish_world w c _

/-- How a consumption ends, as far as a step has settled it. -/
def result? : Step (Consumption C) Result → Option Result
  | .waits c | .moves c =>
    match c.phase with
    | .leaving _ result => some result
    | _ => none
  | .ends result => some result

omit [Site S C] in
theorem level_receive (hh : h.IsLevel) (w : World (Station S) C) (c : Consumption C)
    (channel : C) (stream : Nat) (d : Delivery) :
    Level w (receive h w c channel stream d).1 := by
  unfold receive settle
  dsimp only
  split
  · exact .withStore w _
  · exact hh w _ _

theorem Goes.level (hg : Goes h w opens c w' s) (hh : h.IsLevel)
    (hp : ∀ e result, c.phase ≠ .leaving e result) : Level w w' := by
  have hreport : ∀ (w₁ : World (Station S) C) store, Level w₁ (withStore w₁.report store) :=
    fun w₁ store => (Level.report w₁).trans (.withStore _ store)
  cases hg with
  | enter => exact .refl w
  | canceled =>
    rw [finish_world]
    exact .refl w
  | outdated => exact .refl w
  | current => exact .of_eq rfl rfl rfl
  | yielded => exact .refl w
  | yields => exact .refl w
  | restores _ _ ha => exact .arrangement ha
  | restored _ _ ha => exact (Level.arrangement ha).trans (.of_eq rfl rfl rfl)
  | restoreLate _ _ ha => exact .arrangement ha
  | restoreFailed _ _ ha =>
    rw [fail_world]
    exact .arrangement ha
  | opens _ _ he => exact .execution he
  | opened _ _ he => exact .execution he
  | unopened _ _ he => exact .execution he
  | openLate _ _ he => exact .execution he
  | refusedOnce _ _ _ he => exact .execution he
  | openFailed _ _ he =>
    rw [fail_world]
    exact .execution he
  | recovers _ _ ha => exact .arrangement ha
  | recovered _ _ ha => exact .arrangement ha
  | recoverFailed _ _ ha =>
    rw [fail_world]
    exact .arrangement ha
  | readCanceled _ _ hw =>
    obtain ⟨store, rfl⟩ := hw
    rw [finish_world]
    exact .withStore w store
  | pending _ hw =>
    obtain ⟨store, rfl⟩ := hw
    exact .withStore w store
  | delivered _ hw =>
    obtain ⟨store, rfl⟩ := hw
    exact (Level.withStore w store).trans (level_receive hh _ c _ _ _)
  | lost _ hw store =>
    -- the end of a stream is reported as a failure of the network
    obtain ⟨store', rfl⟩ := hw
    exact (Level.withStore w store').trans (hreport _ store)
  | handles => exact .refl w
  | handled => exact .withStore w _
  | leaves hp' => exact absurd hp' (hp _ _)
  | left hp' => exact absurd hp' (hp _ _)

/-- A consumption that renews the connection of its client before it ends keeps its result. -/
theorem Goes.of_leaving (hg : Goes h w opens c w' s) {e : Errand C} {result : Result}
    (hp : c.phase = .leaving e result) : w' = (e.step w).1 ∧
      ((∃ e', s.state? = some { c with phase := .leaving e' result }) ∨ s = .ends result) := by
  cases hg
  case leaves hp' hs' =>
    cases hp.symm.trans hp'
    exact ⟨rfl, .inl ⟨_, hs'⟩⟩
  case left hp' =>
    cases hp.symm.trans hp'
    exact ⟨rfl, .inr rfl⟩
  case canceled hc hp' =>
    rcases hp' with ⟨_, hp'⟩ | ⟨_, _, hp'⟩ | ⟨_, _, hp'⟩ | ⟨_, hp'⟩ <;>
      exact absurd (hp.symm.trans hp') nofun
  all_goals simp_all only [reduceCtorEq]

/-- Contexts that are canceled stay so. -/
theorem Goes.isCanceled (hg : Goes h w opens c w' s) (hh : h.IsLevel) {context : String}
    (hc : w.isCanceled context = true) : w'.isCanceled context = true := by
  by_cases hp : ∃ e result, c.phase = .leaving e result
  · obtain ⟨e, result, hp⟩ := hp
    rw [(hg.of_leaving hp).1, (e.step_touches w).rest]
    exact hc
  · exact (hg.level hh fun e result hp' => hp ⟨e, result, hp'⟩).canceled context hc

/-- A consumption that goes on keeps its consumer and its context. -/
theorem Goes.same (hg : Goes h w opens c w' s) (hs : s.state? = some c') :
    c'.consumer = c.consumer ∧ c'.context = c.context := by
  have hfinish : ∀ (w₁ : World (Station S) C) (result : Result),
      (finish w₁ c result).2.state? = some c' →
        c'.consumer = c.consumer ∧ c'.context = c.context := by
    intro w₁ result h₁
    unfold finish at h₁
    split at h₁
    · cases h₁
      exact ⟨rfl, rfl⟩
    · cases h₁
  cases hg with
  | canceled => exact hfinish _ _ hs
  | restores _ _ _ _ hs' => cases hs.symm.trans hs'; exact ⟨rfl, rfl⟩
  | restoreFailed => exact hfinish _ _ hs
  | opens _ _ _ _ hs' => cases hs.symm.trans hs'; exact ⟨rfl, rfl⟩
  | openFailed => exact hfinish _ _ hs
  | recovers _ _ _ _ hs' => cases hs.symm.trans hs'; exact ⟨rfl, rfl⟩
  | recoverFailed => exact hfinish _ _ hs
  | readCanceled => exact hfinish _ _ hs
  | delivered =>
    cases hs
    unfold receive
    dsimp only
    split
    · split <;> exact ⟨rfl, rfl⟩
    · exact ⟨rfl, rfl⟩
  | handled =>
    cases hs
    unfold conclude
    dsimp only
    split <;> exact ⟨rfl, rfl⟩
  | leaves _ hs' => cases hs.symm.trans hs'; exact ⟨rfl, rfl⟩
  | _ => cases hs <;> exact ⟨rfl, rfl⟩

end Consumption

/-! ## Vigils -/

/-- Whether a broker refused a request, and with which fault. -/
def refusal? (r : Except Fault (Reply C)) : Option Fault :=
  match r with
  | .error f => if f.isNetwork then none else some f
  | .ok (.refused _ f) => some f
  | .ok _ => none

/-- What a consumption is about. -/
inductive Activity where
  /-- It has not begun. -/
  | entering
  /-- It declares its topology again after a recovery. -/
  | redeclaring
  /-- It opens a stream. -/
  | opening
  | other
  deriving DecidableEq, Repr

/-- What is noted in a vigil. -/
inductive Note where
  /-- Connections of a new generation were announced while the consumption was about something. -/
  | announced (activity : Activity)
  /-- The consumption looked whether there was a new generation. -/
  | looked
  /-- It began to declare its topology again. -/
  | began
  /-- It had declared all of its topology again. -/
  | redeclared
  /-- It had opened a stream. -/
  | opened
  /-- The broker refused a request of it. -/
  | refused (f : Fault)
  /-- It declared its topology again because a stream was refused, and ran out of time. -/
  | lapsed
  deriving DecidableEq, Repr

/-- The note of the refusal that an answer is. -/
def refusalOf (r : Option (Except Fault (Reply C))) : List Note :=
  (r.bind refusal?).toList.map .refused

omit [Site S C] [Channels S C] in
theorem exists_of_mem_refusalOf {r : Option (Except Fault (Reply C))} {n : Note}
    (h : n ∈ refusalOf r) : ∃ f, n = .refused f ∧ r.bind refusal? = some f := by
  obtain ⟨f, hf, rfl⟩ := List.mem_map.1 h
  exact ⟨f, rfl, Option.mem_toList.1 hf⟩

/-- What an execution works on in its next step. -/
def requesting? (w : World (Station S) C) (opens : Bool) (e : Execution C) : Option C :=
  match e.phase with
  | .running c => if opens && w.isCanceled e.client.context then none else some c
  | _ => none

/-- The request that an arrangement makes in its next step, and the channel. -/
def Arrangement.requests? (w : World (Station S) C) (opens : Bool) (a : Arrangement C) :
    Option (C × Request) :=
  match a.phase with
  | .asking s e => (requesting? w opens e).map (·, s.request)
  | _ => none

namespace Consumption

/-- What a consumption is about. -/
def activity (c : Consumption C) : Activity :=
  match c.phase with
  | .entering => .entering
  | .restoring _ _ => .redeclaring
  | .opening _ _ => .opening
  | _ => .other

/-- The request that a consumption makes in its next step, and the channel. -/
def requests? (w : World (Station S) C) (opens : Bool) (c : Consumption C) :
    Option (C × Request) :=
  if opens && w.isCanceled c.context then none
  else
    match c.phase with
    | .opening _ e => (requesting? w opens e).map (·, .consume c.queue)
    | .restoring _ a | .recovering a => a.requests? w opens
    | _ => none

/-- What a step passes. -/
def passes (w : World (Station S) C) (c : Consumption C) (s : Step (Consumption C) Result) :
    List Note :=
  match c.phase, s.state?.map Consumption.phase, result? s with
  | .seeking _, some (.restoring _ _), _ => [.looked, .began]
  | .seeking _, some (.opening _ _), _ => if w.attached then [.looked] else []
  | .restoring _ _, some (.opening _ _), _ => [.redeclared]
  | .opening _ _, some (.reading _ _), _ => [.opened]
  | .recovering _, _, some (.error e) => if e.isTimeout then [.lapsed] else []
  | _, _, _ => []

/-- The refusal that a consumption meets in its next step. -/
def meets (w : World (Station S) C) (opens : Bool) (c : Consumption C) : List Note :=
  refusalOf ((c.requests? w opens).map fun q => (request w.site.store q.1 q.2).2)

/-- What is noted of a step. -/
def notes (w : World (Station S) C) (opens : Bool) (c : Consumption C)
    (s : Step (Consumption C) Result) : List Note :=
  c.meets w opens ++ passes w c s

end Consumption

/-- A consumption on its way, or its result. -/
structure Vigil (S C : Type) where
  world : World (Station S) C
  call : Consumption C ⊕ Consumption.Result
  log : List Note := []

namespace Vigil

/-- What can happen next. -/
inductive Move (S C : Type) where
  /-- The consumption takes a step. -/
  | work (opens : Bool)
  /-- Something else happens in the world. -/
  | drift (f : World (Station S) C → World (Station S) C)

/-- A consumption after a step. -/
def goOn : Step (Consumption C) Consumption.Result → Consumption C ⊕ Consumption.Result
  | .waits c | .moves c => .inl c
  | .ends result => .inr result

/-- What the consumption is about. -/
def activity (y : Vigil S C) : Activity :=
  match y.call with
  | .inl c => c.activity
  | .inr _ => .other

/-- One move. -/
def step (h : Handler (World (Station S) C)) (y : Vigil S C) : Move S C → Vigil S C
  | .work opens =>
    match y.call with
    | .inl c =>
      let r := c.step h y.world opens
      { world := r.1, call := goOn r.2, log := y.log ++ c.notes y.world opens r.2 }
    | .inr _ => y
  | .drift f =>
    let w := f y.world
    { y with
      world := w
      log := y.log ++
        if y.world.supervisor.generation < w.supervisor.generation then
          [.announced y.activity]
        else [] }

/-- The consumption of a queue once it has begun in a world, which is what its first step does. -/
def begun (w : World (Station S) C) (consumer : Consumer) (context queue : String) :
    Consumption C where
  consumer := consumer
  context := context
  queue := queue
  failures := .empty consumer.capacity consumer.timeToLive
  seen := if w.attached then some w.supervisor.generation else none
  phase := .seeking false

/-- The vigil that a list of moves leads to once a consumption has begun. -/
def run (h : Handler (World (Station S) C)) (w : World (Station S) C) (consumer : Consumer)
    (context queue : String) (moves : List (Move S C)) : Vigil S C :=
  moves.foldl (step h) { world := w, call := .inl (begun w consumer context queue) }

/-- Whether a world goes on through all that happens beside the consumption. -/
def GoesOn (moves : List (Move S C)) : Prop := ∀ f, .drift f ∈ moves → ∀ w, Onward w (f w)

/-- What holds when a consumption begins and is kept by each move holds of every vigil. -/
theorem run_induction {P : Vigil S C → Prop} {h : Handler (World (Station S) C)}
    {w : World (Station S) C} {consumer : Consumer} {context queue : String}
    {moves : List (Move S C)} (hm : GoesOn moves)
    (begins : P { world := w, call := .inl (begun w consumer context queue) })
    (work : ∀ y opens, P y → P (step h y (.work opens)))
    (drift : ∀ y f, (∀ w, Onward w (f w)) → P y → P (step h y (.drift f))) :
    P (run h w consumer context queue moves) := by
  refine List.foldlRecOn moves (step h) begins fun y hy m hmem => ?_
  cases m with
  | work opens => exact work y opens hy
  | drift f => exact drift y f (hm f hmem) hy

end Vigil

end Reconnect.Broker
