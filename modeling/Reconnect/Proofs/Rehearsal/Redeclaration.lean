import Mathlib.Data.List.Induction
import Reconnect.Proofs.Broker.Arrangement
import Reconnect.Proofs.Rehearsal.Record
import Reconnect.Proofs.Rehearsal.Shift
import Reconnect.Proofs.Schedule.Errand

/-!
# Declaring a topology again

`Managed` worlds are those that successful calls of one topology lead to, from a broker that has
nothing. Whatever else happens there, outages included, the layout is the one that the calls make
and the record is the one that they leave.

A topology that is declared again at a broker that lost everything restores the layout exactly if
its record is faithful to it (`Lost.restores_iff`). So it does after tidy calls, in a number of
steps that the record bounds (`redeclared_run`). After calls that are not tidy it may not:
`refused_after_second_declaration`.
-/

namespace Reconnect.Rehearsal

open Broker

/-! ## An arrangement on its way -/

/-- An arrangement on its way, or its result. -/
structure Stint where
  world : HubWorld
  call : Arrangement Nat ⊕ Except (MessagingError Fault) Unit

namespace Stint

/-- What can happen next. -/
inductive Move where
  /-- The arrangement takes a step. -/
  | work (opens : Bool)
  /-- Something else happens in the world. -/
  | drift (f : HubWorld → HubWorld)

/-- An arrangement after a step. -/
def goOn : Step (Arrangement Nat) (Except (MessagingError Fault) Unit) →
    Arrangement Nat ⊕ Except (MessagingError Fault) Unit
  | .waits a | .moves a => .inl a
  | .ends r => .inr r

/-- One move. -/
def step (y : Stint) : Move → Stint
  | .work opens =>
    match y.call with
    | .inl a => let r := a.step y.world opens; ⟨r.1, goOn r.2⟩
    | .inr _ => y
  | .drift f => { y with world := f y.world }

/-- The stint that a list of moves leads to from an arrangement in a world. -/
def run (w : HubWorld) (a : Arrangement Nat) (moves : List Move) : Stint :=
  moves.foldl step ⟨w, .inl a⟩

/-- How many steps the arrangement takes in a list of moves. -/
def works : List Move → Nat
  | [] => 0
  | .work _ :: rest => works rest + 1
  | .drift _ :: rest => works rest

end Stint

/-- A change of the world that spares the layout of the broker and the record in a place. -/
def Spares (i : Nat) (f : HubWorld → HubWorld) : Prop :=
  ∀ w, (f w).site.store.layout = w.site.store.layout ∧ (f w).site.records[i]? = w.site.records[i]?

/-- Whether all that happens beside an arrangement spares the layout and a record. -/
def Spared (i : Nat) (moves : List Stint.Move) : Prop := ∀ f, .drift f ∈ moves → Spares i f

/-- The steps of an arrangement that have not been made. -/
def pending (a : Arrangement Nat) : List TopologyStep :=
  match a.phase with
  | .asking s _ => s :: a.steps
  | _ => a.steps

/-- Of the steps of an arrangement, those that are made have been allowed one after the other, and
have left what they make of a layout and a record. -/
structure Along (i : Nat) (ℓ : Layout) (r : Record) (all rest : List TopologyStep)
    (w : HubWorld) : Prop where
  made : ∃ made, all = made ++ rest ∧ ℓ.Passes made ∧
    w.site.store.layout = made.foldl .after ℓ ∧
    w.site.records[i]? = some (made.foldl TopologyStep.update r)

namespace Along

variable {i : Nat} {ℓ : Layout} {r : Record} {all rest : List TopologyStep} {w : HubWorld}

theorem spared {f : HubWorld → HubWorld} (h : Along i ℓ r all rest w) (hf : Spares i f) :
    Along i ℓ r all rest (f w) := by
  obtain ⟨made, hall, hp, hl, hr⟩ := h.made
  exact ⟨made, hall, hp, (hf w).1.trans hl, (hf w).2.trans hr⟩

/-- If no step is refused, the broker allows the next one. -/
theorem allows {s : TopologyStep} (h : Along i ℓ r all (s :: rest) w) (hp : ℓ.Passes all) :
    w.site.store.layout.Allows s := by
  obtain ⟨made, hall, -, hlayout, -⟩ := h.made
  rw [hall, Layout.passes_append, ← hlayout] at hp
  exact hp.2.1

end Along

/-! ## What an execution of a request leaves -/

section Request

variable {s : TopologyStep} {w w' : HubWorld} {opens : Bool} {e e' : Execution Nat} {n : Nat}

/-- A request of a topology that fails has changed nothing at the site. -/
theorem site_of_failed {c : Nat} {f : Fault}
    (h : (let t := request w.site.store c s.request; (withStore w t.1, t.2)) = (w', .error f)) :
    w'.site = w.site ∧ f = .network := by
  have hs := request_served w.site.store c s
  generalize request w.site.store c s.request = t at h hs
  cases hs with
  | fault =>
    cases h
    exact ⟨rfl, rfl⟩
  | done => cases h
  | refused => cases h

/-- An execution of a request of a topology that does not succeed leaves the site as it was. -/
theorem site_of_goes {x : Step (Execution Nat) (Execution.Outcome (Broker.Reply Nat))}
    (h : e.Goes (asking s.request) w opens w' x) (hx : ∀ n a, x ≠ .ends ⟨n, .ok a⟩) :
    w'.site = w.site := by
  cases h.atOnce with
  | idle => rfl
  | succeed => exact absurd rfl (hx _ _)
  | retry hp hr hf =>
    rw [World.report_site]
    exact (site_of_failed hr).1
  | refuse hp hr hf =>
    obtain ⟨-, rfl⟩ := site_of_failed hr
    cases hf

/-- An execution of a request of a topology that succeeds has been answered. -/
theorem answered_of_goes {reply : Broker.Reply Nat}
    (h : e.Goes (asking s.request) w opens w' (.ends ⟨n, .ok reply⟩)) :
    ∃ c, w' = withStore w (request w.site.store c s.request).1 ∧
      (request w.site.store c s.request).2 = .ok reply := by
  generalize hx : (Step.ends ⟨n, .ok reply⟩ :
    Step (Execution Nat) (Execution.Outcome (Broker.Reply Nat))) = x at h
  cases h.atOnce with
  | idle hs => exact absurd hx.symm (hs n reply)
  | @succeed c a _ hp hr =>
    rw [Execution.finish, Step.ends.injEq, Execution.Outcome.mk.injEq, Except.ok.injEq] at hx
    obtain ⟨-, rfl⟩ := hx
    rw [Prod.mk.injEq] at hr
    exact ⟨c, hr.1.symm, hr.2⟩
  | retry => cases hx
  | refuse => cases hx

end Request

/-! ## What a stint carries along, whatever happens -/

/-- A statement about the steps that have not been made and the site that an arrangement keeps up:
it stays true when the broker allows the next step and makes it. -/
structure Upheld (i : Nat) (P : List TopologyStep → HubWorld → Prop) : Prop where
  of_site : ∀ {rest w w'}, P rest w → w'.site = w.site → P rest w'
  make : ∀ {s rest w h'}, P (s :: rest) w → w.site.store.layout.Allows s →
    h'.layout = w.site.store.layout.after s →
    P rest (changeRecord (withStore w h') i (s.update ·))

/-- Whether a statement about the steps that have not been made holds of a stint, unless a binding
was refused. -/
def Carries (t : Topology) (P : List TopologyStep → HubWorld → Prop) (y : Stint) : Prop :=
  match y.call with
  | .inl a => a.topology = t ∧
      ((∀ queue b f e, a.phase ≠ .withdrawing queue b f e) → P (pending a) y.world)
  | .inr (.ok _) => P [] y.world
  | .inr (.error _) => True

section Carries

variable {t : Topology} {P : List TopologyStep → HubWorld → Prop} {w : HubWorld}
  {a : Arrangement Nat}

/-- What is carried while a request is under way. -/
theorem Carries.asking (h : Carries t P ⟨w, .inl a⟩) {s : TopologyStep} {e : Execution Nat}
    (hp : a.phase = .asking s e) : P (s :: a.steps) w := by
  have hrest := h.2 (by simp [hp])
  rwa [pending, hp] at hrest

/-- One step of an arrangement carries the statement along. -/
theorem Carries.work (hP : Upheld t.record P) (h : Carries t P ⟨w, .inl a⟩) (opens : Bool) :
    Carries t P (Stint.step ⟨w, .inl a⟩ (.work opens)) := by
  have hasking := fun s e hp => h.asking (s := s) (e := e) hp
  obtain ⟨rfl, hcarried⟩ := h
  have hg := a.goes_step w opens
  simp only [Stint.step]
  generalize (a.step w opens).1 = w' at hg ⊢
  generalize (a.step w opens).2 = x at hg ⊢
  cases hg with
  | done hp hs =>
    have hrest := hcarried (by simp [hp])
    rwa [pending, hp, hs] at hrest
  | turn hp hs =>
    have hrest := hcarried (by simp [hp])
    rw [pending, hp, hs] at hrest
    exact ⟨rfl, fun _ => hrest⟩
  | askWaits hp he => exact ⟨rfl, fun _ => hP.of_site (hasking _ _ hp) (site_of_goes he nofun)⟩
  | askMoves hp he => exact ⟨rfl, fun _ => hP.of_site (hasking _ _ hp) (site_of_goes he nofun)⟩
  | askFailed => trivial
  | refused => exact ⟨rfl, fun hw => absurd rfl (hw _ _ _ _)⟩
  | @succeed s e w₁ n reply hp hr he =>
    obtain ⟨c, rfl, hreply⟩ := answered_of_goes he
    have hserved := request_served w.site.store c s
    generalize request w.site.store c s.request = answer at hserved hreply
    cases hserved with
    | fault => cases hreply
    | done hf ha hl => exact ⟨rfl, fun _ => hP.make (hasking _ _ hp) ha hl⟩
    | refused =>
      cases hreply
      exact absurd rfl (hr _ _)
  | withdrawWaits => exact ⟨rfl, fun hw => absurd rfl (hw _ _ _ _)⟩
  | withdrawMoves => exact ⟨rfl, fun hw => absurd rfl (hw _ _ _ _)⟩
  | withdrawn => trivial

theorem Carries.drift {y : Stint} {f : HubWorld → HubWorld} (h : Carries t P y)
    (hf : ∀ rest w, P rest w → P rest (f w)) : Carries t P (y.step (.drift f)) := by
  obtain ⟨w, a | _ | _⟩ := y
  · exact ⟨h.1, fun hw => hf _ _ (h.2 hw)⟩
  · trivial
  · exact hf _ _ h

/-- A stint carries along what is upheld, if all that happens beside it does. -/
theorem carries_run (hP : Upheld t.record P) {steps : List TopologyStep} (h : P steps w)
    {moves : List Stint.Move} (hm : ∀ f, .drift f ∈ moves → ∀ rest w, P rest w → P rest (f w)) :
    Carries t P (Stint.run w ⟨t, steps, .ready⟩ moves) := by
  have hstart : Carries t P ⟨w, .inl ⟨t, steps, .ready⟩⟩ := ⟨rfl, fun _ => h⟩
  refine List.foldlRecOn moves Stint.step hstart fun y hy move hmove => ?_
  cases move with
  | work opens =>
    obtain ⟨w, a | res⟩ := y
    · exact hy.work hP opens
    · exact hy
  | drift f => exact hy.drift (hm f hmove)

end Carries

section Keeps

variable {t : Topology} {ℓ : Layout} {r : Record} {all : List TopologyStep} {w : HubWorld}

theorem upheld_along (i : Nat) : Upheld i (Along i ℓ r all) where
  of_site h hs := by
    obtain ⟨made, hall, hp, hl, hr⟩ := h.made
    exact ⟨made, hall, hp, by rw [hs]; exact hl, by rw [hs]; exact hr⟩
  make {s rest w h'} h ha hl := by
    obtain ⟨made, hall, hp, hlayout, hr⟩ := h.made
    refine ⟨made ++ [s], ?_, ?_, ?_, ?_⟩
    · rw [hall, List.append_assoc]
      rfl
    · rw [Layout.passes_append, ← hlayout]
      exact ⟨hp, ha, trivial⟩
    · rw [changeRecord_store, List.foldl_append, ← hlayout]
      exact hl
    · have hr' : (withStore w h').site.records[i]? = some (made.foldl TopologyStep.update r) := hr
      rw [changeRecord_get?, hr', List.foldl_append]
      rfl

/-- Unless a binding was refused, the steps that are made have left what they make. -/
theorem keeps_run (steps : List TopologyStep) {moves : List Stint.Move}
    (hl : w.site.store.layout = ℓ) (hr : w.site.records[t.record]? = some r)
    (hs : Spared t.record moves) :
    Carries t (Along t.record ℓ r steps) (Stint.run w ⟨t, steps, .ready⟩ moves) :=
  carries_run (upheld_along _) ⟨[], rfl, trivial, hl, hr⟩
    fun f hf _ _ h => h.spared (hs f hf)

/-- A stint that ended well has made all its steps. -/
theorem made_of_ok {steps : List TopologyStep} {moves : List Stint.Move} {w' : HubWorld}
    (hl : w.site.store.layout = ℓ) (hr : w.site.records[t.record]? = some r)
    (hs : Spared t.record moves)
    (he : Stint.run w ⟨t, steps, .ready⟩ moves = ⟨w', .inr (.ok ())⟩) :
    ℓ.Passes steps ∧ w'.site.store.layout = steps.foldl .after ℓ ∧
      w'.site.records[t.record]? = some (steps.foldl TopologyStep.update r) := by
  have h := keeps_run steps hl hr hs
  rw [he] at h
  obtain ⟨made, hall, hmade⟩ := h.made
  rw [List.append_nil] at hall
  rw [hall]
  exact hmade

end Keeps

/-! ## Calls of a topology -/

/-- The worlds that successful calls of a topology lead to, from one in which the broker has nothing
and nothing is remembered. Beside the calls anything may happen that spares the layout of the broker
and the record. -/
inductive Managed (t : Topology) : HubWorld → List TopologyStep → Prop
  | start {w : HubWorld} (hl : w.site.store.layout = .empty)
      (hr : w.site.records[t.record]? = some []) : Managed t w []
  | call {w w' : HubWorld} {steps : List TopologyStep} {s : TopologyStep}
      {moves : List Stint.Move} (h : Managed t w steps) (hc : IsCall s)
      (hs : Spared t.record moves)
      (he : Stint.run w ⟨t, [s], .ready⟩ moves = ⟨w', .inr (.ok ())⟩) :
      Managed t w' (steps ++ [s])

/-- Whether every step of a list is tidy, one being made after the other. -/
def TidyFrom : Layout → List TopologyStep → Prop
  | _, [] => True
  | ℓ, s :: rest => ℓ.Tidy s ∧ TidyFrom (ℓ.after s) rest

theorem tidyFrom_append {ℓ : Layout} {steps rest : List TopologyStep} :
    TidyFrom ℓ (steps ++ rest) ↔ TidyFrom ℓ steps ∧ TidyFrom (steps.foldl .after ℓ) rest := by
  induction steps generalizing ℓ with
  | nil => exact ⟨fun h => ⟨trivial, h⟩, And.right⟩
  | cons s steps ih =>
    rw [List.cons_append, TidyFrom, TidyFrom, ih, and_assoc]
    rfl

namespace Managed

variable {t : Topology} {w : HubWorld} {steps : List TopologyStep}

/-- The layout and the record after the calls. -/
theorem left (h : Managed t w steps) :
    w.site.store.layout = steps.foldl .after .empty ∧
      w.site.records[t.record]? = some (steps.foldl TopologyStep.update []) := by
  induction h with
  | start hl hr => exact ⟨hl, hr⟩
  | call h hc hs he ih =>
    obtain ⟨-, hl, hr⟩ := made_of_ok ih.1 ih.2 hs he
    rw [List.foldl_append, List.foldl_append]
    exact ⟨hl, hr⟩

/-- After tidy calls the record is faithful to the layout. -/
theorem faithful (h : Managed t w steps) (ht : TidyFrom .empty steps) :
    Faithful (steps.foldl TopologyStep.update []) w.site.store.layout := by
  induction h with
  | start hl hr =>
    rw [hl]
    exact .empty
  | call h hc hs he ih =>
    rw [tidyFrom_append] at ht
    obtain ⟨hl, hr⟩ := h.left
    obtain ⟨⟨ha, -⟩, hl', -⟩ := made_of_ok rfl hr hs he
    have hf := ih ht.1
    rw [List.foldl_append, hl']
    rw [hl] at hf ha ⊢
    exact hf.step hc ha ht.2.1

end Managed

/-! ## Declaring again at a broker that lost everything -/

/-- A world in which requests of a topology are answered at once. -/
structure Serving (t : Topology) (w : HubWorld) : Prop where
  attached : w.attached = true
  connected : ∃ c, w.connection? t.client.client.id = some c ∧ w.site.store.isOpen c = true
  running : w.isCanceled t.client.client.context = false
  up : w.site.store.network.fault? = none

/-- A change of the world that leaves alone whether requests are answered. -/
structure Peaceful (f : HubWorld → HubWorld) : Prop where
  supervisor : ∀ w, (f w).supervisor = w.supervisor
  attached : ∀ w, (f w).attached = w.attached
  canceled : ∀ w, (f w).canceled = w.canceled
  closedChannels : ∀ w, (f w).site.store.closedChannels = w.site.store.closedChannels
  up : ∀ w, w.site.store.network.fault? = none → (f w).site.store.network.fault? = none

/-- How many steps an execution is from its end, on an open channel. -/
inductive Nearing (h : Hub) : Execution.Phase Nat → Nat → Prop
  | entering (timeout : Millis) : Nearing h (.entering timeout) 3
  | seeking : Nearing h .seeking 2
  | running {c : Nat} (ho : h.isOpen c = true) : Nearing h (.running c) 1

theorem Nearing.exists_succ {h : Hub} {phase : Execution.Phase Nat} {k : Nat}
    (hn : Nearing h phase k) : ∃ k', k = k' + 1 := by
  cases hn <;> exact ⟨_, rfl⟩

theorem Nearing.congr {h h' : Hub} {phase : Execution.Phase Nat} {k : Nat}
    (hn : Nearing h phase k) (hc : h'.closedChannels = h.closedChannels) :
    Nearing h' phase k := by
  cases hn with
  | entering timeout => exact .entering timeout
  | seeking => exact .seeking
  | running ho =>
    refine .running ?_
    rw [Hub.isOpen, hc]
    exact ho

/-- How many steps an arrangement of a topology is from its end, if nothing is refused. -/
inductive Heading (t : Topology) (h : Hub) : Arrangement Nat → Nat → Prop
  | ready (steps : List TopologyStep) : Heading t h ⟨t, steps, .ready⟩ (4 * steps.length)
  | asking {s : TopologyStep} {steps : List TopologyStep} {e : Execution Nat} {k : Nat}
      (he : e.client = t.client.client) (hn : Nearing h e.phase k) :
      Heading t h ⟨t, steps, .asking s e⟩ (4 * steps.length + k)

namespace Serving

variable {t : Topology} {w w' : HubWorld} {s : TopologyStep}

theorem congr (h : Serving t w) (hs : w'.supervisor = w.supervisor)
    (ha : w'.attached = w.attached) (hc : w'.canceled = w.canceled)
    (ho : w'.site.store.closedChannels = w.site.store.closedChannels)
    (hup : w'.site.store.network.fault? = none) : Serving t w' := by
  obtain ⟨hattached, ⟨c, hconn, hopen⟩, hrun, -⟩ := h
  refine ⟨ha.trans hattached, ⟨c, ?_, ?_⟩, ?_, hup⟩
  · rw [World.connection?, ha, hs]
    exact hconn
  · rw [Hub.isOpen, ho]
    exact hopen
  · rw [World.isCanceled, hc]
    exact hrun

theorem drift {f : HubWorld → HubWorld} (h : Serving t w) (hf : Peaceful f) :
    Serving t (f w) :=
  h.congr (hf.supervisor w) (hf.attached w) (hf.canceled w) (hf.closedChannels w)
    (hf.up w h.up)

/-- A request is served. -/
theorem serve {h' : Hub} (h : Serving t w) (hn : h'.network = w.site.store.network)
    (hc : h'.closedChannels = w.site.store.closedChannels) (i : Nat) (f : Record → Record) :
    Serving t (changeRecord (withStore w h') i f) := by
  refine h.congr rfl rfl rfl hc ?_
  have hup := h.up
  rw [← hn] at hup
  exact hup

theorem fault?_eq_none (h : Serving t w) {c : Nat} (ho : w.site.store.isOpen c = true) :
    w.site.store.fault? c = none := by
  rw [Hub.fault?, if_pos ho]
  exact h.up

/-- An execution of a request comes a step nearer to its end, where it runs on an open channel. -/
theorem step_nearing (h : Serving t w) (opens : Bool) {e : Execution Nat} {k : Nat} (r : Request)
    (he : e.client = t.client.client) (hn : Nearing w.site.store e.phase (k + 1)) :
    (∃ e', e.step (asking r) w opens = (w, .moves e') ∧ e'.client = t.client.client ∧
        Nearing w.site.store e'.phase k) ∨
      k = 0 ∧ ∃ c, e.phase = .running c ∧ w.site.store.fault? c = none ∧
        w.isCanceled e.client.context = false := by
  have hcan : w.isCanceled e.client.context = false := by
    rw [he]
    exact h.running
  generalize hp : e.phase = phase at hn
  generalize hk : k + 1 = m at hn
  cases hn with
  | entering timeout =>
    obtain rfl : k = 2 := Nat.succ.inj hk
    refine .inl ⟨{ e with deadline := w.now + timeout, phase := .seeking }, ?_, he, .seeking⟩
    simp [Execution.step, hp, hcan]
  | seeking =>
    obtain rfl : k = 1 := Nat.succ.inj hk
    obtain ⟨c, hconn, hopen⟩ := h.connected
    rw [← he] at hconn
    refine .inl ⟨{ e with attempts := e.attempts + 1, phase := .running c }, ?_, he,
      .running hopen⟩
    simp [Execution.step, hp, hcan, h.attached, hconn, asking, Operation.atOnce]
  | @running c ho => exact .inr ⟨Nat.succ.inj hk, c, rfl, h.fault?_eq_none ho, hcan⟩

/-- An execution of a request that the broker allows comes a step nearer to its end, and ends with
the request served. -/
theorem step_execution (h : Serving t w) (opens : Bool) {e : Execution Nat} {k : Nat}
    (he : e.client = t.client.client) (hn : Nearing w.site.store e.phase (k + 1))
    (ha : w.site.store.layout.Allows s) :
    (∃ e', e.step (asking s.request) w opens = (w, .moves e') ∧ e'.client = t.client.client ∧
        Nearing w.site.store e'.phase k) ∨
      k = 0 ∧ ∃ h' n, e.step (asking s.request) w opens = (withStore w h', .ends ⟨n, .ok .done⟩) ∧
        h'.network = w.site.store.network ∧
        h'.closedChannels = w.site.store.closedChannels := by
  rcases h.step_nearing opens s.request he hn with hmoves | ⟨hk, c, hp, hup, hcan⟩
  · exact .inl hmoves
  have hserved := request_served w.site.store c s
  refine .inr ⟨hk, ?_⟩
  generalize hr : request w.site.store c s.request = x at hserved
  cases hserved with
  | fault hf => rw [hup] at hf; cases hf
  | refused hf hnot => exact absurd ha hnot
  | @done h' hf ha' hl hnet hclosed =>
    refine ⟨h', e.attempts, ?_, hnet, hclosed⟩
    simp [Execution.step, hp, hcan, asking, Operation.atOnce, hr, Execution.finish]

/-- An arrangement of which the broker allows the next step comes a step nearer to its end. -/
theorem step_arrangement (h : Serving t w) (opens : Bool) {a : Arrangement Nat} {k : Nat}
    (hk : Heading t w.site.store a k)
    (ha : ∀ s rest, pending a = s :: rest → w.site.store.layout.Allows s) :
    k = 0 ∧ a.step w opens = (w, .ends (.ok ())) ∨
      ∃ w' a' k', a.step w opens = (w', .moves a') ∧ Serving t w' ∧
        Heading t w'.site.store a' k' ∧ k = k' + 1 := by
  cases hk with
  | ready steps =>
    cases steps with
    | nil => exact .inl ⟨rfl, rfl⟩
    | cons s rest =>
      refine .inr ⟨w, ⟨t, rest, .asking s (Arrangement.execution t)⟩, _, rfl, h,
        .asking rfl (.entering _), ?_⟩
      rw [List.length_cons]
      omega
  | @asking s steps e k he hn =>
    obtain ⟨k, rfl⟩ := hn.exists_succ
    right
    rcases h.step_execution opens he hn (ha s steps rfl) with
      ⟨e', hstep, he', hn'⟩ | ⟨rfl, h', n, hstep, hnet, hclosed⟩
    · refine ⟨w, ⟨t, steps, .asking s e'⟩, _, ?_, h, .asking he' hn', rfl⟩
      simp only [Arrangement.step, hstep]
    · refine ⟨changeRecord (withStore w h') t.record (s.update ·), ⟨t, steps, .ready⟩, _, ?_,
        h.serve hnet hclosed _ _, .ready steps, rfl⟩
      simp only [Arrangement.step, hstep]

end Serving

/-- A world in which the broker has lost everything, and the topology is about to be declared
again. -/
structure Lost (t : Topology) (w w' : HubWorld) : Prop where
  layout : w'.site.store.layout = .empty
  record : w'.site.records[t.record]? = w.site.records[t.record]?
  serving : Serving t w'

/-- Whether all that happens while a topology is declared again leaves the broker alone. -/
def Undisturbed (t : Topology) (moves : List Stint.Move) : Prop :=
  ∀ f, .drift f ∈ moves → Spares t.record f ∧ Peaceful f

/-- The topology is declared again. -/
def redeclare (t : Topology) (w : HubWorld) (moves : List Stint.Move) : Stint :=
  Stint.run w (Arrangement.restore w t) moves

/-- What is known of a stint that meets no refusal: it ends well within a number of steps. -/
def Bounded (t : Topology) (bound : Nat) (moves : List Stint.Move) (y : Stint) : Prop :=
  match y.call with
  | .inl a => Serving t y.world ∧
      ∃ k, Heading t y.world.site.store a k ∧ k + Stint.works moves ≤ bound
  | .inr res => res = .ok ()

theorem works_append (moves : List Stint.Move) (m : Stint.Move) :
    Stint.works (moves ++ [m]) = Stint.works moves + Stint.works [m] := by
  induction moves with
  | nil => simp [Stint.works]
  | cons m' rest ih =>
    cases m' with
    | work => simp only [List.cons_append, Stint.works, ih, Nat.add_right_comm]
    | drift => simp only [List.cons_append, Stint.works, ih]

/-- If what is upheld keeps every step from being refused, the arrangement ends well within four
steps for each step of the topology. -/
theorem bounded_of_upheld {t : Topology} {w : HubWorld} {steps : List TopologyStep}
    {P : List TopologyStep → HubWorld → Prop} (hP : Upheld t.record P)
    (hallows : ∀ {s rest w}, P (s :: rest) w → w.site.store.layout.Allows s)
    (hw : Serving t w) (h : P steps w) (moves : List Stint.Move)
    (hm : ∀ f, .drift f ∈ moves → (∀ rest w, P rest w → P rest (f w)) ∧ Peaceful f) :
    Bounded t (4 * steps.length) moves (Stint.run w ⟨t, steps, .ready⟩ moves) := by
  -- the moves grow at their end, so that what is known of the steps left is at hand
  induction moves using List.reverseRecOn with
  | nil => exact ⟨hw, _, .ready steps, Nat.le_refl _⟩
  | append_singleton front m ih =>
    have hfront := fun f hf => hm f (List.mem_append_left _ hf)
    have hbound := ih hfront
    have hcarried := carries_run hP h fun f hf => (hfront f hf).1
    have hrun : Stint.run w ⟨t, steps, .ready⟩ (front ++ [m]) =
        (Stint.run w ⟨t, steps, .ready⟩ front).step m := by
      rw [Stint.run, List.foldl_append]
      rfl
    rw [hrun]
    generalize Stint.run w ⟨t, steps, .ready⟩ front = y at hbound hcarried ⊢
    obtain ⟨w₁, a | res⟩ := y
    case inr => cases m <;> exact hbound
    obtain ⟨hserving, k, hk, hle⟩ := hbound
    cases m with
    | drift f =>
      obtain ⟨-, hpeace⟩ := hm f (List.mem_append_right _ List.mem_cons_self)
      refine ⟨hserving.drift hpeace, k, ?_, ?_⟩
      · cases hk with
        | ready => exact .ready _
        | asking he hn => exact .asking he (hn.congr (hpeace.closedChannels w₁))
      · rw [works_append]
        exact hle
    | work opens =>
      have hnot : ∀ queue b f e, a.phase ≠ .withdrawing queue b f e := by
        cases hk <;> nofun
      have hallow : ∀ s rest, pending a = s :: rest → w₁.site.store.layout.Allows s := by
        intro s rest hpending
        have hrest := hcarried.2 hnot
        rw [hpending] at hrest
        exact hallows hrest
      rcases hserving.step_arrangement opens hk hallow with
        ⟨rfl, hstep⟩ | ⟨w', a', k', hstep, hserving', hk', rfl⟩
      · simp only [Stint.step, hstep]
        exact rfl
      · simp only [Stint.step, hstep]
        refine ⟨hserving', k', hk', ?_⟩
        rw [works_append]
        simp only [Stint.works]
        omega

/-- A bounded stint has ended once it had the steps for it. -/
theorem Bounded.ends {t : Topology} {bound : Nat} {moves : List Stint.Move} {y : Stint}
    (h : Bounded t bound moves y) (hworks : bound < Stint.works moves) :
    y.call = .inr (.ok ()) := by
  rw [Bounded] at h
  split at h
  case h_1 =>
    obtain ⟨-, k, -, hle⟩ := h
    omega
  case h_2 res hc => rw [hc, h]

/-- If no step is refused, the arrangement ends well within four steps for each step of the
topology. -/
theorem bounded_run {t : Topology} {w : HubWorld} {r : Record} {steps : List TopologyStep}
    (hw : Serving t w) (hr : w.site.records[t.record]? = some r)
    (hp : w.site.store.layout.Passes steps) (moves : List Stint.Move) (hm : Undisturbed t moves) :
    Bounded t (4 * steps.length) moves (Stint.run w ⟨t, steps, .ready⟩ moves) := by
  have hu : Upheld t.record (Along t.record w.site.store.layout r steps) := upheld_along _
  exact bounded_of_upheld hu (fun h => h.allows hp) hw ⟨[], rfl, trivial, rfl, hr⟩ moves
    fun f hf => ⟨fun _ _ h => h.spared (hm f hf).1, (hm f hf).2⟩

section Redeclare

variable {t : Topology} {w w' : HubWorld} {steps : List TopologyStep} {r : Record}
  {moves : List Stint.Move}

theorem restore_of_get? (hr : w.site.records[t.record]? = some r) :
    Arrangement.restore w t = ⟨t, r.map .restore, .ready⟩ := by
  rw [Arrangement.restore, recordAt_of_get? hr]

/-- A topology that has been declared again restored a layout, and did so without an error, exactly
if its record was faithful to that layout. -/
theorem Lost.restores_iff (h : Lost t w w') (hr : w.site.records[t.record]? = some r)
    (hm : Undisturbed t moves) {res : Except (MessagingError Fault) Unit}
    (he : (redeclare t w' moves).call = .inr res) :
    res = .ok () ∧ (redeclare t w' moves).world.site.store.layout = w.site.store.layout ↔
      Faithful r w.site.store.layout := by
  have hr' := h.record.trans hr
  have hspared : Spared t.record moves := fun f hf => (hm f hf).1
  rw [redeclare, restore_of_get? hr'] at he ⊢
  have hok : res = .ok () → Layout.empty.Passes (r.map .restore) ∧
      (Stint.run w' ⟨t, r.map .restore, .ready⟩ moves).world.site.store.layout = layoutOf r := by
    rintro rfl
    have hrun : Stint.run w' ⟨t, r.map .restore, .ready⟩ moves =
        ⟨(Stint.run w' ⟨t, r.map .restore, .ready⟩ moves).world, .inr (.ok ())⟩ := by
      rw [← he]
    obtain ⟨hp, hl, -⟩ := made_of_ok h.layout hr' hspared hrun
    rw [foldl_restore_empty] at hl
    exact ⟨hp, hl⟩
  constructor
  · rintro ⟨hres, hl⟩
    obtain ⟨hp, hl'⟩ := hok hres
    exact ⟨hp, hl'.symm.trans hl⟩
  · intro hf
    have hp := hf.passes
    rw [← h.layout] at hp
    have hbound := bounded_run h.serving hr' hp moves hm
    rw [Bounded, he] at hbound
    have hres : res = .ok () := hbound
    exact ⟨hres, (hok hres).2.trans hf.layout⟩

/-- A topology that is declared again after tidy calls restores what was there. -/
structure Restored (t : Topology) (w : HubWorld) (steps : List TopologyStep)
    (moves : List Stint.Move) (y : Stint) : Prop where
  /-- It comes to its end, within four steps for each call there was and one more. -/
  ends : 4 * steps.length < Stint.works moves → ∃ res, y.call = .inr res
  /-- It ends without an error, with the layout that was there before. -/
  restores : ∀ res, y.call = .inr res →
    res = .ok () ∧ y.world.site.store.layout = w.site.store.layout

/-- A record has at most one declaration for each call. -/
theorem length_foldl_update (steps : List TopologyStep) (r : Record) :
    (steps.foldl TopologyStep.update r).length ≤ r.length + steps.length := by
  induction steps generalizing r with
  | nil => exact Nat.le_refl _
  | cons s rest ih =>
    have hstep : (s.update r).length ≤ r.length + 1 := by
      have hforget : ∀ queue name, (Record.forget r queue name).length ≤ r.length :=
        fun _ _ => List.length_filter_le _ r
      cases s with
      | declare d =>
        have hlen : (Record.remember r d).length =
            (Record.forget r d.isQueue d.name).length + 1 := List.length_append
        exact Nat.le_trans (Nat.le_of_eq hlen) (Nat.succ_le_succ (hforget _ _))
      | restore => exact Nat.le_succ _
      | delete queue name => exact Nat.le_trans (hforget queue name) (Nat.le_succ _)
    have hrest := ih (s.update r)
    rw [List.foldl_cons, List.length_cons]
    omega

/-- After tidy calls, a topology that is declared again at a broker that lost everything restores
the exchanges, queues and bindings that were there. -/
theorem redeclared_run (h : Managed t w steps) (ht : TidyFrom .empty steps) (hl : Lost t w w')
    (hm : Undisturbed t moves) : Restored t w steps moves (redeclare t w' moves) := by
  have hr := h.left.2
  have hf := h.faithful ht
  refine ⟨fun hworks => ?_, fun res he => (hl.restores_iff hr hm he).2 hf⟩
  have hr' := hl.record.trans hr
  have hp := hf.passes
  rw [← hl.layout] at hp
  have hbound := bounded_run hl.serving hr' hp moves hm
  have hlen := length_foldl_update steps []
  rw [redeclare, restore_of_get? hr']
  rw [Bounded] at hbound
  split at hbound
  case h_1 =>
    obtain ⟨-, k, -, hle⟩ := hbound
    rw [List.length_map] at hle
    simp only [List.length_nil] at hlen
    omega
  case h_2 res hc => exact ⟨res, hc⟩

/-- The world that a call of a topology leads to when nothing else happens. -/
def called (t : Topology) (w : HubWorld) (s : TopologyStep) : HubWorld :=
  (Stint.run w ⟨t, [s], .ready⟩ (List.replicate 5 (.work false))).world

theorem Managed.called (h : Managed t w steps) {s : TopologyStep} (hc : IsCall s)
    (he : (Stint.run w ⟨t, [s], .ready⟩ (List.replicate 5 (.work false))).call = .inr (.ok ())) :
    Managed t (called t w s) (steps ++ [s]) := by
  have hs : Spared t.record (List.replicate 5 (.work false)) :=
    fun f hf => absurd (List.eq_of_mem_replicate hf) nofun
  refine h.call hc hs ?_
  rw [← he]
  rfl

theorem undisturbed_works (t : Topology) (n : Nat) (opens : Bool) :
    Undisturbed t (List.replicate n (.work opens)) := by
  intro f hf
  exact absurd (List.eq_of_mem_replicate hf) nofun

/-- A world with a new topology, the only client of a broker. -/
def freshWorld : HubWorld :=
  { site := { store := { channels := 1 }, records := [[]] }
    supervisor := .enroll {} ⟨0⟩ (some 1) }

/-- The topology of that client. -/
def freshTopology : Topology := ⟨⟨⟨⟨0⟩, 1000, 1000, 10, "root"⟩, 1000⟩, 0⟩

/-- That world once the broker has lost everything, with what a topology remembers by then. -/
def lostWorld (r : Record) : HubWorld :=
  { freshWorld with site := { freshWorld.site with records := [r] } }

theorem managed_fresh : Managed freshTopology freshWorld [] :=
  .start (Layout.ext rfl rfl (funext fun _ => propext ⟨nofun, nofun⟩)) rfl

theorem lost_of_get? {r : Record} (hr : w.site.records[0]? = some r) :
    Lost freshTopology w (lostWorld r) :=
  ⟨Layout.ext rfl rfl (funext fun _ => propext ⟨nofun, nofun⟩), hr.symm,
    ⟨rfl, ⟨1, rfl, rfl⟩, rfl, rfl⟩⟩

/-- An exchange and a queue that is bound to it. -/
theorem restored_bound_queue :
    let x : TopologyStep := .declare (.exchange ⟨"x", .topic, true, false⟩)
    let q : TopologyStep := .declare (.queue ⟨"q", true, false, false⟩ [⟨"k", "x"⟩])
    let w := called freshTopology (called freshTopology freshWorld x) q
    let moves := List.replicate 9 (Stint.Move.work false)
    Restored freshTopology w [x, q] moves
      (redeclare freshTopology (lostWorld (recordAt w 0)) moves) := by
  intro x q w moves
  have hm : Managed freshTopology w [x, q] :=
    (managed_fresh.called (s := x) trivial (by decide +kernel)).called (s := q) trivial
      (by decide +kernel)
  have ht : TidyFrom .empty [x, q] := by
    refine ⟨⟨nofun, nofun⟩, ⟨nofun, ?_⟩, trivial⟩
    rintro b (hb | hb)
    · exact hb.elim
    · exact absurd hb.2 nofun
  have hl : Lost freshTopology w (lostWorld (recordAt w 0)) :=
    lost_of_get? (by decide +kernel)
  exact redeclared_run hm ht hl (undisturbed_works freshTopology 9 false)

/-- An exchange that is declared again once a queue is bound to it comes after that queue when all
is declared again, and the binding is refused. -/
theorem refused_after_second_declaration :
    ∃ (t : Topology) (w w' : HubWorld) (steps : List TopologyStep) (moves : List Stint.Move)
      (f : Fault), Managed t w steps ∧ Lost t w w' ∧ Undisturbed t moves ∧
        (redeclare t w' moves).call = .inr (.error (.queueBind "q" "x" "k" f)) := by
  let x : TopologyStep := .declare (.exchange ⟨"x", .direct, false, true⟩)
  let q : TopologyStep := .declare (.queue ⟨"q", false, true, false⟩ [⟨"k", "x"⟩])
  let w := called freshTopology (called freshTopology (called freshTopology freshWorld x) q) x
  have hm : Managed freshTopology w [x, q, x] :=
    ((managed_fresh.called (s := x) trivial (by decide +kernel)).called (s := q) trivial
      (by decide +kernel)).called (s := x) trivial (by decide +kernel)
  have hl : Lost freshTopology w (lostWorld (recordAt w 0)) :=
    lost_of_get? (by decide +kernel)
  have he : (redeclare freshTopology (lostWorld (recordAt w 0))
      (List.replicate 8 (.work false))).call =
        .inr (.error (.queueBind "q" "x" "k" (Hub.notFound "exchange" "x"))) := by
    decide +kernel
  exact ⟨_, _, _, _, _, _, hm, hl, undisturbed_works freshTopology 8 false, he⟩

end Redeclare

end Reconnect.Rehearsal
