import Reconnect.Proofs.Broker.Vigil
import Reconnect.Proofs.Rehearsal.Redeclaration

/-!
# What ends a consumption

Through outages, refusals and recoveries of any kind a consumption ends well only after a context
was canceled. It fails only because its client is detached, because of a fault with which the broker
refused a request of it, or because it ran out of time where it declares its topology again after a
refusal (`enduring_run`). The last of these is the one timeout that it does not take as a sign to
try again: `timeout_after_refusal`.
-/

namespace Reconnect.Broker

variable {S C : Type}

/-! ## What a broker refuses with -/

section Refusals

variable {f : Fault}

/-- An answer other than the refusal of a binding refuses with its error. -/
theorem isNetwork_of_answer {x : Except Fault (Reply C)} (h : refusal? x = some f)
    (hx : ∀ b f', x ≠ .ok (.refused b f')) : f.isNetwork = false := by
  unfold refusal? at h
  split at h
  · split at h
    · cases h
    · cases h
      exact eq_false_of_ne_true ‹_›
  · exact absurd rfl (hx _ _)
  · cases h

theorem isNetwork_of_map {α : Type} {x : Except Fault α} {g : α → Reply C}
    (h : refusal? (x.map g) = some f) (hg : ∀ a b f', g a ≠ .refused b f') :
    f.isNetwork = false := by
  refine isNetwork_of_answer h fun b f' he => ?_
  cases x with
  | error => cases he
  | ok a => exact hg a b f' (Except.ok.inj he)

variable [Channels S C] {c : C}

theorem isNetwork_of_bindAll {queue : String} {bs : List QueueBinding} {s : S}
    (h : refusal? (bindAll s c queue bs).2 = some f) : f.isNetwork = false := by
  induction bs generalizing s with
  | nil => cases h
  | cons b rest ih =>
    rw [bindAll] at h
    split at h
    · exact ih h
    · rename_i f' hf
      cases hn : f'.isNetwork with
      | true => simp [hn, refusal?] at h
      | false =>
        simp only [hn, Bool.false_eq_true, if_false, refusal?, Option.some.injEq] at h
        rw [← h]
        exact hn

/-- A fault with which a broker refuses is not one of the network. -/
theorem isNetwork_of_refusal? {s : S} {r : Request} (h : refusal? (request s c r).2 = some f) :
    f.isNetwork = false := by
  cases r with
  | declareExchange => exact isNetwork_of_map h fun _ _ _ he => by cases he
  | deleteExchange => exact isNetwork_of_map h fun _ _ _ he => by cases he
  | declareQueue q bs =>
    simp only [request] at h
    split at h
    · exact isNetwork_of_bindAll h
    · exact isNetwork_of_answer h fun _ _ he => by cases he
  | deleteQueue => exact isNetwork_of_map h fun _ _ _ he => by cases he
  | publish => exact isNetwork_of_map h fun _ _ _ he => by cases he
  | consume => exact isNetwork_of_map h fun _ _ _ he => by cases he

end Refusals

/-! ## How calls fail -/

/-- Whether an error is none of the consumption's own: its client is detached, or the broker refused
a request. -/
def Known (log : List Note) (e : MessagingError Fault) : Prop :=
  e = .client .clientDetached ∨ ∃ f, .refused f ∈ log ∧
    (e = .client (.operation f) ∨ ∃ queue exchange key, e = .queueBind queue exchange key f)

/-- How a call within a consumption fails. -/
def Fails (w : World (Station S) C) (log : List Note) (client : Client)
    (e : MessagingError Fault) : Prop :=
  (e = .client .contextCanceled ∧ w.isCanceled client.context = true) ∨
    e = .client .operationTimeout ∨ Known log e

theorem Known.append {log : List Note} {e : MessagingError Fault} (h : Known log e)
    (more : List Note) : Known (log ++ more) e := by
  rcases h with h | ⟨f, hf, h⟩
  · exact .inl h
  · exact .inr ⟨f, List.mem_append_left _ hf, h⟩

/-- Whether a request of a consumption was refused. -/
def Rejected (log : List Note) : Prop := ∃ f, .refused f ∈ log

theorem Rejected.append {log : List Note} (h : Rejected log) (more : List Note) :
    Rejected (log ++ more) :=
  h.imp fun _ => List.mem_append_left more

theorem Fails.append {w : World (Station S) C} {log : List Note} {client : Client}
    {e : MessagingError Fault} (h : Fails w log client e) (more : List Note) :
    Fails w (log ++ more) client e :=
  h.imp_right (Or.imp_right fun hk => hk.append more)

theorem mem_refusalOf {r : Except Fault (Reply C)} {f : Fault} (h : refusal? r = some f) :
    .refused f ∈ refusalOf (some r) := by
  rw [refusalOf, Option.bind_some, h]
  exact List.mem_singleton_self _

section Calls

variable [Site S C] [Channels S C] {w w' : World (Station S) C} {opens : Bool}
  {e e' : Execution C} {r : Request} {log : List Note}

/-- The answer to the request that an execution makes in its next step. -/
def answer? (w : World (Station S) C) (opens : Bool) (e : Execution C) (r : Request) :
    Option (Except Fault (Reply C)) :=
  (requesting? w opens e).map fun c => (request w.site.store c r).2

theorem client_of_goes {s : Step (Execution C) (Execution.Outcome (Reply C))}
    (h : e.Goes (asking r) w opens w' s) (hs : s.state? = some e') : e'.client = e.client := by
  have hwait : ∀ {w₁ : World (Station S) C} {e₁ : Execution C}, e₁.client = e.client →
      (Execution.waitOrExpire (α := Reply C) w₁ e₁).state? = some e' → e'.client = e.client := by
    intro w₁ e₁ he h₁
    unfold Execution.waitOrExpire at h₁
    split at h₁ <;> cases h₁
    exact he
  cases h with
  | canceled => cases hs
  | enter => cases hs; rfl
  | works _ h =>
    cases h with
    | workWaits => exact hwait (by rfl) hs
    | rest => exact hwait (by rfl) hs
    | _ => cases hs <;> rfl

/-- What an execution that ends tells of the request that it made. -/
theorem answer?_of_goes {n : Nat} {a : Except (CallError Fault) (Reply C)}
    (h : e.Goes (asking r) w opens w' (.ends ⟨n, a⟩)) :
    (a = .error .contextCanceled ∧ w.isCanceled e.client.context = true) ∨
      a = .error .clientDetached ∨ a = .error .operationTimeout ∨
      (∃ f, a = .error (.operation f) ∧ answer? w opens e r = some (.error f) ∧
        f.isNetwork = false) ∨
      ∃ reply, a = .ok reply ∧ answer? w opens e r = some (.ok reply) := by
  have hwait : ∀ {w₁ : World (Station S) C} {e₁ : Execution C},
      Execution.waitOrExpire (α := Reply C) w₁ e₁ = .ends ⟨n, a⟩ →
        a = .error .operationTimeout := by
    intro w₁ e₁ h₁
    unfold Execution.waitOrExpire at h₁
    split at h₁ <;> cases h₁
    rfl
  have hanswer : ∀ {c : C} {w₁ : World (Station S) C} {x : Except Fault (Reply C)},
      (opens = true → w.isCanceled e.client.context = false) → e.phase = .running c →
        (asking r).step w c = (w₁, .ends x) → answer? w opens e r = some x := by
    intro c w₁ x hc hp hs
    have hcan : (opens && w.isCanceled e.client.context) = false := by
      cases opens with
      | false => rfl
      | true => exact hc rfl
    have hx : (request w.site.store c r).2 = x := by
      simp only [asking, Operation.atOnce, Prod.mk.injEq, Step.ends.injEq] at hs
      exact hs.2
    simp [answer?, requesting?, hp, hcan, hx]
  generalize hs : (Step.ends ⟨n, a⟩ :
    Step (Execution C) (Execution.Outcome (Reply C))) = s at h
  -- it ends with what came of its request, or without having made one in this step
  cases h with
  | canceled _ hc => cases hs; exact .inl ⟨rfl, hc⟩
  | enter => cases hs
  | works hc h =>
    cases h with
    | detached => cases hs; exact .inr (.inl rfl)
    | connect => cases hs
    | miss => cases hs
    | workWaits => exact .inr (.inr (.inl (hwait hs.symm)))
    | workMoves => cases hs
    | succeed hp hstep =>
      cases hs
      exact .inr (.inr (.inr (.inr ⟨_, rfl, hanswer hc hp hstep⟩)))
    | retry => cases hs
    | refuse hp hstep hf =>
      cases hs
      exact .inr (.inr (.inr (.inl ⟨_, rfl, hanswer hc hp hstep, hf⟩)))
    | wake => cases hs
    | rest => exact .inr (.inr (.inl (hwait hs.symm)))

/-- An execution that fails does so for a known reason, out of time, or canceled. -/
theorem fails_of_goes {n : Nat} {err : CallError Fault}
    (h : e.Goes (asking r) w opens w' (.ends ⟨n, .error err⟩)) :
    Fails w (log ++ refusalOf (answer? w opens e r)) e.client (.client err) := by
  rcases answer?_of_goes h with ⟨ha, hc⟩ | ha | ha | ⟨f, ha, hanswer, hf⟩ | ⟨reply, ha, -⟩
  · cases ha; exact .inl ⟨rfl, hc⟩
  · cases ha; exact .inr (.inr (.inl rfl))
  · cases ha; exact .inr (.inl rfl)
  · cases ha
    refine .inr (.inr (.inr ⟨f, List.mem_append_right _ ?_, .inl rfl⟩))
    rw [hanswer]
    exact mem_refusalOf (by simp [refusal?, hf])
  · cases ha

/-- An execution that the broker's fault ends was refused. -/
theorem rejected_of_goes {n : Nat} {f : Fault}
    (h : e.Goes (asking r) w opens w' (.ends ⟨n, .error (.operation f)⟩)) :
    Rejected (log ++ refusalOf (answer? w opens e r)) := by
  rcases fails_of_goes h with ⟨hc, -⟩ | hc | hc | ⟨f', hf, -⟩
  · cases hc
  · cases hc
  · cases hc
  · exact ⟨f', hf⟩

/-- What is known of an arrangement on its way. -/
def Tends (log : List Note) (a : Arrangement C) : Prop :=
  match a.phase with
  | .ready => True
  | .asking _ e => e.client = a.topology.client.client
  | .withdrawing _ _ f _ => .refused f ∈ log

/-- The refusal that an arrangement meets in its next step. -/
def Arrangement.meets (w : World (Station S) C) (opens : Bool) (a : Arrangement C) : List Note :=
  refusalOf ((a.requests? w opens).map fun q => (request w.site.store q.1 q.2).2)

variable {a a' : Arrangement C} {s : Step (Arrangement C) Consumption.Result}

omit [Site S C] in
theorem meets_of_asking {t : TopologyStep} (hp : a.phase = .asking t e) :
    a.meets w opens = refusalOf (answer? w opens e t.request) := by
  rw [Arrangement.meets, Arrangement.requests?, hp, answer?, Option.map_map]
  rfl

theorem Tends.append {log more : List Note} (h : Tends log a) : Tends (log ++ more) a := by
  unfold Tends at h ⊢
  split at h
  · trivial
  · exact h
  · exact List.mem_append_left _ h

/-- An arrangement that goes on tends to the same end. -/
theorem Tends.goes (h : Tends log a) (hg : a.Goes w opens w' s) (hs : s.state? = some a') :
    a'.topology = a.topology ∧ Tends (log ++ a.meets w opens) a' := by
  unfold Tends at h
  cases hg with
  | done => cases hs
  | turn => cases hs; exact ⟨rfl, rfl⟩
  | askWaits hp he =>
    cases hs
    rw [hp] at h
    exact ⟨rfl, (client_of_goes he rfl).trans h⟩
  | askMoves hp he =>
    cases hs
    rw [hp] at h
    exact ⟨rfl, (client_of_goes he rfl).trans h⟩
  | askFailed => cases hs
  | refused hp he =>
    cases hs
    rw [hp] at h
    -- the refusal is noted now, and is the error once the queue has been withdrawn
    refine ⟨rfl, List.mem_append_right _ ?_⟩
    rw [meets_of_asking hp]
    rcases answer?_of_goes he with ⟨ha, -⟩ | ha | ha | ⟨f, ha, -⟩ | ⟨reply, ha, hanswer⟩ <;>
      cases ha
    rw [hanswer]
    exact mem_refusalOf rfl
  | succeed => cases hs; exact ⟨rfl, trivial⟩
  | withdrawWaits hp =>
    cases hs
    rw [hp] at h
    exact ⟨rfl, List.mem_append_left _ h⟩
  | withdrawMoves hp =>
    cases hs
    rw [hp] at h
    exact ⟨rfl, List.mem_append_left _ h⟩
  | withdrawn => cases hs

/-- An arrangement that fails does so for a known reason, out of time, or canceled. -/
theorem Tends.fails (h : Tends log a) {err : MessagingError Fault}
    (hg : a.Goes w opens w' (.ends (.error err))) :
    Fails w (log ++ a.meets w opens) a.topology.client.client err := by
  unfold Tends at h
  cases hg with
  | askFailed hp he =>
    rw [hp] at h
    rw [meets_of_asking hp, ← h]
    exact fails_of_goes he
  | withdrawn hp =>
    rw [hp] at h
    exact .inr (.inr (.inr ⟨_, List.mem_append_left _ h, .inr ⟨_, _, _, rfl⟩⟩))

end Calls

/-! ## The invariant -/

section Vigil

variable [Site S C] [Channels S C] {h : Handler (World (Station S) C)} {consumer : Consumer}
  {context : String}

/-- Whether a result is one that a consumption may have: it ends well after a context was canceled,
and fails for a known reason or, with a topology, out of time after a refusal. -/
def Fine (consumer : Consumer) (context : String) (w : World (Station S) C) (log : List Note) :
    Consumption.Result → Prop
  | .ok _ => w.isCanceled context = true ∨
      w.isCanceled consumer.client.client.context = true ∨
      ∃ t, consumer.topology = some t ∧ w.isCanceled t.client.client.context = true
  | .error e => Known log e ∨
      e = .client .operationTimeout ∧ .lapsed ∈ log ∧ Rejected log ∧ consumer.topology.isSome

/-- What is known of a consumption in its phases. -/
def Minds (consumer : Consumer) (context : String) (w : World (Station S) C) (log : List Note) :
    Consumption.Phase C → Prop
  | .restoring _ a => consumer.topology = some a.topology ∧ Tends log a
  | .recovering a => consumer.topology = some a.topology ∧ Tends log a ∧ Rejected log
  | .opening _ e => e.client = consumer.client.client
  | .leaving _ result => Fine consumer context w log result
  | _ => True

/-- What holds of every vigil. -/
def Holds (consumer : Consumer) (context : String) (y : Vigil S C) : Prop :=
  match y.call with
  | .inl c => c.consumer = consumer ∧ c.context = context ∧
      Minds consumer context y.world y.log c.phase
  | .inr result => Fine consumer context y.world y.log result

omit [Site S C] [Channels S C] in
theorem Fine.onward {w w' : World (Station S) C} {log more : List Note}
    {result : Consumption.Result} (hf : Fine consumer context w log result)
    (hc : ∀ x, w.isCanceled x = true → w'.isCanceled x = true) :
    Fine consumer context w' (log ++ more) result := by
  cases result with
  | ok =>
    rcases hf with hf | hf | ⟨t, ht, hf⟩
    · exact .inl (hc _ hf)
    · exact .inr (.inl (hc _ hf))
    · exact .inr (.inr ⟨t, ht, hc _ hf⟩)
  | error e =>
    rcases hf with hf | ⟨he, hf⟩
    · exact .inl (hf.append more)
    · exact .inr ⟨he, List.mem_append_left _ hf.1, hf.2.1.append more, hf.2.2⟩

omit [Site S C] [Channels S C] in
theorem Minds.onward {w w' : World (Station S) C} {log more : List Note}
    {phase : Consumption.Phase C} (hm : Minds consumer context w log phase)
    (hc : ∀ x, w.isCanceled x = true → w'.isCanceled x = true) :
    Minds consumer context w' (log ++ more) phase := by
  unfold Minds at hm ⊢
  split at hm
  · exact ⟨hm.1, hm.2.append⟩
  · exact ⟨hm.1, hm.2.1.append, hm.2.2.append more⟩
  · exact hm
  · exact hm.onward hc
  · trivial

omit [Site S C] [Channels S C] in
/-- A call within a consumption that fails is a fine end of it, if a timeout is one of a topology
that was declared again after a refusal. -/
theorem fine_of_fails {w w' : World (Station S) C} {log : List Note} {client : Client}
    {e : MessagingError Fault} (hf : Fails w log client e)
    (hc : ∀ x, w.isCanceled x = true → w'.isCanceled x = true)
    (hclient : client = consumer.client.client ∨
      ∃ t, consumer.topology = some t ∧ client = t.client.client)
    (hl : e = .client .operationTimeout →
      .lapsed ∈ log ∧ Rejected log ∧ consumer.topology.isSome) :
    Fine consumer context w' log (if e.isCanceled then .ok () else .error e) := by
  rcases hf with ⟨rfl, hcan⟩ | rfl | hknown
  · rcases hclient with rfl | ⟨t, ht, rfl⟩
    · exact .inr (.inl (hc _ hcan))
    · exact .inr (.inr ⟨t, ht, hc _ hcan⟩)
  · exact .inr ⟨rfl, hl rfl⟩
  · have hnot : e.isCanceled = false := by
      rcases hknown with rfl | ⟨f, -, rfl | ⟨_, _, _, rfl⟩⟩ <;> rfl
    rw [hnot]
    exact .inl hknown

omit [Site S C] [Channels S C] in
theorem result?_finish (w : World (Station S) C) (c : Consumption C)
    (result : Consumption.Result) :
    Consumption.result? (Consumption.finish w c result).2 = some result := by
  rw [Consumption.finish]
  split <;> rfl

omit [Site S C] [Channels S C] in
/-- A consumption that has come to a fine end holds. -/
theorem holds_finish {w w' : World (Station S) C} {c : Consumption C} {log : List Note}
    {result : Consumption.Result} (hc : c.consumer = consumer ∧ c.context = context)
    (hf : Fine consumer context w' log result) :
    Holds consumer context
      { world := w', call := Vigil.goOn (Consumption.finish w c result).2, log } := by
  rw [Consumption.finish]
  split
  · exact ⟨hc.1, hc.2, hf⟩
  · exact hf

omit [Site S C] in
theorem notes_of_arrangement {w : World (Station S) C} {opens : Bool} {c : Consumption C}
    {a : Arrangement C} (hn : (opens && w.isCanceled c.context) = false)
    (hp : (∃ again, c.phase = .restoring again a) ∨ c.phase = .recovering a)
    (s : Step (Consumption C) Consumption.Result) :
    c.notes w opens s = a.meets w opens ++ c.passes w s := by
  have hr : c.requests? w opens = a.requests? w opens := by
    rcases hp with ⟨again, hp⟩ | hp <;> simp [Consumption.requests?, hn, hp]
  rw [Consumption.notes, Consumption.meets, hr, Arrangement.meets]

omit [Site S C] in
theorem notes_of_opening {w : World (Station S) C} {opens again : Bool} {c : Consumption C}
    {e : Execution C} (hn : (opens && w.isCanceled c.context) = false)
    (hp : c.phase = .opening again e) (s : Step (Consumption C) Consumption.Result) :
    c.notes w opens s = refusalOf (answer? w opens e (.consume c.queue)) ++ c.passes w s := by
  have hr : c.requests? w opens = (requesting? w opens e).map (·, .consume c.queue) := by
    simp [Consumption.requests?, hn, hp]
  rw [Consumption.notes, Consumption.meets, hr, answer?, Option.map_map]
  rfl

omit [Site S C] [Channels S C] in
theorem topology_of_outdated? {w : World (Station S) C} {c : Consumption C} {t : Topology}
    (h : Consumption.outdated? w c = some t) : c.consumer.topology = some t := by
  unfold Consumption.outdated? at h
  split at h
  case h_1 t' seen ht hs =>
    split at h
    · cases h
      exact ht
    · cases h
  case h_2 => cases h

omit [Site S C] [Channels S C] in
/-- A timeout after a refusal is noted. -/
theorem lapsed_of_timeout {w : World (Station S) C} {c : Consumption C} {a : Arrangement C}
    {s : Step (Consumption C) Consumption.Result} (hp : c.phase = .recovering a)
    (hr : Consumption.result? s = some (.error (.client .operationTimeout))) :
    .lapsed ∈ c.passes w s := by
  simp only [Consumption.passes, hp, hr]
  exact List.mem_singleton_self _

omit [Site S C] in
/-- Of a delivery nothing has to be known. -/
theorem minds_receive {w w' : World (Station S) C} {log : List Note} {c : Consumption C}
    (hm : Minds consumer context w log c.phase) (channel : C) (stream : Nat) (d : Delivery) :
    Minds consumer context w log (Consumption.receive h w' c channel stream d).2.phase := by
  unfold Consumption.receive
  dsimp only
  split
  · split <;> exact hm
  · trivial

omit [Site S C] [Channels S C] in
theorem minds_retry {w : World (Station S) C} {log : List Note} (time : Millis) (again : Bool)
    {till : Event} : Minds consumer context w log
      (if time = 0 then (.yielding again till : Consumption.Phase C) else .seeking again) := by
  split <;> trivial

omit [Site S C] [Channels S C] in
/-- A consumption that goes on holds if what is known of it fits its phase. -/
theorem holds_goOn {w : World (Station S) C} {log : List Note} {c c' : Consumption C}
    {s : Step (Consumption C) Consumption.Result} (hs : s.state? = some c')
    (hsame : c'.consumer = c.consumer ∧ c'.context = c.context)
    (hc : c.consumer = consumer ∧ c.context = context)
    (hm : Minds consumer context w log c'.phase) :
    Holds consumer context { world := w, call := Vigil.goOn s, log } := by
  have hholds : c'.consumer = consumer ∧ c'.context = context ∧
      Minds consumer context w log c'.phase :=
    ⟨hsame.1.trans hc.1, hsame.2.trans hc.2, hm⟩
  cases s with
  | waits => cases hs; exact hholds
  | moves => cases hs; exact hholds
  | ends => cases hs

/-- A step of a consumption keeps what holds. -/
theorem holds_work (hh : h.IsLevel) {w : World (Station S) C} {log : List Note}
    {c : Consumption C} (hc : c.consumer = consumer ∧ c.context = context)
    (hm : Minds consumer context w log c.phase) (opens : Bool) :
    Holds consumer context (Vigil.step h { world := w, call := .inl c, log } (.work opens)) := by
  have hg := c.goes_step h w opens
  have hcan : ∀ x, w.isCanceled x = true → (c.step h w opens).1.isCanceled x = true :=
    fun x => hg.isCanceled hh
  simp only [Vigil.step]
  generalize (c.step h w opens).1 = w' at hg hcan ⊢
  generalize (c.step h w opens).2 = s at hg ⊢
  have hgo : ∀ {c' : Consumption C} {log' : List Note}, s.state? = some c' →
      Minds consumer context w' log' c'.phase →
        Holds consumer context { world := w', call := Vigil.goOn s, log := log' } :=
    fun hs => holds_goOn hs (hg.same hs) hc
  have hstop : ∀ {w₁ log'}, w.isCanceled c.context = true →
      Holds consumer context
        { world := w', call := Vigil.goOn (Consumption.finish w₁ c (.ok ())).2, log := log' } :=
    fun hcanceled => holds_finish hc (.inl (hc.2 ▸ hcan _ hcanceled))
  cases hg with
  | enter => exact hgo rfl trivial
  | canceled hcanceled => exact hstop hcanceled
  | outdated hp ht => exact hgo rfl ⟨hc.1 ▸ topology_of_outdated? ht, trivial⟩
  | current =>
    refine hgo rfl ?_
    rw [← hc.1]
    rfl
  | yielded => exact hgo rfl trivial
  | yields hp => exact hgo rfl (by rw [hp]; trivial)
  | restores hn hp ha hs hs' =>
    rw [hp] at hm
    obtain ⟨ht, htends⟩ := hm.2.goes ha hs
    refine hgo hs' ⟨ht ▸ hm.1, ?_⟩
    rw [notes_of_arrangement hn (.inl ⟨_, hp⟩), ← List.append_assoc]
    exact htends.append
  | restored =>
    refine hgo rfl ?_
    rw [← hc.1]
    rfl
  | restoreLate => exact hgo rfl (minds_retry _ _)
  | restoreFailed hn hp ha he =>
    rw [hp] at hm
    refine holds_finish hc ?_
    rw [notes_of_arrangement hn (.inl ⟨_, hp⟩), ← List.append_assoc]
    refine (fine_of_fails (hm.2.fails ha) hcan (.inr ⟨_, hm.1, rfl⟩) ?_).onward fun _ => id
    -- a timeout would have been tried again
    rintro rfl
    cases he
  | opens hn hp he hs hs' =>
    rw [hp] at hm
    exact hgo hs' ((client_of_goes he hs).trans hm)
  | opened => exact hgo rfl trivial
  | unopened => exact hgo rfl trivial
  | openLate => exact hgo rfl (minds_retry _ _)
  | refusedOnce hn hp ht he =>
    refine hgo rfl ⟨hc.1 ▸ ht, trivial, ?_⟩
    rw [notes_of_opening hn hp, ← List.append_assoc]
    exact (rejected_of_goes he).append _
  | openFailed hn hp he ht =>
    rw [hp] at hm
    refine holds_finish hc ?_
    rw [notes_of_opening hn hp, ← List.append_assoc]
    refine (fine_of_fails (fails_of_goes he) hcan (.inl hm) ?_).onward fun _ => id
    -- and so would this one
    intro hlate
    cases hlate
    exact absurd rfl ht
  | recovers hn hp ha hs hs' =>
    rw [hp] at hm
    obtain ⟨ht, htends⟩ := hm.2.1.goes ha hs
    refine hgo hs' ⟨ht ▸ hm.1, ?_, hm.2.2.append _⟩
    rw [notes_of_arrangement hn (.inr hp), ← List.append_assoc]
    exact htends.append
  | recovered => exact hgo rfl trivial
  | recoverFailed hn hp ha =>
    rw [hp] at hm
    refine holds_finish hc ?_
    rw [notes_of_arrangement hn (.inr hp), ← List.append_assoc]
    refine fine_of_fails ((hm.2.1.fails ha).append _) hcan (.inr ⟨_, hm.1, rfl⟩) ?_
    -- here a timeout is the end, but it is noted
    rintro rfl
    exact ⟨List.mem_append_right _ (lapsed_of_timeout hp (result?_finish _ c _)),
      (hm.2.2.append _).append _, by rw [hm.1]; rfl⟩
  | readCanceled hp hcanceled => exact hstop hcanceled
  | pending hp => exact hgo rfl (by rw [hp]; trivial)
  | delivered hp => exact hgo rfl (minds_receive (by rw [hp]; trivial) _ _ _)
  | lost => exact hgo rfl trivial
  | handles hp => exact hgo rfl (by rw [hp]; trivial)
  | handled => exact hgo rfl trivial
  | leaves hp hs' =>
    rw [hp] at hm
    exact hgo hs' (hm.onward hcan)
  | left hp =>
    rw [hp] at hm
    exact hm.onward hcan

/-- A move keeps what holds. -/
theorem holds_step (hh : h.IsLevel) {y : Vigil S C} (hy : Holds consumer context y)
    (opens : Bool) : Holds consumer context (y.step h (.work opens)) := by
  obtain ⟨w, c | result, log⟩ := y
  · exact holds_work hh ⟨hy.1, hy.2.1⟩ hy.2.2 opens
  · exact hy

theorem holds_drift {y : Vigil S C} (hy : Holds consumer context y)
    {f : World (Station S) C → World (Station S) C} (hf : ∀ w, Onward w (f w)) :
    Holds consumer context (y.step h (.drift f)) := by
  obtain ⟨w, c | result, log⟩ := y
  · exact ⟨hy.1, hy.2.1, hy.2.2.onward (hf w).canceled⟩
  · exact hy.onward (hf w).canceled

omit [Site S C] in
/-- What is noted as a refusal of the broker is not a fault of the network. -/
theorem isNetwork_of_notes {w : World (Station S) C} {opens : Bool} {c : Consumption C}
    {s : Step (Consumption C) Consumption.Result} {f : Fault}
    (hf : .refused f ∈ c.notes w opens s) : f.isNetwork = false := by
  rcases List.mem_append.1 hf with hf | hf
  · obtain ⟨f', he, hf'⟩ := exists_of_mem_refusalOf hf
    cases he
    obtain ⟨x, hx, hr⟩ := Option.bind_eq_some_iff.1 hf'
    obtain ⟨q, -, rfl⟩ := Option.map_eq_some_iff.1 hx
    exact isNetwork_of_refusal? hr
  · unfold Consumption.passes at hf
    split at hf <;> simp_all

/-- What a consumption holds out against. -/
structure Enduring (consumer : Consumer) (context : String) (y : Vigil S C) : Prop where
  /-- It ends well only after a context was canceled. -/
  ok : y.call = .inr (.ok ()) → y.world.isCanceled context = true ∨
    y.world.isCanceled consumer.client.client.context = true ∨
    ∃ t, consumer.topology = some t ∧ y.world.isCanceled t.client.client.context = true
  /-- An error other than a timeout is a fault with which the broker refused a request, unless the
  client is detached. -/
  error : ∀ e, y.call = .inr (.error e) → e.isTimeout = false → Known y.log e
  /-- It runs out of time only where it declares its topology again after a refusal. -/
  timeout : ∀ e, y.call = .inr (.error e) → e.isTimeout = true →
    .lapsed ∈ y.log ∧ Rejected y.log ∧ consumer.topology.isSome
  /-- What the broker refuses with is not a fault of the network. -/
  refused : ∀ f, .refused f ∈ y.log → f.isNetwork = false

omit [Site S C] [Channels S C] in
theorem Known.isTimeout {log : List Note} {e : MessagingError Fault} (h : Known log e) :
    e.isTimeout = false := by
  rcases h with rfl | ⟨f, -, rfl | ⟨_, _, _, rfl⟩⟩ <;> rfl

/-- However often the network fails, a stream ends or a request is refused, a consumption holds
out. -/
theorem enduring_run (hh : h.IsLevel) (w : World (Station S) C) (queue : String)
    {moves : List (Vigil.Move S C)} (hm : Vigil.GoesOn moves) :
    Enduring consumer context (Vigil.run h w consumer context queue moves) := by
  have hholds : Holds consumer context (Vigil.run h w consumer context queue moves) :=
    Vigil.run_induction hm ⟨rfl, rfl, trivial⟩ (fun _ opens hy => holds_step hh hy opens)
      fun _ _ hf hy => holds_drift hy hf
  -- whatever becomes of the consumption, what is noted of the broker is not the network's
  have hrefused : ∀ f, .refused f ∈ (Vigil.run h w consumer context queue moves).log →
      f.isNetwork = false := by
    refine Vigil.run_induction (P := fun y => ∀ f, .refused f ∈ y.log → f.isNetwork = false) hm
      nofun ?_ ?_
    · rintro ⟨w, c | result, log⟩ opens hy f hf
      · exact (List.mem_append.1 hf).elim (hy f) isNetwork_of_notes
      · exact hy f hf
    · rintro ⟨w, call, log⟩ g hg hy f hf
      refine (List.mem_append.1 hf).elim (hy f) fun hf => ?_
      dsimp only at hf
      split at hf <;> simp at hf
  generalize Vigil.run h w consumer context queue moves = y at hholds hrefused
  have hfine : ∀ result, y.call = .inr result → Fine consumer context y.world y.log result := by
    intro result hc
    rw [Holds, hc] at hholds
    exact hholds
  refine ⟨fun hc => hfine _ hc, fun e hc ht => ?_, fun e hc ht => ?_, hrefused⟩
  · rcases hfine _ hc with hk | ⟨rfl, -⟩
    · exact hk
    · cases ht
  · rcases hfine _ hc with hk | ⟨-, hl⟩
    · exact absurd (hk.isTimeout.symm.trans ht) nofun
    · exact hl

/-- Once its context has been canceled, a consumption that has opened its stream ends well. -/
theorem enduring_canceled :
    let consumer : Consumer := { client := Rehearsal.freshTopology.client }
    let w := withStore Rehearsal.freshWorld
      (Rehearsal.freshWorld.site.store.declareQueue ⟨"q", true, false, false⟩)
    let moves := List.replicate 4 (.work true) ++
      .drift (·.cancel "go") :: List.replicate 7 (.work true)
    let y := Vigil.run .accepting w consumer "go" "q" moves
    y.call = .inr (.ok ()) ∧ Enduring consumer "go" y := by
  intro consumer w moves y
  refine ⟨Sum.getRight?_eq_some_iff.1 (by decide +kernel),
    enduring_run Handler.isLevel_accepting w "q" fun f hf w => ?_⟩
  have hf : f = (·.cancel "go") := by simpa [moves] using hf
  rw [hf]
  exact .cancel w "go"

/-- If the network goes down after a stream was refused, while the topology is being declared again,
the consumption ends out of time, although nothing was canceled. -/
theorem timeout_after_refusal :
    ∃ (w : Rehearsal.HubWorld) (consumer : Consumer) (moves : List (Vigil.Move Rehearsal.Hub Nat)),
      Vigil.GoesOn moves ∧
        (Vigil.run .accepting w consumer "go" "q" moves).call =
          .inr (.error (.client .operationTimeout)) := by
  let outage (w : Rehearsal.HubWorld) : Rehearsal.HubWorld := { w with
    now := 2000
    site := { w.site with
      store := { w.site.store with network := w.site.store.network.setOnline false } } }
  refine ⟨Rehearsal.lostWorld [.exchange ⟨"x", .direct, true, false⟩],
    { client := Rehearsal.freshTopology.client, topology := some Rehearsal.freshTopology },
    List.replicate 6 (.work true) ++ .drift outage :: List.replicate 7 (.work true),
    fun f hf w => ?_, Sum.getRight?_eq_some_iff.1 (by decide +kernel)⟩
  have hf : f = outage := by simpa using hf
  have hl : Level w (outage w) := .of_eq rfl rfl rfl
  exact hf ▸ hl.toOnward

end Vigil

end Reconnect.Broker
