import Reconnect.Proofs.Cache.GuardedWork
import Reconnect.Proofs.Identifier
import Reconnect.Proofs.Rehearsal.Tenancy

/-!
# Work under locks gives its locks back

Work under locks is followed from its first step on, whatever its operation does and whatever else
happens: the clock moves, contexts are canceled, the network fails, keys come and go. Only the lock
that the work made for itself is its own.

It is written down when the work has taken its keys, what becomes of its operation, when it begins
to give the keys back, and what keeps it from that (`Note`). The operation is invoked only between
the two, the outcome is what it came to, and by then no key holds the token of the work, unless the
context of the client is canceled, or the store cannot be reached in time (`custody_run`). No other
context can keep the keys held; that of the client can: `held_after_cancellation`.
-/

namespace Reconnect.Rehearsal

open Cache

namespace Custody

variable {K α : Type}

/-- What is written down of work under locks. -/
inductive Note (α : Type) where
  /-- The keys have been taken with a token. -/
  | taken (token : String)
  /-- The operation is invoked. -/
  | invoked
  /-- An attempt of the operation has ended. -/
  | ended (r : Except Fault α)
  /-- The operation is over. -/
  | finished (o : Execution.Outcome α)
  /-- The keys are about to be given back. -/
  | leaving (since : Millis)
  /-- There was no connection, or a request failed. -/
  | interrupted

namespace Note

/-- Whether a note is about the operation. -/
def isWork : Note α → Bool
  | .invoked | .ended _ => true
  | _ => false

/-- Whether a note is about giving the keys back. -/
def isLeave : Note α → Bool
  | .leaving _ | .interrupted => true
  | _ => false

def isInvoked : Note α → Bool
  | .invoked => true
  | _ => false

/-- The token with which the keys have been taken. -/
def token? : Note α → Option String
  | .taken token => some token
  | _ => none

end Note

/-- What a step of an execution is for its operation. -/
def heard (op : Operation VaultWorld Unit K α) (w : VaultWorld) (opens : Bool)
    (e : Execution K) : List (Note α) :=
  if opens && w.isCanceled e.client.context then []
  else
    match e.phase with
    | .seeking => if (w.connection? e.client.id).isSome then [.invoked] else []
    | .running k =>
      match (op.step w k).2 with
      | .ends r => [.ended r]
      | .waits _ | .moves _ => []
    | .entering _ | .resting _ => []

/-- What a step of an execution is for the keys that it is to give back. -/
def told (w : VaultWorld) (e e' : Execution Unit) : List (Note α) :=
  match e.phase, e'.phase with
  | .entering _, .seeking => [.leaving w.now]
  | .seeking, .resting _ | .running _, .resting _ => [.interrupted]
  | _, _ => []

/-- What is written down when work under locks takes a step and goes on as `next?`. -/
def notes (op : Operation VaultWorld Unit K α) (w : VaultWorld) (opens : Bool)
    (g : GuardedWork Unit K α) (next? : Option (GuardedWork Unit K α)) : List (Note α) :=
  match g.phase, next?.map GuardedWork.phase with
  | .acquiring a, some (.working _ _) => [.taken a.token]
  | .working _ e, some (.releasing _ o) => heard op w opens e ++ [.finished o]
  | .working _ e, _ => heard op w opens e
  | .releasing r _, some (.releasing r' _) =>
    match r.phase, r'.phase with
    | .asking _ e, .asking _ e' => told w e e'
    | _, _ => []
  | _, _ => []

end Custody

/-- Work under locks on its way, or its outcome, and what has been written down. -/
structure Custody (K α : Type) where
  world : VaultWorld
  call : GuardedWork Unit K α ⊕ GuardedWork.Outcome α
  log : List (Custody.Note α) := []

namespace Custody

variable {K α : Type}

/-- What can happen next. -/
inductive Move where
  /-- The work takes a step. -/
  | work (opens : Bool)
  /-- Something else happens in the world. -/
  | drift (f : VaultWorld → VaultWorld)

/-- Work after a step. -/
def goOn : Step (GuardedWork Unit K α) (GuardedWork.Outcome α) →
    GuardedWork Unit K α ⊕ GuardedWork.Outcome α
  | .waits g | .moves g => .inl g
  | .ends o => .inr o

variable (op : Operation VaultWorld Unit K α)

/-- One move. -/
def step (y : Custody K α) : Move → Custody K α
  | .work opens =>
    match y.call with
    | .inl g =>
      let r := g.step op y.world opens
      ⟨r.1, goOn r.2, y.log ++ notes op y.world opens g r.2.state?⟩
    | .inr _ => y
  | .drift f => { y with world := f y.world }

/-- Work under locks that has taken its first step, in which it makes its lock. -/
def begin (w : VaultWorld) (client : LockClient) (context : Option String)
    (resources : List String) : Custody K α :=
  step op ⟨w, .inl ⟨client, context, .entering resources⟩, []⟩ (.work true)

/-- What a list of moves leads to after the first step. -/
def run (w : VaultWorld) (client : LockClient) (context : Option String)
    (resources : List String) (moves : List Move) : Custody K α :=
  moves.foldl (step op) (begin op w client context resources)

/-- A change of the world that spares the lock in a place. -/
def Spares (i : Nat) (f : VaultWorld → VaultWorld) : Prop :=
  ∀ w, (f w).site.locks[i]? = w.site.locks[i]?

/-- Whether an operation, and all that happens beside the work, spares the lock in a place. -/
structure Private (i : Nat) (moves : List Move) : Prop where
  operation : ∀ k, Spares i fun w => (op.step w k).1
  drifts : ∀ f, .drift f ∈ moves → Spares i f

/-! ## What is known of the keys, the operation and the outcome -/

/-- The outcome of an execution is what its operation came to, unless the execution was cut off. -/
structure Own (body : List (Note α)) (o : Execution.Outcome α) : Prop where
  attempts : body.countP Note.isInvoked = o.attempts
  succeeded : ∀ a, o.result = .ok a → body.getLast? = some (.ended (.ok a))
  failed : ∀ f, o.result = .error (.operation f) →
    f.isNetwork = false ∧ body.getLast? = some (.ended (.error f))

/-- What can be written down, in its order: the keys are taken, then the operation is invoked, and
the keys are given back once it is over. -/
inductive Chronicle : List (Note α) → Prop
  | empty : Chronicle []
  | working (token : String) {body : List (Note α)} (hb : ∀ n ∈ body, n.isWork = true) :
      Chronicle (.taken token :: body)
  | leaving (token : String) {body rest : List (Note α)} {o : Execution.Outcome α}
      (hb : ∀ n ∈ body, n.isWork = true) (ho : Own body o) (hr : ∀ n ∈ rest, n.isLeave = true) :
      Chronicle (.taken token :: (body ++ .finished o :: rest))

/-- No key holds a token any more, or what kept it from being dropped: the context of the client is
canceled, nothing holds the supervisor, or the time for it is over and the store could not be
reached. -/
inductive GivenBack (client : LockClient) (resources : List String) (token : String)
    (rest : List (Note α)) (w : VaultWorld) : Prop
  | dropped (h : ∀ resource ∈ resources, w.site.store.value? (lockKey resource) ≠ some token)
  | canceled (h : w.isCanceled client.client.context = true)
  | detached (h : w.attached = false)
  | outOfReach {since : Millis} (hs : .leaving since ∈ rest) (hi : .interrupted ∈ rest)
      (hd : since + client.client.writeTimeout ≤ w.now)

/-- How work under locks returns: its keys could not be taken, and the operation was not invoked,
or it was invoked under them and they are given back. -/
inductive Returned (client : LockClient) (resources : List String) (w : VaultWorld) :
    List (Note α) → GuardedWork.Outcome α → Prop
  | never (err : LockError Fault) : Returned client resources w [] ⟨0, .error err⟩
  | through {token : String} {body rest : List (Note α)} {o : Execution.Outcome α}
      (hb : ∀ n ∈ body, n.isWork = true) (ho : Own body o) (hr : ∀ n ∈ rest, n.isLeave = true)
      (hg : GivenBack client resources token rest w) :
      Returned client resources w (.taken token :: (body ++ .finished o :: rest))
        (GuardedWork.outcome o)

/-! ## The lock of the work -/

section Lock

variable {client : LockClient} {i : Nat} {resources : List String} {w w' : VaultWorld}
  {opens : Bool} {token : String}

theorem get?_of_quiet (h : Quiet w w') (i : Nat) : w'.site.locks[i]? = w.site.locks[i]? := by
  rw [h.locks]

/-- An execution of an operation that spares a lock spares it. -/
theorem get?_of_goes {op : Operation VaultWorld Unit K α} {e : Execution K}
    {s : Step (Execution K) (Execution.Outcome α)} (hop : ∀ k, Spares i fun w => (op.step w k).1)
    (h : e.Goes op w opens w' s) : w'.site.locks[i]? = w.site.locks[i]? := by
  have hstep : ∀ {k w₁ s₁}, op.step w k = (w₁, s₁) → w₁.site.locks[i]? = w.site.locks[i]? := by
    intro k w₁ s₁ hs
    have hk := hop k w
    simp only [hs] at hk
    exact hk
  cases h with
  | canceled => rfl
  | enter => rfl
  | works _ h =>
    cases h with
    | detached => rfl
    | connect => rfl
    | miss => rfl
    | workWaits _ hs => exact hstep hs
    | workMoves _ hs => exact hstep hs
    | succeed _ hs => exact hstep hs
    | retry _ hs =>
      rw [World.report_site]
      exact hstep hs
    | refuse _ hs => exact hstep hs
    | wake => rfl
    | rest => rfl

/-- The acquisition of the lock in a place is under way. -/
structure Awaited (client : LockClient) (i : Nat) (resources : List String)
    (a : Acquisition Unit) (w : VaultWorld) : Prop where
  client : a.client = client
  place : a.lock = i
  token : a.phase ≠ .entering → a.token ≠ ""
  lock : ∃ l : Lock, w.site.locks[i]? = some l ∧ l.resources = resources

/-- The lock in a place holds its keys with a token. -/
structure Held (i : Nat) (resources : List String) (token : String) (w : VaultWorld) : Prop where
  lock : ∃ l : Lock, w.site.locks[i]? = some l ∧ l.resources = resources ∧ l.held = .ok token

theorem Awaited.of_get? {a : Acquisition Unit} (h : Awaited client i resources a w)
    (hw : w'.site.locks[i]? = w.site.locks[i]?) : Awaited client i resources a w' := by
  obtain ⟨l, hl, hres⟩ := h.lock
  exact ⟨h.client, h.place, h.token, l, hw.trans hl, hres⟩

theorem Held.of_get? (h : Held i resources token w)
    (hw : w'.site.locks[i]? = w.site.locks[i]?) : Held i resources token w' := by
  obtain ⟨l, hl, hrest⟩ := h.lock
  exact ⟨l, hw.trans hl, hrest⟩

theorem Held.lockAt (h : Held i resources token w) :
    (Cache.lockAt w i).held = .ok token ∧ (Cache.lockAt w i).keys = resources.map lockKey := by
  obtain ⟨l, hl, rfl, hheld⟩ := h.lock
  rw [lockAt_of_get? hl]
  exact ⟨hheld, rfl⟩

/-- An acquisition that goes on still has the lock to acquire. -/
theorem Awaited.goes {a a' : Acquisition Unit}
    {s : Step (Acquisition Unit) (Except (LockError Fault) Unit)}
    (h : Awaited client i resources a w) (hg : a.Goes w opens w' s) (hs : s.state? = some a') :
    Awaited client i resources a' w' := by
  obtain ⟨rfl, rfl, htoken, l, hl, hres⟩ := h
  have hkeep : ∀ {w₁ : VaultWorld} {phase : Acquisition.Phase Unit}, a.phase ≠ .entering →
      w₁.site.locks[a.lock]? = w.site.locks[a.lock]? →
      Awaited a.client a.lock resources { a with phase } w₁ :=
    fun hp hw => ⟨rfl, rfl, fun _ => htoken hp, l, hw.trans hl, hres⟩
  cases hg with
  | busy | enterStopped | stop | expire | take | outOfTime | askFailed => cases hs
  | enter =>
    cases hs
    refine ⟨rfl, rfl, fun _ => Identifier.text_ne_empty _, l.begin, ?_, hres⟩
    have hdraw : w.draw.1.site.locks[a.lock]? = some l := hl
    rw [changeLock_get?, hdraw, Option.map_some]
  | ask hp =>
    cases hs
    exact hkeep (by simp [hp]) rfl
  | askWaits hp _ he =>
    cases hs
    exact hkeep (by simp [hp]) (get?_of_quiet (quiet_of_offer he (by simp)) a.lock)
  | askMoves hp _ he =>
    cases hs
    exact hkeep (by simp [hp]) (get?_of_quiet (quiet_of_offer he (by simp)) a.lock)
  | takeNot hp _ he =>
    cases hs
    have hq := (quiet_of_offer he (by simp)).trans (.roll _)
    exact hkeep (by simp [hp]) (get?_of_quiet hq a.lock)
  | wake hp =>
    cases hs
    exact hkeep (by simp [hp]) rfl
  | rest hp =>
    cases hs
    exact ⟨rfl, rfl, htoken, l, hl, hres⟩

/-- Once the acquisition has succeeded, the lock holds its keys, and they hold its token. -/
theorem Awaited.acquired {a : Acquisition Unit} (h : Awaited client i resources a w)
    (hg : a.Goes w opens w' (.ends (.ok ()))) :
    Held i resources a.token w' ∧ (0 < client.settings.ttl → ∀ resource ∈ resources,
      w'.site.store.value? (lockKey resource) = some a.token) := by
  obtain ⟨rfl, rfl, htoken, l, hl, rfl⟩ := h
  cases hg with
  | @take e w₁ n hp _ he =>
    have hne : a.token ≠ "" := htoken (by rw [hp]; nofun)
    rcases quiet_or_granted he with ⟨-, hnot⟩ | ⟨-, rfl, hoff⟩
    · exact absurd rfl (hnot n)
    rw [lockAt_of_get? hl] at hoff ⊢
    generalize (w.site.store.acquire l.keys a.token a.client.settings.ttl).1 = v at hoff ⊢
    constructor
    · refine ⟨l.take a.token (withStore w v).now, ?_, rfl, ?_⟩
      · have hl' : (withStore w v).site.locks[a.lock]? = some l := hl
        rw [changeLock_get?, hl', Option.map_some]
      · simp [Lock.take, Lock.held, hne]
    · intro httl resource hres
      generalize hr : (Except.ok true : Except Fault Bool) = r at hoff
      cases hoff with
      | granted _ _ _ hheld =>
        have hkey := hheld httl (lockKey resource) (List.mem_map_of_mem hres)
        show (v.live.get? (lockKey resource)).map VaultEntry.token = some a.token
        rw [show v.live.get? (lockKey resource) = _ from hkey]
        rfl
      | taken => cases hr
      | failed => cases hr

end Lock

/-! ## The operation under the lock -/

section Work

variable {op : Operation VaultWorld Unit K α} {w w' : VaultWorld} {opens : Bool}
  {e e' : Execution K} {body : List (Note α)}

/-- What is heard of an operation is about the operation. -/
theorem isWork_of_heard : ∀ n ∈ heard op w opens e, n.isWork = true := by
  intro n hn
  unfold heard at hn
  split at hn
  · cases hn
  · split at hn
    · split at hn
      · rw [List.mem_singleton.1 hn]
        rfl
      · cases hn
    · split at hn
      · rw [List.mem_singleton.1 hn]
        rfl
      · cases hn
      · cases hn
    · cases hn
    · cases hn

theorem heard_of_seeking (hc : opens = true → w.isCanceled e.client.context = false)
    (hp : e.phase = .seeking) :
    heard op w opens e = if (w.connection? e.client.id).isSome then [.invoked] else [] := by
  have hcan : ¬ (opens && w.isCanceled e.client.context) = true := by
    cases opens <;> simp [hc]
  rw [heard, if_neg hcan, hp]

theorem heard_of_running (hc : opens = true → w.isCanceled e.client.context = false) {k : K}
    (hp : e.phase = .running k) {s : Step K (Except Fault α)} (hs : op.step w k = (w', s)) :
    heard op w opens e = match s with
      | .ends r => [.ended r]
      | _ => [] := by
  have hcan : ¬ (opens && w.isCanceled e.client.context) = true := by
    cases opens <;> simp [hc]
  rw [heard, if_neg hcan, hp]
  simp only [hs]
  cases s <;> rfl

theorem heard_of_idle
    (hp : (∃ timeout, e.phase = .entering timeout) ∨ ∃ till, e.phase = .resting till) :
    heard op w opens e = [] := by
  rw [heard]
  split
  · rfl
  · rcases hp with ⟨timeout, hp⟩ | ⟨till, hp⟩ <;> rw [hp]

/-- An execution that goes on waiting is as it was. -/
theorem eq_of_waits (h : (e.waitOrExpire (α := α) w).state? = some e') : e' = e := by
  rcases Execution.waitOrExpire_cases (α := α) w e with ⟨hw, -⟩ | ⟨hw, -⟩ <;> rw [hw] at h <;>
    cases h
  rfl

/-- An execution counts the invocations of its operation. -/
theorem count_of_goes {s : Step (Execution K) (Execution.Outcome α)}
    (h : e.Goes op w opens w' s) (hs : s.state? = some e')
    (hb : body.countP Note.isInvoked = e.attempts) :
    (body ++ heard op w opens e).countP Note.isInvoked = e'.attempts := by
  rw [List.countP_append, hb]
  cases h with
  | canceled => cases hs
  | enter hp =>
    cases hs
    rw [heard_of_idle (.inl ⟨_, hp⟩)]
    rfl
  | works hc h =>
    cases h with
    | detached | succeed | refuse => cases hs
    | connect hp _ hconn =>
      cases hs
      rw [heard_of_seeking hc hp, hconn]
      rfl
    | miss hp _ hconn =>
      cases hs
      rw [heard_of_seeking hc hp, hconn]
      rfl
    | workWaits hp hstep =>
      obtain rfl := eq_of_waits hs
      rw [heard_of_running hc hp hstep]
      rfl
    | workMoves hp hstep =>
      cases hs
      rw [heard_of_running hc hp hstep]
      rfl
    | retry hp hstep =>
      cases hs
      rw [heard_of_running hc hp hstep]
      rfl
    | wake hp =>
      cases hs
      rw [heard_of_idle (.inr ⟨_, hp⟩)]
      rfl
    | rest hp =>
      obtain rfl := eq_of_waits hs
      rw [heard_of_idle (.inr ⟨_, hp⟩)]
      rfl

/-- An execution that was cut off makes no statement about its operation. -/
theorem Own.of_cutOff {body : List (Note α)} {err : CallError Fault} (hne : ∀ f, err ≠ .operation f)
    {n : Nat} (hb : body.countP Note.isInvoked = n) : Own body ⟨n, .error err⟩ where
  attempts := hb
  succeeded := nofun
  failed := by
    rintro f hf
    exact absurd (Except.error.inj hf) (hne f)

/-- An execution that ends has for its outcome what its operation came to. -/
theorem own_of_goes {o : Execution.Outcome α} (h : e.Goes op w opens w' (.ends o))
    (hb : body.countP Note.isInvoked = e.attempts) : Own (body ++ heard op w opens e) o := by
  generalize hs : (Step.ends o : Step (Execution K) (Execution.Outcome α)) = s at h
  have hcut : ∀ {err : CallError Fault}, (∀ f, err ≠ .operation f) →
      heard op w opens e = [] → Own (body ++ heard op w opens e) ⟨e.attempts, .error err⟩ := by
    intro err hne hnil
    rw [hnil, List.append_nil]
    exact .of_cutOff hne hb
  cases h with
  | canceled hat hcan =>
    cases hs
    refine hcut nofun ?_
    rcases hat with rfl | hp
    · rw [heard, hcan]
      rfl
    · exact heard_of_idle (.inl hp)
  | enter => cases hs
  | works hc h =>
    cases h with
    | connect | miss | workMoves | retry | wake => cases hs
    | detached hp ha =>
      cases hs
      refine hcut nofun ?_
      rw [heard_of_seeking hc hp, World.connection?, ha]
      rfl
    | workWaits hp hstep =>
      obtain ⟨rfl, -⟩ := Execution.late_of_ends hs.symm
      exact hcut nofun (heard_of_running hc hp hstep)
    | rest hp =>
      obtain ⟨rfl, -⟩ := Execution.late_of_ends hs.symm
      exact hcut nofun (heard_of_idle (.inr ⟨_, hp⟩))
    | @succeed k a _ hp hstep =>
      cases hs
      rw [heard_of_running hc hp hstep]
      refine ⟨?_, ?_, nofun⟩
      · rw [List.countP_append, hb]
        rfl
      · rintro a' ha
        cases ha
        exact List.getLast?_concat
    | @refuse k fault _ hp hstep hf =>
      cases hs
      rw [heard_of_running hc hp hstep]
      refine ⟨?_, nofun, ?_⟩
      · rw [List.countP_append, hb]
        rfl
      · rintro f' hf'
        cases hf'
        exact ⟨hf, List.getLast?_concat⟩

end Work

/-! ## Giving the keys back -/

/-- How far the release of a lock has come, and what has been written down of it. -/
inductive Underway (client : LockClient) (token : String) :
    Release.Phase Unit → List (Note α) → Prop
  | entering : Underway client token .entering []
  | asked {e : Execution Unit} (hc : e.client = client.client)
      (hp : e.phase = .entering client.client.writeTimeout) :
      Underway client token (.asking token e) []
  | begun {e : Execution Unit} {since : Millis} {rest : List (Note α)}
      (hc : e.client = client.client) (hp : ∀ timeout, e.phase ≠ .entering timeout)
      (hd : e.deadline = since + client.client.writeTimeout) (hs : .leaving since ∈ rest)
      (hi : ∀ till, e.phase = .resting till → .interrupted ∈ rest)
      (hr : ∀ n ∈ rest, n.isLeave = true) : Underway client token (.asking token e) rest

section Leave

variable {w w' : VaultWorld} {opens : Bool} {client : LockClient} {token : String}
  {rest : List (Note α)} {keys : List String} {e e' : Execution Unit}

theorem Underway.isLeave {phase : Release.Phase Unit} (h : Underway client token phase rest) :
    ∀ n ∈ rest, n.isLeave = true := by
  cases h with
  | entering => exact nofun
  | asked => exact nofun
  | begun _ _ _ _ _ hr => exact hr

/-- A release has read the token of the lock. -/
theorem Underway.eq_token {token' : String}
    (h : Underway client token (.asking token' e) rest) : token' = token := by
  cases h <;> rfl

/-- Only the network keeps a store from dropping a token. -/
theorem isNetwork_of_release {v v' : Vault} {f : Fault}
    (h : Keeper.release v () keys token = (v', .error f)) : f.isNetwork = true := by
  have h' : v.request (v.release keys token) = (v', .error f) := h
  rw [Vault.request, Network.fault?] at h'
  split at h'
  · rename_i f' hf
    split at hf
    · cases hf
    · cases hf
      cases h'
      rfl
  · cases h'

/-- What has been dropped is not held any more. -/
theorem not_held_of_dropping {resources : List String} {n dropped i : Nat} {f : Lock → Lock}
    (hg : e.Goes (dropping (resources.map lockKey) token) w opens w' (.ends ⟨n, .ok dropped⟩)) :
    ∀ resource ∈ resources,
      (changeLock w' i f).site.store.value? (lockKey resource) ≠ some token := by
  intro resource hres
  rcases quiet_or_dropped hg with ⟨-, hnot⟩ | ⟨-, rfl⟩
  · exact absurd rfl (hnot n dropped)
  have hkey := Vault.held?_release w.site.store (resources.map lockKey) token (lockKey resource)
  show ((w.site.store.release (resources.map lockKey) token).1.held? (lockKey resource)).map
    VaultEntry.token ≠ some token
  rw [hkey]
  split
  case isTrue => exact nofun
  case isFalse hother =>
    intro hsome
    refine hother ⟨List.mem_map_of_mem hres, ?_⟩
    obtain ⟨entry, hentry, rfl⟩ := Option.map_eq_some_iff.1 hsome
    rw [hentry]
    exact beq_self_eq_true entry.token

/-- A release that goes on comes from one phase to the next. -/
theorem Underway.goes {s : Step (Execution Unit) (Execution.Outcome Nat)}
    (h : Underway client token (.asking token e) rest)
    (hg : e.Goes (dropping keys token) w opens w' s) (hs : s.state? = some e') :
    Underway client token (.asking token e') (rest ++ told w e e') := by
  cases h with
  | asked hc hp =>
    cases hg with
    | canceled => cases hs
    | enter hp' =>
      rw [hp] at hp'
      cases hp'
      cases hs
      have htold : told (α := α) w e { e with
          deadline := w.now + client.client.writeTimeout, phase := .seeking } =
            [.leaving w.now] := by
        rw [told, hp]
      rw [htold]
      exact .begun hc (by simp) rfl (by simp) (by simp) (by simp [Note.isLeave])
    | works _ h => cases h <;> simp_all
  | begun hc hp hd hsince hi hr =>
    -- from the second step on nothing moves the deadline
    have hsame : told (α := α) w e e' = [] →
        (∀ till, e'.phase = .resting till → .interrupted ∈ rest) → e'.client = e.client →
        e'.deadline = e.deadline → (∀ timeout, e'.phase ≠ .entering timeout) →
        Underway client token (.asking token e') (rest ++ told w e e') := by
      intro htold hi' hclient hdeadline hentered
      rw [htold, List.append_nil]
      exact .begun (hclient.trans hc) hentered (hdeadline.trans hd) hsince hi' hr
    have hbroken : told (α := α) w e e' = [.interrupted] → e'.client = e.client →
        e'.deadline = e.deadline → (∀ timeout, e'.phase ≠ .entering timeout) →
        Underway client token (.asking token e') (rest ++ told w e e') := by
      intro htold hclient hdeadline hentered
      rw [htold]
      refine .begun (hclient.trans hc) hentered (hdeadline.trans hd)
        (List.mem_append_left _ hsince) (fun _ _ => by simp) ?_
      intro n hn
      rcases List.mem_append.1 hn with hn | hn
      · exact hr n hn
      · rw [List.mem_singleton.1 hn]
        rfl
    cases hg with
    | canceled => cases hs
    | enter hp' => exact absurd hp' (hp _)
    | works _ h =>
      cases h with
      | detached | succeed | refuse => cases hs
      | workWaits _ hstep | workMoves _ hstep => simp [dropping, Operation.atOnce] at hstep
      | connect hp' =>
        cases hs
        exact hsame (by rw [told, hp']) (by simp) rfl rfl (by simp)
      | miss hp' =>
        cases hs
        exact hbroken (by rw [told, hp']) rfl rfl (by simp)
      | retry hp' =>
        cases hs
        exact hbroken (by rw [told, hp']) rfl rfl (by simp)
      | wake hp' =>
        cases hs
        exact hsame (by rw [told, hp']) (by simp) rfl rfl (by simp)
      | rest hp' =>
        obtain rfl := eq_of_waits hs
        exact hsame (by rw [told, hp']) hi rfl rfl hp

/-- A release that fails was cut off. -/
theorem Underway.failed {resources : List String} {n : Nat} {err : CallError Fault}
    (h : Underway client token (.asking token e) rest)
    (hg : e.Goes (dropping keys token) w opens w' (.ends ⟨n, .error err⟩)) :
    GivenBack client resources token rest w' := by
  generalize hs : (Step.ends ⟨n, .error err⟩ :
    Step (Execution Unit) (Execution.Outcome Nat)) = s at hg
  have hc : e.client = client.client := by
    cases h with
    | asked hc => exact hc
    | begun hc => exact hc
  cases hg with
  | canceled _ hcan =>
    rw [hc] at hcan
    exact .canceled hcan
  | enter => cases hs
  | works _ hworks =>
    cases hworks with
    | connect | miss | workMoves | retry | wake | succeed => cases hs
    | detached _ ha => exact .detached ha
    | workWaits _ hstep => simp [dropping, Operation.atOnce] at hstep
    | @refuse c fault _ hp hstep hf =>
      have hrelease : Keeper.release w.site.store () keys token =
          ((Keeper.release w.site.store () keys token).1, .error fault) := by
        simp only [dropping, Operation.atOnce, Prod.mk.injEq, Step.ends.injEq] at hstep
        exact Prod.ext rfl hstep.2
      rw [isNetwork_of_release hrelease] at hf
      cases hf
    | rest hp =>
      obtain ⟨-, hlate⟩ := Execution.late_of_ends hs.symm
      cases h with
      | asked _ hp' =>
        rw [hp'] at hp
        cases hp
      | begun _ _ hd hsince hi _ =>
        rw [hd] at hlate
        exact .outOfReach hsince (hi _ hp) hlate

end Leave

/-! ## Step by step -/

/-- What is known of work under locks on its way: its phase, and what has been written down. -/
inductive Stage (client : LockClient) (i : Nat) (resources : List String) (w : VaultWorld) :
    GuardedWork Unit K α → List (Note α) → Prop
  | acquiring {context : Option String} {a : Acquisition Unit}
      (h : Awaited client i resources a w) :
      Stage client i resources w ⟨client, context, .acquiring a⟩ []
  | working {context : Option String} {e : Execution K} {token : String} {body : List (Note α)}
      (h : Held i resources token w) (hb : ∀ n ∈ body, n.isWork = true)
      (hn : body.countP Note.isInvoked = e.attempts) :
      Stage client i resources w ⟨client, context, .working i e⟩ (.taken token :: body)
  | releasing {context : Option String} {phase : Release.Phase Unit} {o : Execution.Outcome α}
      {token : String} {body rest : List (Note α)} (h : Held i resources token w)
      (hb : ∀ n ∈ body, n.isWork = true) (ho : Own body o)
      (hu : Underway client token phase rest) :
      Stage client i resources w ⟨client, context, .releasing ⟨client, none, i, phase⟩ o⟩
        (.taken token :: (body ++ .finished o :: rest))

/-- What is known of work that goes on, or has just returned. -/
def Known (client : LockClient) (i : Nat) (resources : List String) (y : Custody K α) : Prop :=
  match y.call with
  | .inl g => Stage client i resources y.world g y.log
  | .inr out => Returned client resources y.world y.log out

section Step

variable {op : Operation VaultWorld Unit K α} {client : LockClient} {i : Nat}
  {resources : List String} {w w' : VaultWorld} {opens : Bool}

theorem Stage.of_get? {g : GuardedWork Unit K α} {log : List (Note α)}
    (h : Stage client i resources w g log) (hw : w'.site.locks[i]? = w.site.locks[i]?) :
    Stage client i resources w' g log := by
  cases h with
  | acquiring h => exact .acquiring (h.of_get? hw)
  | working h hb hn => exact .working (h.of_get? hw) hb hn
  | releasing h hb ho hu => exact .releasing (h.of_get? hw) hb ho hu

theorem isWork_append {body : List (Note α)} (hb : ∀ n ∈ body, n.isWork = true)
    {e : Execution K} : ∀ n ∈ body ++ heard op w opens e, n.isWork = true := by
  intro n hn
  rcases List.mem_append.1 hn with hn | hn
  · exact hb n hn
  · exact isWork_of_heard n hn

/-- A step of the acquisition. -/
theorem known_acquiring {context : Option String} {a : Acquisition Unit}
    (h : Awaited client i resources a w) :
    Known client i resources
      (step op ⟨w, .inl ⟨client, context, .acquiring a⟩, []⟩ (.work opens)) := by
  have hg := GuardedWork.goes_step op w opens ⟨client, context, .acquiring a⟩
  simp only [step, List.nil_append]
  generalize (GuardedWork.step op w opens ⟨client, context, .acquiring a⟩).1 = w' at hg ⊢
  generalize (GuardedWork.step op w opens ⟨client, context, .acquiring a⟩).2 = x at hg ⊢
  cases hg with
  | acquireWaits hp ha =>
    cases hp
    exact .acquiring (h.goes ha rfl)
  | acquireMoves hp ha =>
    cases hp
    exact .acquiring (h.goes ha rfl)
  | acquireFailed hp ha =>
    cases hp
    exact .never _
  | acquired hp ha =>
    cases hp
    have hplace := h.place
    subst hplace
    exact .working (h.acquired ha).1 nofun rfl
  | refused hp | enter hp | workWaits hp | workMoves hp | worked hp | releaseWaits hp
  | releaseMoves hp | released hp => cases hp

/-- A step of the operation. -/
theorem known_working (hop : ∀ k, Spares i fun w => (op.step w k).1) {context : Option String}
    {e : Execution K} {token : String} {body : List (Note α)} (h : Held i resources token w)
    (hb : ∀ n ∈ body, n.isWork = true) (hn : body.countP Note.isInvoked = e.attempts) :
    Known client i resources
      (step op ⟨w, .inl ⟨client, context, .working i e⟩, .taken token :: body⟩ (.work opens)) := by
  have hg := GuardedWork.goes_step op w opens ⟨client, context, .working i e⟩
  simp only [step, List.cons_append]
  generalize (GuardedWork.step op w opens ⟨client, context, .working i e⟩).1 = w' at hg ⊢
  generalize (GuardedWork.step op w opens ⟨client, context, .working i e⟩).2 = x at hg ⊢
  cases hg with
  | workWaits hp he =>
    cases hp
    exact .working (h.of_get? (get?_of_goes hop he)) (isWork_append hb) (count_of_goes he rfl hn)
  | workMoves hp he =>
    cases hp
    exact .working (h.of_get? (get?_of_goes hop he)) (isWork_append hb) (count_of_goes he rfl hn)
  | @worked _ _ _ o hp he =>
    cases hp
    have hstage : Stage (K := K) client i resources w'
        ⟨client, context, .releasing ⟨client, none, i, .entering⟩ o⟩
        (.taken token :: (body ++ heard op w opens e ++ [.finished o])) :=
      .releasing (h.of_get? (get?_of_goes hop he)) (isWork_append hb) (own_of_goes he hn)
        .entering
    rw [List.append_assoc] at hstage
    exact hstage
  | refused hp | enter hp | acquireWaits hp | acquireMoves hp | acquireFailed hp | acquired hp
  | releaseWaits hp | releaseMoves hp | released hp => cases hp

/-- A step of the release. -/
theorem known_releasing {context : Option String} {phase : Release.Phase Unit}
    {o : Execution.Outcome α} {token : String} {body rest : List (Note α)}
    (h : Held i resources token w) (hb : ∀ n ∈ body, n.isWork = true) (ho : Own body o)
    (hu : Underway client token phase rest) :
    Known client i resources (step op
      ⟨w, .inl ⟨client, context, .releasing ⟨client, none, i, phase⟩ o⟩,
        .taken token :: (body ++ .finished o :: rest)⟩ (.work opens)) := by
  let g : GuardedWork Unit K α := ⟨client, context, .releasing ⟨client, none, i, phase⟩ o⟩
  have hg := GuardedWork.goes_step op w opens g
  have hlog : ∀ more : List (Note α), Note.taken token :: (body ++ .finished o :: rest) ++ more =
      .taken token :: (body ++ .finished o :: (rest ++ more)) := by simp
  simp only [step, hlog]
  generalize (GuardedWork.step op w opens g).1 = w' at hg ⊢
  generalize (GuardedWork.step op w opens g).2 = x at hg ⊢
  have hheld := h.lockAt
  -- the release has no context, and its lock holds the token, so it neither stops nor refuses
  cases hg with
  | releaseWaits hp hr =>
    cases hp
    cases hr with
    | askWaits hp _ he =>
      cases hp
      obtain rfl := hu.eq_token
      exact .releasing (h.of_get? (get?_of_quiet (quiet_of_dropping he nofun) i)) hb ho
        (hu.goes he rfl)
  | releaseMoves hp hr =>
    cases hp
    cases hr with
    | enter hp _ hh =>
      cases hp
      rw [hheld.1] at hh
      cases hh
      cases hu with
      | entering => exact .releasing h hb ho (.asked rfl rfl)
    | askMoves hp _ he =>
      cases hp
      obtain rfl := hu.eq_token
      exact .releasing (h.of_get? (get?_of_quiet (quiet_of_dropping he nofun) i)) hb ho
        (hu.goes he rfl)
  | released hp hr =>
    cases hp
    have hend : ∀ {w₁ : VaultWorld}, GivenBack client resources token rest w₁ →
        Returned client resources w₁ (.taken token :: (body ++ .finished o :: (rest ++ [])))
          (GuardedWork.outcome o) := by
      intro w₁ hback
      rw [List.append_nil]
      exact .through hb ho hu.isLeave hback
    cases hr with
    | stop _ hc => cases hc
    | notHeld _ _ hh =>
      rw [hheld.1] at hh
      cases hh
    | askFailed hp _ he =>
      cases hp
      obtain rfl := hu.eq_token
      exact hend (hu.failed he)
    | leave hp _ he =>
      cases hp
      obtain rfl := hu.eq_token
      rw [hheld.2] at he
      exact hend (.dropped (not_held_of_dropping he))
  | refused hp | enter hp | acquireWaits hp | acquireMoves hp | acquireFailed hp | acquired hp
  | workWaits hp | workMoves hp | worked hp => cases hp

/-- One step of work under locks, from what is known of it. -/
theorem known_work (hop : ∀ k, Spares i fun w => (op.step w k).1) {g : GuardedWork Unit K α}
    {log : List (Note α)} (h : Stage client i resources w g log) :
    Known client i resources (step op ⟨w, .inl g, log⟩ (.work opens)) := by
  cases h with
  | acquiring h => exact known_acquiring h
  | working h hb hn => exact known_working hop h hb hn
  | releasing h hb ho hu => exact known_releasing h hb ho hu

theorem Stage.chronicle {g : GuardedWork Unit K α} {log : List (Note α)}
    (h : Stage client i resources w g log) : Chronicle log := by
  cases h with
  | acquiring => exact .empty
  | working _ hb => exact .working _ hb
  | releasing _ hb ho hu => exact .leaving _ hb ho hu.isLeave

theorem Returned.chronicle {log : List (Note α)} {out : GuardedWork.Outcome α}
    (h : Returned client resources w log out) : Chronicle log := by
  cases h with
  | never => exact .empty
  | through hb ho hr => exact .leaving _ hb ho hr

theorem Known.chronicle {y : Custody K α} (h : Known client i resources y) : Chronicle y.log := by
  obtain ⟨w, g | out, log⟩ := y
  · exact Stage.chronicle h
  · exact Returned.chronicle h

/-- The keys are taken once. -/
theorem Chronicle.not_taken {n : Note α} {log : List (Note α)} {token : String}
    (h : Chronicle (n :: log)) : .taken token ∉ log := by
  intro hmem
  cases h with
  | working _ hb => cases hb _ hmem
  | leaving _ hb _ hr =>
    rcases List.mem_append.1 hmem with hmem | hmem
    · cases hb _ hmem
    · rcases List.mem_cons.1 hmem with hmem | hmem
      · cases hmem
      · cases hr _ hmem

/-- The keys are written down as taken when they are. -/
theorem taken_of_work (hop : ∀ k, Spares i fun w => (op.step w k).1) {g : GuardedWork Unit K α}
    {log : List (Note α)} {token : String} (h : Stage client i resources w g log)
    (htaken : (step op ⟨w, .inl g, log⟩ (.work opens)).log = log ++ [.taken token])
    (httl : 0 < client.settings.ttl) : ∀ resource ∈ resources,
      (step op ⟨w, .inl g, log⟩ (.work opens)).world.site.store.value? (lockKey resource) =
        some token := by
  have hknown : Known client i resources (step op ⟨w, .inl g, log⟩ (.work opens)) :=
    known_work hop h
  -- once the keys have been taken, there is no second time in a chronicle
  have hchronicle := hknown.chronicle
  rw [htaken] at hchronicle
  cases h with
  | working =>
    exact absurd (List.mem_append_right _ (List.mem_singleton_self _)) hchronicle.not_taken
  | releasing =>
    exact absurd (List.mem_append_right _ (List.mem_singleton_self _)) hchronicle.not_taken
  | @acquiring context a h =>
    have hg := GuardedWork.goes_step op w opens ⟨client, context, .acquiring a⟩
    simp only [step, List.nil_append] at htaken ⊢
    generalize (GuardedWork.step op w opens ⟨client, context, .acquiring a⟩).1 = w' at hg htaken ⊢
    generalize (GuardedWork.step op w opens ⟨client, context, .acquiring a⟩).2 = x at hg htaken
    cases hg with
    | acquired hp ha =>
      cases hp
      cases htaken
      exact (h.acquired ha).2 httl
    | acquireWaits hp | acquireMoves hp | acquireFailed hp =>
      cases hp
      cases htaken
    | refused hp | enter hp | workWaits hp | workMoves hp | worked hp | releaseWaits hp
    | releaseMoves hp | released hp => cases hp

end Step

/-! ## The whole run -/

section Run

variable {op : Operation VaultWorld Unit K α} {w : VaultWorld} {client : LockClient}
  {context : Option String} {resources : List String} {moves : List Move}

/-- What is known of work at any time: of work that has returned, it was known when it did. -/
def KnownOnce (client : LockClient) (i : Nat) (resources : List String) (y : Custody K α) : Prop :=
  match y.call with
  | .inl g => Stage client i resources y.world g y.log
  | .inr out => ∃ w, Returned client resources w y.log out

theorem KnownOnce.of_known {i : Nat} {y : Custody K α} (h : Known client i resources y) :
    KnownOnce client i resources y := by
  obtain ⟨w, g | out, log⟩ := y
  · exact h
  · exact ⟨w, h⟩

theorem known_begin (op : Operation VaultWorld Unit K α) (w : VaultWorld) (client : LockClient)
    (context : Option String) (resources : List String) :
    Known client w.site.locks.length resources (begin op w client context resources) := by
  have hg := GuardedWork.goes_step op w true ⟨client, context, .entering resources⟩
  simp only [begin, step, List.nil_append]
  generalize (GuardedWork.step op w true ⟨client, context, .entering resources⟩).1 = w' at hg ⊢
  generalize (GuardedWork.step op w true ⟨client, context, .entering resources⟩).2 = x at hg ⊢
  cases hg with
  | refused hp => exact .never _
  | @enter _ l hp hl =>
    cases hp
    rw [Lock.ofResources] at hl
    split at hl
    · cases hl
    · cases hl
      have hlock : (addLock w { resources }).1.site.locks[w.site.locks.length]? =
          some { resources } := by
        simp [addLock]
      exact .acquiring ⟨rfl, rfl, fun hne => absurd rfl hne, _, hlock, rfl⟩
  | acquireWaits hp | acquireMoves hp | acquireFailed hp | acquired hp | workWaits hp
  | workMoves hp | worked hp | releaseWaits hp | releaseMoves hp | released hp => cases hp

theorem known_run (h : Private op w.site.locks.length moves) :
    KnownOnce client w.site.locks.length resources (run op w client context resources moves) := by
  have hstart := KnownOnce.of_known (known_begin op w client context resources)
  refine List.foldlRecOn moves (step op) hstart fun y hy move hmove => ?_
  obtain ⟨w₁, g | out, log⟩ := y
  · cases move with
    | work opens => exact .of_known (known_work h.operation hy)
    | drift f => exact Stage.of_get? hy (h.drifts f hmove w₁)
  · cases move <;> exact hy

/-- Work under locks holds its keys while its operation is invoked, and gives them back. -/
structure InCustody (op : Operation VaultWorld Unit K α) (w : VaultWorld) (client : LockClient)
    (context : Option String) (resources : List String) (moves : List Move) : Prop where
  /-- The operation is invoked after the keys have been taken, and is over before they are given
  back. -/
  chronicle : Chronicle (run op w client context resources moves).log
  /-- When the keys are taken, they hold the token of the work. -/
  taken : ∀ opens token,
    (run op w client context resources (moves ++ [.work opens])).log =
      (run op w client context resources moves).log ++ [.taken token] →
    0 < client.settings.ttl → ∀ resource ∈ resources,
      (run op w client context resources (moves ++ [.work opens])).world.site.store.value?
        (lockKey resource) = some token
  /-- When the work returns, its outcome is that of its operation, and the keys are given back. -/
  returned : ∀ opens g out, (run op w client context resources moves).call = .inl g →
    (run op w client context resources (moves ++ [.work opens])).call = .inr out →
    Returned client resources
      (run op w client context resources (moves ++ [.work opens])).world
      (run op w client context resources (moves ++ [.work opens])).log out

/-- Whatever the operation does, and whatever else happens, work under locks holds its keys while
the operation is invoked, and has given them back when it returns, unless the context of the client
is canceled by then or the store could not be reached in time. -/
theorem custody_run (h : Private op w.site.locks.length moves) :
    InCustody op w client context resources moves := by
  have hnext : ∀ opens, run op w client context resources (moves ++ [.work opens]) =
      step op (run op w client context resources moves) (.work opens) := by
    intro opens
    rw [run, List.foldl_append]
    rfl
  have hknown : KnownOnce client w.site.locks.length resources
      (run op w client context resources moves) := known_run h
  generalize hy : run op w client context resources moves = y at hnext hknown
  obtain ⟨w₁, g | out, log⟩ := y
  case inl =>
    refine ⟨?_, ?_, ?_⟩
    · rw [hy]
      exact Stage.chronicle hknown
    · intro opens token htaken
      rw [hnext, hy] at htaken
      rw [hnext]
      exact taken_of_work h.operation hknown htaken
    · intro opens g' out _ hout
      have hstep : Known client w.site.locks.length resources
          (step op ⟨w₁, .inl g, log⟩ (.work opens)) := known_work h.operation hknown
      rw [hnext] at hout ⊢
      rw [Known, hout] at hstep
      exact hstep
  case inr =>
    obtain ⟨w₂, hreturned⟩ := hknown
    refine ⟨?_, ?_, ?_⟩
    · rw [hy]
      exact hreturned.chronicle
    · intro opens token htaken
      rw [hnext, hy] at htaken
      exact absurd htaken (by simp [step])
    · intro opens g' _ hg
      rw [hy] at hg
      cases hg

end Run

/-! ## Contexts that are canceled meanwhile -/

open Tenancy (soleWorld soleClient)

theorem private_vaultOperation (bs : List Behaviour) (cancel : Option String)
    (peek : List String) (i n : Nat) (opens : Bool) :
    Private (vaultOperation bs cancel peek) i (List.replicate n (.work opens)) where
  operation k w := get?_of_quiet (Quiet.vaultOperation bs cancel peek w k) i
  drifts _ hf := absurd (List.eq_of_mem_replicate hf) nofun

/-- The result of work that has succeeded. -/
def result? (y : Custody K α) : Option α :=
  y.call.getRight?.bind fun out => out.result.toOption

/-- An operation that succeeds with what a key holds, and cancels a context. -/
def canceling (context : String) :
    Operation VaultWorld Unit (Acting Unit) (List (Option String)) :=
  vaultOperation [.ok] (some context) [lockKey "a"]

/-- The context of the call is canceled under the lock, and the key is given back. -/
theorem given_back_after_cancellation :
    let moves := List.replicate 12 (Move.work true)
    let y := run (canceling "call") soleWorld soleClient (some "call") ["a"]
      (moves ++ [.work true])
    InCustody (canceling "call") soleWorld soleClient (some "call") ["a"] moves ∧
      y.result? = some [some "00000000-0000-4000-8000-000000000001"] ∧
      y.world.site.store.value? (lockKey "a") = none := by
  intro moves y
  have hp : Private (canceling "call") soleWorld.site.locks.length moves :=
    private_vaultOperation _ _ _ _ 12 true
  exact ⟨custody_run hp, by decide +kernel, by decide +kernel⟩

/-- The context of the client is canceled under the lock, and the key is still held when the work
returns, with the network up and time left. -/
theorem held_after_cancellation :
    ∃ (op : Operation VaultWorld Unit (Acting Unit) (List (Option String))) (w : VaultWorld)
      (client : LockClient) (context : Option String) (moves : List Move) (token : String),
      Private op w.site.locks.length moves ∧
        let y := run op w client context ["a"] moves
        y.result? = some [some token] ∧
          y.log.findSome? Note.token? = some token ∧
          y.world.site.store.network.isUp = true ∧
          y.world.connection? client.client.id = some () ∧
          y.world.now < client.settings.ttl ∧
          y.world.site.store.value? (lockKey "a") = some token := by
  have hp : Private (canceling "root") soleWorld.site.locks.length
      (List.replicate 11 (Move.work false)) := private_vaultOperation _ _ _ _ 11 false
  exact ⟨canceling "root", soleWorld, soleClient, none, List.replicate 11 (.work false),
    "00000000-0000-4000-8000-000000000001", hp, by decide +kernel, by decide +kernel,
    by decide +kernel, by decide +kernel, by decide +kernel, by decide +kernel⟩

end Custody

end Reconnect.Rehearsal
