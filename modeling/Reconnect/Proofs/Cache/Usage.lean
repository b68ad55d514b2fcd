import Mathlib.Data.List.Perm.Basic
import Reconnect.Proofs.Cache.LockCall
import Reconnect.Proofs.Identifier
import Reconnect.Proofs.Schedule.Errand

/-!
# One lock in use

Any number of acquisitions and releases of one lock are on their way and take their steps in any
order. They begin and are dropped at any time; between their steps anything may happen to the world,
except to the lock (`Usage`). The store is any keeper of tokens.

`Treats` lists what one step of a call makes of its lock. A lock that is used in this way is
orderly (`orderly_run`): it is locked exactly while it has a token, and the token is never empty;
one acquisition at most is under way; a call that finds the lock in a state that it is not made for
ends in its first step, and leaves the whole world alone.
-/

namespace Reconnect

/-- The result to which a step comes, if it is the last one. -/
def Step.result? {σ ρ : Type} : Step σ ρ → Option ρ
  | .waits _ | .moves _ => none
  | .ends r => some r

section Lift

variable {σ τ ρ : Type} (f : σ → τ) (s : Step σ ρ)

@[simp] theorem Step.state?_lift : (s.lift f).state? = s.state?.map f := by cases s <;> rfl

@[simp] theorem Step.result?_lift : (s.lift f).result? = s.result? := by cases s <;> rfl

variable {s}

theorem Step.result?_of_state? {s' : σ} (h : s.state? = some s') : s.result? = none := by
  cases s with
  | waits | moves => rfl
  | ends => cases h

end Lift

end Reconnect

namespace Reconnect.Cache

variable {S C : Type}

namespace Lock

/-- A lock whose data agree. -/
structure Proper (l : Lock) : Prop where
  stored : l.locked = l.token.isSome
  filled : l.token ≠ some ""
  free : l.acquiring = true → l.locked = false

namespace Proper

variable {l : Lock}

protected theorem begin (h : l.Proper) (hi : l.isIdle = true) : l.begin.Proper where
  stored := h.stored
  filled := h.filled
  free _ := by
    rw [isIdle, Bool.and_eq_true, Bool.not_eq_true'] at hi
    exact hi.1

protected theorem giveUp (h : l.Proper) : l.giveUp.Proper := ⟨h.stored, h.filled, nofun⟩

protected theorem take {token : String} (ht : token ≠ "") (l : Lock) (now : Millis) :
    (l.take token now).Proper where
  stored := rfl
  filled := by simpa [Lock.take] using ht
  free := nofun

protected theorem leave (l : Lock) (now : Millis) : (l.leave now).Proper :=
  ⟨rfl, nofun, fun _ => rfl⟩

/-- What a release finds in the lock is its token, or that it is not locked. -/
theorem held_eq (h : l.Proper) :
    l.held = match l.token with
      | none => .error .lockReleaseBeforeAcquire
      | some token => .ok token := by
  unfold held
  cases ht : l.token with
  | none => simp [h.stored, ht]
  | some token =>
    have hne : token ≠ "" := fun he => h.filled (by rw [ht, he])
    simp [h.stored, ht, hne]

theorem held_ne (h : l.Proper) : l.held ≠ .error .lockValueEmpty := by
  rw [h.held_eq]
  split <;> nofun

end Proper

end Lock

/-! ## Calls on a lock -/

/-- A call on a lock. -/
inductive LockCall (C : Type) where
  | acquire (a : Acquisition C)
  | release (r : Release C)
  deriving DecidableEq, Repr

namespace LockCall

/-- The place of the lock that a call is on. -/
def lock : LockCall C → Nat
  | .acquire a => a.lock
  | .release r => r.lock

/-- Whether a call is an acquisition that has begun. -/
def isUnderway : LockCall C → Bool
  | .acquire a =>
    match a.phase with
    | .entering => false
    | .trying | .asking _ | .resting _ => true
  | .release _ => false

theorem isUnderway_acquire {a : Acquisition C} :
    (acquire a).isUnderway = true ↔ a.phase ≠ .entering := by
  obtain ⟨_, _, _, _, _, phase⟩ := a
  cases phase <;> simp [isUnderway]

@[simp] theorem isUnderway_release (r : Release C) : (release r).isUnderway = false := rfl

/-- The token that a call offers. -/
def token? : LockCall C → Option String
  | .acquire a => if (acquire a).isUnderway then some a.token else none
  | .release _ => none

section Steps

variable [Site S C] [Keeper S C]

/-- One step of a call on a lock. -/
def step (w : World (Guarded S) C) (opens : Bool) :
    LockCall C → World (Guarded S) C × Step (LockCall C) (Except (LockError Fault) Unit)
  | .acquire a =>
    let r := a.step w opens
    (r.1, r.2.lift .acquire)
  | .release r =>
    let t := r.step w opens
    (t.1, t.2.lift .release)

end Steps

/-- What one step of a call makes of its lock, and what the step comes to. -/
inductive Treats (l : Lock) : LockCall C → (Lock → Lock) →
    Step (LockCall C) (Except (LockError Fault) Unit) → Prop
  | refused {a : Acquisition C} (hp : a.phase = .entering) (hi : l.isIdle = false) :
      Treats l (.acquire a) id (.ends (.error .locksAlreadyAcquired))
  | declines {a : Acquisition C} (hp : a.phase = .entering) (hi : l.isIdle = true) :
      Treats l (.acquire a) (Lock.giveUp ∘ Lock.begin) (.ends (.error .canceled))
  | begins {a a' : Acquisition C} (hp : a.phase = .entering) (hi : l.isIdle = true)
      (hp' : a'.phase ≠ .entering) (hl : a'.lock = a.lock) (ht : a'.token ≠ "") :
      Treats l (.acquire a) Lock.begin (.moves (.acquire a'))
  | goesOn {a a' : Acquisition C} {s : Step (Acquisition C) (Except (LockError Fault) Unit)}
      (hs : s.state? = some a') (hp : a.phase ≠ .entering) (hp' : a'.phase ≠ .entering)
      (hl : a'.lock = a.lock) (ht : a'.token = a.token) :
      Treats l (.acquire a) id (s.lift .acquire)
  | fails {a : Acquisition C} {e : LockError Fault} (hp : a.phase ≠ .entering)
      (he : e ≠ .lockValueEmpty) : Treats l (.acquire a) Lock.giveUp (.ends (.error e))
  | takes {a : Acquisition C} (hp : a.phase ≠ .entering) (now : Millis) :
      Treats l (.acquire a) (Lock.take · a.token now) (.ends (.ok ()))
  | asks {r r' : Release C} {s : Step (Release C) (Except (LockError Fault) Unit)}
      (hs : s.state? = some r') (hl : r'.lock = r.lock) :
      Treats l (.release r) id (s.lift .release)
  | keeps {r : Release C} {e : LockError Fault} (he : e = .lockValueEmpty → l.held = .error e) :
      Treats l (.release r) id (.ends (.error e))
  | leaves {r : Release C} (now : Millis) :
      Treats l (.release r) (Lock.leave · now) (.ends (.ok ()))

theorem unchanged {locks locks' : List Lock} {i : Nat} (h : locks' = locks) :
    locks' = locks.modify i id := by
  rw [h, List.modify_id]

theorem changed {w w' : World (Guarded S) C} {i : Nat} {f : Lock → Lock}
    (h : w'.site.locks = w.site.locks) :
    (changeLock w' i f).site.locks = w.site.locks.modify i f := by
  rw [← h]
  rfl

section Rules

variable [Site S C] [Keeper S C]

omit [Keeper S C] in
/-- Asking the store leaves the locks alone. -/
theorem locks_of_goes {α : Type}
    {run : World (Guarded S) C → C → World (Guarded S) C × Except Fault α}
    (hrun : ∀ w c, (run w c).1.site.locks = w.site.locks) {w w' : World (Guarded S) C}
    {opens : Bool} {e : Execution C} {s : Step (Execution C) (Execution.Outcome α)}
    (h : e.Goes (.atOnce run) w opens w' s) : w'.site.locks = w.site.locks := by
  cases h.atOnce with
  | idle => rfl
  | @succeed c _ _ _ hr =>
    have hlocks := hrun w c
    rwa [hr] at hlocks
  | @retry c _ _ _ hr =>
    have hlocks := hrun w c
    rw [hr] at hlocks
    rw [World.report_site]
    exact hlocks
  | @refuse c _ _ _ hr =>
    have hlocks := hrun w c
    rwa [hr] at hlocks

theorem treats_acquire (w : World (Guarded S) C) (opens : Bool) (a : Acquisition C) :
    ∃ f, Treats (lockAt w a.lock) (.acquire a) f ((a.step w opens).2.lift .acquire) ∧
      (a.step w opens).1.site.locks = w.site.locks.modify a.lock f := by
  have hg := a.goes_step w opens
  generalize (a.step w opens).1 = w' at hg ⊢
  generalize (a.step w opens).2 = s at hg ⊢
  have hsame : ∀ {w' : World (Guarded S) C} {e : Execution C} {s},
      e.Goes (offer (lockAt w a.lock).keys a.token a.client.settings.ttl) w opens w' s →
        w'.site.locks = w.site.locks := locks_of_goes fun _ _ => rfl
  cases hg with
  | busy hp hi => exact ⟨id, .refused hp hi, unchanged rfl⟩
  | enterStopped hp hi =>
    exact ⟨_, .declines hp hi, List.modify_modify_eq ..⟩
  | enter hp hi => exact ⟨_, .begins hp hi nofun rfl w.draw.2.text_ne_empty, rfl⟩
  | stop hp => exact ⟨_, .fails hp nofun, rfl⟩
  | expire hp => exact ⟨_, .fails (by simp [hp]) nofun, rfl⟩
  | ask hp => exact ⟨id, .goesOn rfl (by simp [hp]) nofun rfl rfl, unchanged rfl⟩
  | askWaits hp _ he => exact ⟨id, .goesOn rfl (by simp [hp]) nofun rfl rfl, unchanged (hsame he :)⟩
  | askMoves hp _ he => exact ⟨id, .goesOn rfl (by simp [hp]) nofun rfl rfl, unchanged (hsame he :)⟩
  | take hp _ he => exact ⟨_, .takes (by simp [hp]) _, changed (hsame he)⟩
  | takeNot hp _ he => exact ⟨id, .goesOn rfl (by simp [hp]) nofun rfl rfl, unchanged (hsame he :)⟩
  | outOfTime hp _ he => exact ⟨_, .fails (by simp [hp]) nofun, changed (hsame he)⟩
  | askFailed hp _ he => exact ⟨_, .fails (by simp [hp]) nofun, changed (hsame he)⟩
  | wake hp => exact ⟨id, .goesOn rfl (by simp [hp]) nofun rfl rfl, unchanged rfl⟩
  | rest hp => exact ⟨id, .goesOn rfl (by simp [hp]) (by simp [hp]) rfl rfl, unchanged rfl⟩

theorem treats_release (w : World (Guarded S) C) (opens : Bool) (r : Release C) :
    ∃ f, Treats (lockAt w r.lock) (.release r) f ((r.step w opens).2.lift .release) ∧
      (r.step w opens).1.site.locks = w.site.locks.modify r.lock f := by
  have hg := r.goes_step w opens
  generalize (r.step w opens).1 = w' at hg ⊢
  generalize (r.step w opens).2 = s at hg ⊢
  have hsame : ∀ {w' : World (Guarded S) C} {e : Execution C} {token : String} {s},
      e.Goes (dropping (lockAt w r.lock).keys token) w opens w' s →
        w'.site.locks = w.site.locks := locks_of_goes fun _ _ => rfl
  cases hg with
  | stop => exact ⟨id, .keeps nofun, unchanged rfl⟩
  | notHeld hp _ hh => exact ⟨id, .keeps fun _ => hh, unchanged rfl⟩
  | enter => exact ⟨id, .asks rfl rfl, unchanged rfl⟩
  | askWaits _ _ he => exact ⟨id, .asks rfl rfl, unchanged (hsame he :)⟩
  | askMoves _ _ he => exact ⟨id, .asks rfl rfl, unchanged (hsame he :)⟩
  | leave _ _ he => exact ⟨_, .leaves _, changed (hsame he)⟩
  | askFailed _ _ he => exact ⟨id, .keeps nofun, unchanged (hsame he :)⟩

/-- A step of a call on a lock changes this lock only, and as `Treats` says. -/
theorem treats_step (w : World (Guarded S) C) (opens : Bool) (call : LockCall C) :
    ∃ f, Treats (lockAt w call.lock) call f (call.step w opens).2 ∧
      (call.step w opens).1.site.locks = w.site.locks.modify call.lock f := by
  cases call with
  | acquire a => exact treats_acquire w opens a
  | release r => exact treats_release w opens r

end Rules

/-! ### What the rules say of the lock and of the call -/

section Laws

variable {l : Lock} {call : LockCall C} {f : Lock → Lock}
  {s : Step (LockCall C) (Except (LockError Fault) Unit)}

theorem Treats.proper (h : Treats l call f s) (hl : l.Proper)
    (ht : ∀ token, call.token? = some token → token ≠ "") : (f l).Proper := by
  cases h with
  | refused | goesOn | asks | keeps => exact hl
  | declines _ hi => exact (hl.begin hi).giveUp
  | begins _ hi => exact hl.begin hi
  | fails => exact hl.giveUp
  | takes hp now => exact .take (ht _ (by simp [token?, isUnderway_acquire.2 hp])) l now
  | leaves now => exact .leave l now

/-- While the lock is marked for an acquisition that is under way, a step changes the mark as it
changes the call. -/
theorem Treats.acquiring (h : Treats l call f s)
    (hl : call.isUnderway = true → l.acquiring = true) :
    (f l).acquiring.toNat + call.isUnderway.toNat =
      l.acquiring.toNat + (s.state?.any isUnderway).toNat := by
  have hunder : ∀ {a : Acquisition C}, a.phase ≠ .entering → (acquire a).isUnderway = true :=
    isUnderway_acquire.2
  have hfirst : ∀ {a : Acquisition C}, a.phase = .entering → (acquire a).isUnderway = false :=
    fun hp => Bool.eq_false_iff.2 fun h => isUnderway_acquire.1 h hp
  have hidle : l.isIdle = true → l.acquiring = false := by
    intro hi
    rw [Lock.isIdle, Bool.and_eq_true, Bool.not_eq_true', Bool.not_eq_true'] at hi
    exact hi.2
  cases h with
  | refused hp => simp [Step.state?, hfirst hp]
  | declines hp hi => simp [Step.state?, hfirst hp, hidle hi, Lock.giveUp]
  | begins hp hi hp' => simp [Step.state?, hfirst hp, hidle hi, hunder hp', Lock.begin]
  | goesOn hs hp hp' => simp [hs, hunder hp, hunder hp']
  | fails hp => simp [Step.state?, hunder hp, hl (hunder hp), Lock.giveUp]
  | takes hp => simp [Step.state?, hunder hp, hl (hunder hp), Lock.take]
  | asks hs => simp [hs]
  | keeps => simp [Step.state?]
  | leaves => simp [Step.state?, Lock.leave]

/-- A call that goes on is on the same lock, offers the same token if it has offered one, and has
changed nothing of the lock but the mark of acquisitions. -/
theorem Treats.next (h : Treats l call f s) {call' : LockCall C} (hs : s.state? = some call') :
    call'.lock = call.lock ∧
      (∀ token, call'.token? = some token → call.token? = some token ∨ token ≠ "") ∧
      (f l).giveUp = l.giveUp := by
  cases h with
  | refused | declines | fails | takes | keeps | leaves => cases hs
  | begins hp hi hp' hl ht =>
    cases hs
    refine ⟨hl, fun token htoken => .inr ?_, rfl⟩
    rw [token?, if_pos (isUnderway_acquire.2 hp'), Option.some.injEq] at htoken
    rwa [← htoken]
  | goesOn hs' hp hp' hl ht =>
    rw [Step.state?_lift, hs', Option.map_some, Option.some.injEq] at hs
    subst hs
    refine ⟨hl, fun token htoken => .inl ?_, rfl⟩
    rw [token?, if_pos (isUnderway_acquire.2 hp'), ht] at htoken
    rw [token?, if_pos (isUnderway_acquire.2 hp), htoken]
  | asks hs' hl =>
    rw [Step.state?_lift, hs', Option.map_some, Option.some.injEq] at hs
    subst hs
    exact ⟨hl, nofun, rfl⟩

/-- A call does not find a token that is empty. -/
theorem Treats.result_ne (h : Treats l call f s) (hl : l.Proper) :
    s.result? ≠ some (.error .lockValueEmpty) := by
  cases h with
  | fails _ he =>
    intro hr
    cases hr
    exact he rfl
  | keeps he =>
    intro hr
    cases hr
    exact hl.held_ne (he rfl)
  | goesOn hs | asks hs =>
    rw [Step.result?_lift, Step.result?_of_state? hs]
    nofun
  | _ => nofun

end Laws

end LockCall

/-! ## Use of a lock -/

/-- A call that is on its way, with the lock before and after each of its steps. -/
structure Caller (C : Type) where
  call : LockCall C
  steps : List (Lock × Lock) := []
  deriving DecidableEq, Repr

namespace Caller

/-- Whether a caller is waiting for an acquisition that has begun. -/
def isUnderway (caller : Caller C) : Bool := caller.call.isUnderway

theorem countP_next (next : Option (LockCall C)) (steps : List (Lock × Lock)) :
    (next.map fun call => (⟨call, steps⟩ : Caller C)).toList.countP isUnderway =
      (next.any LockCall.isUnderway).toNat := by
  cases next with
  | none => rfl
  | some call => cases h : call.isUnderway <;> simp [isUnderway, h]

/-- A caller of a lock whose steps have left no trace in it but the mark of acquisitions. -/
structure Fit (lock : Nat) (caller : Caller C) : Prop where
  lock_eq : caller.call.lock = lock
  token_ne : ∀ token, caller.call.token? = some token → token ≠ ""
  traceless : ∀ s ∈ caller.steps, s.2.giveUp = s.1.giveUp

/-- A step with which the call does not end. -/
theorem Fit.next {lock : Nat} {caller : Caller C} {l : Lock} {f : Lock → Lock}
    {s : Step (LockCall C) (Except (LockError Fault) Unit)} (h : caller.Fit lock)
    (ht : LockCall.Treats l caller.call f s) {call : LockCall C} (hs : s.state? = some call) :
    Fit lock ⟨call, caller.steps ++ [(l, f l)]⟩ := by
  obtain ⟨hl, htoken, hsame⟩ := ht.next hs
  refine ⟨hl.trans h.lock_eq, ?_, ?_⟩
  · intro token hn
    obtain hkept | hnew := htoken token hn
    · exact h.token_ne token hkept
    · exact hnew
  · intro change hm
    obtain hm | rfl := List.mem_append.1 hm |>.imp_right List.mem_singleton.1
    · exact h.traceless change hm
    · exact hsame

end Caller

/-- Calls on one lock. -/
structure Usage (S C : Type) where
  world : World (Guarded S) C
  callers : List (Caller C) := []
  /-- The calls that have been dropped. -/
  dropped : List (Caller C) := []
  /-- How calls have ended. -/
  results : List (Except (LockError Fault) Unit) := []

namespace Usage

/-- What can happen next to a lock in its place. -/
inductive Move (S C : Type) (lock : Nat) where
  /-- An acquisition is called for. -/
  | acquire (client : LockClient) (context : Option String)
  /-- A release is called for. -/
  | release (client : LockClient) (context : Option String)
  /-- The call in a place takes a step. -/
  | go (place : Nat) (opens : Bool)
  /-- The call in a place is dropped. -/
  | drop (place : Nat)
  /-- Anything happens to the world, except to the lock. -/
  | drift (f : World (Guarded S) C → World (Guarded S) C)
    (hf : ∀ w, (f w).site.locks[lock]? = w.site.locks[lock]?)

section Runs

variable [Site S C] [Keeper S C] (lock : Nat)

/-- The use of the lock after a step of the caller that stood between `before` and `behind`. -/
def advance (y : Usage S C) (before : List (Caller C)) (caller : Caller C)
    (behind : List (Caller C)) (opens : Bool) : Usage S C :=
  let r := caller.call.step y.world opens
  let steps := caller.steps ++ [(lockAt y.world lock, lockAt r.1 lock)]
  { y with
    world := r.1
    callers := before ++ (r.2.state?.map fun call => ⟨call, steps⟩).toList ++ behind
    results := r.2.result?.toList ++ y.results }

/-- One move. A move that is not possible changes nothing. -/
def step (y : Usage S C) : Move S C lock → Usage S C
  | .acquire client context =>
    { y with callers := y.callers ++ [⟨.acquire { client, context, lock }, []⟩] }
  | .release client context =>
    { y with callers := y.callers ++ [⟨.release { client, context, lock }, []⟩] }
  | .go place opens =>
    match y.callers[place]? with
    | none => y
    | some caller =>
      y.advance lock (y.callers.take place) caller (y.callers.drop (place + 1)) opens
  | .drop place =>
    { y with
      callers := y.callers.eraseIdx place
      dropped := y.callers[place]?.toList ++ y.dropped }
  | .drift f _ => { y with world := f y.world }

/-- The use that a list of moves leads to. -/
def run (y : Usage S C) (moves : List (Move S C lock)) : Usage S C := moves.foldl (step lock) y

end Runs

/-- The use of a lock that has just been made. -/
def start (w : World (Guarded S) C) (resources : List String) : Usage S C :=
  { world := (addLock w { resources }).1 }

/-! ## What all moves keep -/

theorem forall_mem_replace {α : Type} {P : α → Prop} {before next behind others : List α} {a : α}
    (h : ∀ b ∈ before ++ a :: behind ++ others, P b) (hn : ∀ b ∈ next, P b) :
    ∀ b ∈ before ++ next ++ behind ++ others, P b := by
  simp only [List.mem_append, List.mem_cons] at h ⊢
  rintro b (((hb | hb) | hb) | hb)
  · exact h b (.inl (.inl hb))
  · exact hn b hb
  · exact h b (.inl (.inr (.inr hb)))
  · exact h b (.inr hb)

/-- A lock in its place and the calls on it. -/
structure Sound (lock : Nat) (y : Usage S C) (l : Lock) : Prop where
  inPlace : y.world.site.locks[lock]? = some l
  proper : l.Proper
  fit : ∀ caller ∈ y.callers ++ y.dropped, caller.Fit lock
  /-- The lock is marked for one acquisition that has begun and not ended. -/
  marked : (y.callers ++ y.dropped).countP Caller.isUnderway = l.acquiring.toNat
  valueThere : .error .lockValueEmpty ∉ y.results

theorem sound_start (w : World (Guarded S) C) (resources : List String) :
    (start w resources).Sound w.site.locks.length { resources } where
  inPlace := List.getElem?_concat_length
  proper := ⟨rfl, nofun, nofun⟩
  fit := List.forall_mem_nil _
  marked := rfl
  valueThere := nofun

variable {lock : Nat} {y : Usage S C} {l : Lock}

theorem Sound.lockAt_eq (h : y.Sound lock l) : lockAt y.world lock = l := lockAt_of_get? h.inPlace

theorem Sound.acquiring_iff (h : y.Sound lock l) :
    l.acquiring = true ↔ ∃ caller ∈ y.callers ++ y.dropped, caller.isUnderway = true := by
  rw [← List.countP_pos_iff, h.marked]
  cases l.acquiring <;> simp

/-- One call more, which has not begun. -/
theorem Sound.concat (h : y.Sound lock l) {call : LockCall C} (hl : call.lock = lock)
    (hc : call.isUnderway = false) (ht : call.token? = none) :
    Sound lock { y with callers := y.callers ++ [⟨call, []⟩] } l := by
  refine ⟨h.inPlace, h.proper, ?_, ?_, h.valueThere⟩
  · intro caller hm
    rw [List.append_assoc, List.mem_append, List.mem_append, List.mem_singleton] at hm
    obtain hm | rfl | hm := hm
    · exact h.fit caller (List.mem_append_left _ hm)
    · exact ⟨hl, by simp [ht], List.forall_mem_nil _⟩
    · exact h.fit caller (List.mem_append_right _ hm)
  · rw [← h.marked]
    simp [Caller.isUnderway, hc]

/-- A call is dropped. -/
theorem Sound.drop (h : y.Sound lock l) (place : Nat) :
    Sound lock { y with
      callers := y.callers.eraseIdx place
      dropped := y.callers[place]?.toList ++ y.dropped } l := by
  have hperm : (y.callers.eraseIdx place ++ (y.callers[place]?.toList ++ y.dropped)).Perm
      (y.callers ++ y.dropped) := by
    rw [← List.append_assoc]
    apply List.Perm.append_right
    by_cases hp : place < y.callers.length
    · rw [List.getElem?_eq_getElem hp]
      exact List.perm_append_comm.trans (List.getElem_cons_eraseIdx_perm hp)
    · rw [Nat.not_lt] at hp
      simp [List.eraseIdx_of_length_le hp, hp]
  refine ⟨h.inPlace, h.proper, fun caller hm => h.fit caller (hperm.mem_iff.1 hm), ?_, h.valueThere⟩
  rw [← h.marked]
  exact hperm.countP_eq _

variable [Site S C] [Keeper S C]

/-- A caller takes a step. -/
theorem Sound.advance (h : y.Sound lock l) {before behind : List (Caller C)} {caller : Caller C}
    (hc : y.callers = before ++ caller :: behind) (opens : Bool) :
    ∃ l', (y.advance lock before caller behind opens).Sound lock l' := by
  have hfit := h.fit caller (by simp [hc])
  obtain ⟨f, ht, hlocks⟩ := caller.call.treats_step y.world opens
  rw [hfit.lock_eq] at hlocks
  rw [hfit.lock_eq, h.lockAt_eq] at ht
  have hplace : (caller.call.step y.world opens).1.site.locks[lock]? = some (f l) := by
    rw [hlocks, List.getElem?_modify_eq, h.inPlace]
    rfl
  refine ⟨f l, hplace, ht.proper h.proper hfit.token_ne, ?_, ?_, ?_⟩
  · refine forall_mem_replace (hc ▸ h.fit) fun next hm => ?_
    obtain ⟨call, hs, rfl⟩ := Option.map_eq_some_iff.1 (Option.mem_toList.1 hm)
    rw [h.lockAt_eq, lockAt_of_get? hplace]
    exact hfit.next ht hs
  · -- the mark and the calls under way change by as much
    have hbalance := ht.acquiring fun hu => h.acquiring_iff.2 ⟨caller, by simp [hc], hu⟩
    have hmarked := h.marked
    have hcaller : [caller].countP Caller.isUnderway = caller.call.isUnderway.toNat :=
      Caller.countP_next (some caller.call) caller.steps
    rw [hc, List.append_cons] at hmarked
    simp only [Usage.advance, List.countP_append, Caller.countP_next] at hmarked ⊢
    omega
  · intro hm
    obtain hm | hm := List.mem_append.1 hm
    · exact ht.result_ne h.proper (Option.mem_toList.1 hm)
    · exact h.valueThere hm

theorem Sound.step (h : y.Sound lock l) (m : Move S C lock) :
    ∃ l', (y.step lock m).Sound lock l' := by
  cases m with
  | acquire client context => exact ⟨l, h.concat rfl rfl rfl⟩
  | release client context => exact ⟨l, h.concat rfl rfl rfl⟩
  | go place opens =>
    rw [Usage.step]
    split
    case h_1 => exact ⟨l, h⟩
    case h_2 caller hc =>
      obtain ⟨hp, rfl⟩ := List.getElem?_eq_some_iff.1 hc
      exact h.advance (by simp) opens
  | drop place => exact ⟨l, h.drop place⟩
  | drift f hf => exact ⟨l, (hf y.world).trans h.inPlace, h.proper, h.fit, h.marked, h.valueThere⟩

theorem Sound.run (h : y.Sound lock l) (moves : List (Move S C lock)) :
    ∃ l', (y.run lock moves).Sound lock l' := by
  induction moves generalizing y l with
  | nil => exact ⟨l, h⟩
  | cons m moves ih =>
    obtain ⟨l', h'⟩ := h.step m
    exact ih h'

theorem sound_run (w : World (Guarded S) C) (resources : List String)
    (moves : List (Move S C w.site.locks.length)) :
    ∃ l, ((start w resources).run w.site.locks.length moves).Sound w.site.locks.length l :=
  (sound_start w resources).run moves

/-! ## Order -/

/-- A lock in order among the calls on it. -/
structure Orderly (lock : Nat) (y : Usage S C) : Prop where
  locked_iff : (lockAt y.world lock).locked = true ↔
    ∃ token, (lockAt y.world lock).token = some token
  token_ne : ∀ token, (lockAt y.world lock).token = some token → token ≠ ""
  /-- No release has found an empty token. -/
  valueThere : .error .lockValueEmpty ∉ y.results
  /-- One acquisition at most is under way. -/
  single : (y.callers.filter Caller.isUnderway).length ≤ 1
  /-- While the lock is held or wanted, an acquisition ends at once and leaves the world alone. -/
  acquiredAlready : ∀ client context opens,
    (lockAt y.world lock).locked = true ∨ (∃ caller ∈ y.callers, caller.isUnderway = true) →
      LockCall.step y.world opens (.acquire { client, context, lock }) =
        (y.world, .ends (.error .locksAlreadyAcquired))
  /-- While the lock is not held, a release ends at once and leaves the world alone. -/
  notAcquired : ∀ client context opens, (lockAt y.world lock).locked = false →
    LockCall.step y.world opens (.release { client, context, lock }) =
      (y.world, .ends (.error
        (if stopped y.world context then .canceled else .lockReleaseBeforeAcquire)))

theorem Sound.acquire_refused (h : y.Sound lock l) (hi : l.isIdle = false) (client : LockClient)
    (context : Option String) (opens : Bool) :
    LockCall.step y.world opens (.acquire { client, context, lock }) =
      (y.world, .ends (.error .locksAlreadyAcquired)) := by
  rw [LockCall.step, Acquisition.step]
  simp [h.lockAt_eq, hi, Step.lift]

theorem Sound.release_refused (h : y.Sound lock l) (hl : l.locked = false) (client : LockClient)
    (context : Option String) (opens : Bool) :
    LockCall.step y.world opens (.release { client, context, lock }) =
      (y.world, .ends (.error
        (if stopped y.world context then .canceled else .lockReleaseBeforeAcquire))) := by
  rw [LockCall.step, Release.step]
  have hheld : l.held = .error .lockReleaseBeforeAcquire := by
    rw [Lock.held, hl]
    rfl
  cases stopped y.world context <;> simp [h.lockAt_eq, hheld, Step.lift]

/-- A lock is in order from the time it is made, whichever calls there are on it, whatever order
they take their steps in, and whatever happens beside them. -/
theorem orderly_run (w : World (Guarded S) C) (resources : List String)
    (moves : List (Move S C w.site.locks.length)) :
    ((start w resources).run w.site.locks.length moves).Orderly w.site.locks.length := by
  obtain ⟨l, h⟩ := sound_run w resources moves
  generalize (start w resources).run w.site.locks.length moves = y at h ⊢
  have hat := h.lockAt_eq
  refine ⟨?_, ?_, h.valueThere, ?_, ?_, ?_⟩
  · rw [hat, h.proper.stored, Option.isSome_iff_exists]
  · rintro token htoken rfl
    exact h.proper.filled (hat ▸ htoken)
  · have hmarked := h.marked
    rw [List.countP_append] at hmarked
    rw [← List.countP_eq_length_filter]
    exact Nat.le_trans (Nat.le_add_right _ _) (hmarked ▸ Bool.toNat_le l.acquiring)
  · intro client context opens hbusy
    refine h.acquire_refused ?_ client context opens
    rw [hat] at hbusy
    rw [Lock.isIdle, Bool.and_eq_false_iff, Bool.not_eq_false', Bool.not_eq_false']
    refine hbusy.imp_right fun ⟨caller, hm, hu⟩ => ?_
    exact h.acquiring_iff.2 ⟨caller, List.mem_append_left _ hm, hu⟩
  · intro client context opens hl
    exact h.release_refused (hat ▸ hl) client context opens

end Usage

end Reconnect.Cache
