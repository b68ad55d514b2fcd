import Reconnect.Proofs.Rehearsal.Contest

/-!
# What a step of a call does to locks and their keys

Of a call only its stance towards a lock counts: whether it is about to begin an acquisition, to
have a token written, to read the token of a lock, or to have a token dropped. `Strides` lists,
rule by rule, what one step of a call in a stance does to the locks and to what the keys hold, the
stance that it leaves, and what it is granted or has left; `VaultCall.strides_step` shows that the
calls follow these rules. All other steps are `Quiet`.
-/

namespace Reconnect.Rehearsal

open Cache

/-- What a call is about to do to a lock. -/
inductive Stance where
  | nothing
  /-- To begin an acquisition. -/
  | entering (lock : Nat)
  /-- To have a token written for a time. -/
  | offering (lock : Nat) (token : String) (ttl : Millis)
  /-- To read the token of the lock. -/
  | reading (lock : Nat)
  /-- To have a token dropped that it has read. -/
  | dropping (lock : Nat) (token : String)
  deriving DecidableEq, Repr

/-- What an acquisition is about to do. -/
def stanceOfAcquisition (a : Acquisition Unit) : Stance :=
  match a.phase with
  | .entering => .entering a.lock
  | _ => .offering a.lock a.token a.client.settings.ttl

/-- What a release is about to do. -/
def stanceOfRelease (r : Release Unit) : Stance :=
  match r.phase with
  | .entering => .reading r.lock
  | .asking token _ => .dropping r.lock token

/-- What a call is about to do to a lock. -/
def VaultCall.stance (call : VaultCall) : Stance :=
  match call.acquisition?, call.release? with
  | some a, _ => stanceOfAcquisition a
  | none, some r => stanceOfRelease r
  | none, none => .nothing

/-- The token that a release has read. -/
def tokenRead? (r : Release Unit) : Option String :=
  match r.phase with
  | .entering => none
  | .asking token _ => some token

/-- The token for which a release has left its lock by a step that comes to `s`. -/
def leftBy (r : Release Unit) (s : Step (Release Unit) (Except (LockError Fault) Unit)) :
    List String :=
  match s with
  | .ends (.ok ()) => (tokenRead? r).toList
  | _ => []

/-- What a call is granted by a step. -/
def VaultCall.granted (w : VaultWorld) (opens : Bool) (call : VaultCall) : List Grant :=
  match call.acquisition? with
  | some a => grantsBy w a (a.step w opens).2
  | none => []

/-- The token for which a call leaves a lock by a step. -/
def VaultCall.left (w : VaultWorld) (opens : Bool) (call : VaultCall) : List String :=
  match call.release? with
  | some r => leftBy r (r.step w opens).2
  | none => []

/-- What one step of a call in a stance does: the world after it, the stance that it leaves if the
call goes on, what the call is granted, and the token for which it has left a lock. -/
inductive Strides (w : VaultWorld) :
    Stance → VaultWorld → Option Stance → List Grant → List String → Prop
  /-- Nothing happens, or the call ends without success. -/
  | quiet {stance : Stance} {w' : VaultWorld} {next : Option Stance} (hw : Quiet w w')
      (hn : next = none ∨ next = some stance) : Strides w stance w' next [] []
  /-- Work under a lock is done, and the lock has to be released. -/
  | turn {lock : Nat} {w' : VaultWorld} (hw : Quiet w w') :
      Strides w .nothing w' (some (.reading lock)) [] []
  /-- A lock of its own is made for work. -/
  | make {resources : List String} :
      Strides w .nothing (addLock w { resources }).1 (some (.entering w.site.locks.length)) [] []
  | begin {lock : Nat} {ttl : Millis} (hi : (lockAt w lock).isIdle = true) :
      Strides w (.entering lock) (changeLock w.draw.1 lock Lock.begin)
        (some (.offering lock w.draw.2.text ttl)) [] []
  /-- An acquisition is canceled as it begins. -/
  | refuse {lock : Nat} (hi : (lockAt w lock).isIdle = true) :
      Strides w (.entering lock)
        (changeLock (changeLock w.draw.1 lock Lock.begin) lock Lock.giveUp) none [] []
  | giveUp {lock : Nat} {token : String} {ttl : Millis} {w' : VaultWorld} (hw : Quiet w w') :
      Strides w (.offering lock token ttl) (changeLock w' lock Lock.giveUp) none [] []
  /-- The token is written, and the lock is taken. -/
  | take {lock : Nat} {token : String} {ttl now : Millis} {next : Option Stance}
      (hn : next = none ∨ next = some .nothing) :
      Strides w (.offering lock token ttl)
        (changeLock (withStore w (w.site.store.acquire (lockAt w lock).keys token ttl).1) lock
          (Lock.take · token now)) next
        [⟨lock, token, w.site.store.network.wall + ttl⟩] []
  | read {lock : Nat} {token : String} (hh : (lockAt w lock).held = .ok token) :
      Strides w (.reading lock) w (some (.dropping lock token)) [] []
  /-- The store answers that the token is dropped, and the lock is left. -/
  | leave {lock : Nat} {token : String} {now : Millis} :
      Strides w (.dropping lock token)
        (changeLock (withStore w (w.site.store.release (lockAt w lock).keys token).1) lock
          (Lock.leave · now)) none [] [token]

/-- The stance after a step of an acquisition. `done` is the one after it has succeeded. -/
def stanceAfter (done : Option Stance) :
    Step (Acquisition Unit) (Except (LockError Fault) Unit) → Option Stance
  | .waits a | .moves a => some (stanceOfAcquisition a)
  | .ends (.ok _) => done
  | .ends (.error _) => none

theorem stanceOfAcquisition_of_ne {a : Acquisition Unit} (h : a.phase ≠ .entering) :
    stanceOfAcquisition a = .offering a.lock a.token a.client.settings.ttl := by
  unfold stanceOfAcquisition
  split
  case h_1 hp => exact absurd hp h
  case h_2 => rfl

/-- A step of an acquisition follows the rules. -/
theorem strides_acquisition {w w' : VaultWorld} {opens : Bool} {a : Acquisition Unit}
    {s : Step (Acquisition Unit) (Except (LockError Fault) Unit)} (h : a.Goes w opens w' s)
    {done : Option Stance} (hd : done = none ∨ done = some .nothing) :
    Strides w (stanceOfAcquisition a) w' (stanceAfter done s) (grantsBy w a s) [] := by
  have hentering : a.phase = .entering → stanceOfAcquisition a = .entering a.lock := by
    intro hp
    rw [stanceOfAcquisition, hp]
  have hoffering : ∀ {phase}, a.phase = phase → phase ≠ .entering →
      stanceOfAcquisition a = .offering a.lock a.token a.client.settings.ttl := by
    rintro _ rfl hne
    exact stanceOfAcquisition_of_ne hne
  cases h with
  | busy hp => exact .quiet (.refl w) (.inl rfl)
  | enterStopped hp hi =>
    rw [hentering hp]
    exact .refuse hi
  | enter hp hi =>
    rw [hentering hp]
    exact .begin hi
  | stop hp =>
    rw [stanceOfAcquisition_of_ne hp]
    exact .giveUp (.refl w)
  | expire hp =>
    rw [hoffering hp nofun]
    exact .giveUp (.refl w)
  | ask hp =>
    rw [hoffering hp nofun]
    exact .quiet (.refl w) (.inr rfl)
  | askWaits hp _ he =>
    rw [hoffering hp nofun]
    exact .quiet (quiet_of_offer he nofun) (.inr rfl)
  | askMoves hp _ he =>
    rw [hoffering hp nofun]
    exact .quiet (quiet_of_offer he nofun) (.inr rfl)
  | take hp _ he =>
    rw [hoffering hp nofun]
    rcases quiet_or_granted he with ⟨-, hs⟩ | ⟨-, rfl, -⟩
    · exact absurd rfl (hs _)
    · exact .take hd
  | takeNot hp _ he =>
    rw [hoffering hp nofun]
    exact .quiet ((quiet_of_offer he fun n => by simp).trans (.roll _)) (.inr rfl)
  | outOfTime hp _ he =>
    rw [hoffering hp nofun]
    exact .giveUp (quiet_of_offer he fun n => by simp)
  | askFailed hp _ he =>
    rw [hoffering hp nofun]
    exact .giveUp (quiet_of_offer he fun n => by simp)
  | wake hp =>
    rw [hoffering hp nofun]
    exact .quiet (.refl w) (.inr rfl)
  | rest hp =>
    rw [hoffering hp nofun]
    refine .quiet (.refl w) (.inr ?_)
    rw [stanceAfter, hoffering hp nofun]

/-- A step of a release follows the rules. -/
theorem strides_release {w w' : VaultWorld} {opens : Bool} {r : Release Unit}
    {s : Step (Release Unit) (Except (LockError Fault) Unit)} (h : r.Goes w opens w' s) :
    Strides w (stanceOfRelease r) w' (s.state?.map stanceOfRelease) [] (leftBy r s) := by
  have hentering : r.phase = .entering → stanceOfRelease r = .reading r.lock := by
    intro hp
    rw [stanceOfRelease, hp]
  have hasking : ∀ {token e}, r.phase = .asking token e →
      stanceOfRelease r = .dropping r.lock token := by
    intro token e hp
    rw [stanceOfRelease, hp]
  cases h with
  | stop => exact .quiet (.refl w) (.inl rfl)
  | notHeld => exact .quiet (.refl w) (.inl rfl)
  | enter hp _ hh =>
    rw [hentering hp]
    exact .read hh
  | askWaits hp _ he =>
    rw [hasking hp]
    exact .quiet (quiet_of_dropping he nofun) (.inr rfl)
  | askMoves hp _ he =>
    rw [hasking hp]
    exact .quiet (quiet_of_dropping he nofun) (.inr rfl)
  | leave hp _ he =>
    rw [leftBy, hasking hp, tokenRead?, hp]
    rcases quiet_or_dropped he with ⟨-, hs⟩ | ⟨-, rfl⟩
    · exact absurd rfl (hs _ _)
    · exact .leave
  | askFailed hp _ he =>
    rw [hasking hp]
    exact .quiet (quiet_of_dropping he fun n dropped => by simp) (.inl rfl)

/-- A step of work under locks follows the rules. -/
theorem strides_work (w : VaultWorld) (opens : Bool) (bs : List Behaviour)
    (cancel : Option String) (peek : List String)
    (g : GuardedWork Unit (Acting Unit) (List (Option String))) :
    Strides w (VaultCall.work bs cancel peek g).stance
      (g.step (vaultOperation bs cancel peek) w opens).1
      ((g.step (vaultOperation bs cancel peek) w opens).2.state?.map
        fun g => (VaultCall.work bs cancel peek g).stance)
      ((VaultCall.work bs cancel peek g).granted w opens)
      ((VaultCall.work bs cancel peek g).left w opens) := by
  obtain ⟨client, context, phase⟩ := g
  cases phase with
  | entering resources =>
    simp only [GuardedWork.step]
    cases hl : Lock.ofResources resources with
    | error err => exact .quiet (.refl w) (.inl rfl)
    | ok l =>
      have hlock : l = { resources } := by
        unfold Lock.ofResources at hl
        split at hl
        · cases hl
        · cases hl
          rfl
      rw [hlock]
      exact .make
  | acquiring a =>
    have hgoes := a.goes_step w opens
    simp only [GuardedWork.step, VaultCall.granted, VaultCall.acquisition?]
    generalize a.step w opens = r at hgoes ⊢
    have hstrides := strides_acquisition hgoes (.inr rfl)
    rcases r with ⟨w', a' | a' | (err | _)⟩ <;> exact hstrides
  | working lock e =>
    -- whatever is done under the lock is quiet
    have hq := Quiet.execution (.vaultOperation bs cancel peek)
      (e.goes_step (vaultOperation bs cancel peek) w opens)
    simp only [GuardedWork.step]
    generalize e.step (vaultOperation bs cancel peek) w opens = r at hq ⊢
    rcases r with ⟨w', e' | e' | o⟩
    · exact .quiet hq (.inr rfl)
    · exact .quiet hq (.inr rfl)
    · exact .turn hq
  | releasing r o =>
    have hgoes := r.goes_step w opens
    simp only [GuardedWork.step, VaultCall.left, VaultCall.release?]
    generalize r.step w opens = t at hgoes ⊢
    rcases t with ⟨w', r' | r' | _⟩ <;> exact strides_release hgoes

/-- A step of a call follows the rules. -/
theorem VaultCall.strides_step (w : VaultWorld) (opens : Bool) (call : VaultCall) :
    Strides w call.stance (vaultMachine.step w opens call).1
      ((vaultMachine.step w opens call).2.state?.map VaultCall.stance) (call.granted w opens)
      (call.left w opens) := by
  cases call with
  | errand e =>
    have hq := Quiet.touches (e.step_touches w)
    simp only [vaultMachine]
    generalize e.step w = r at hq ⊢
    rcases r with ⟨w', e' | e' | _⟩
    · exact .quiet hq (.inr rfl)
    · exact .quiet hq (.inr rfl)
    · exact .quiet hq (.inl rfl)
  | acquire a =>
    have hgoes := a.goes_step w opens
    simp only [vaultMachine, VaultCall.granted, VaultCall.acquisition?]
    generalize a.step w opens = r at hgoes ⊢
    have hstrides := strides_acquisition hgoes (.inl rfl)
    rcases r with ⟨w', a' | a' | (err | _)⟩ <;> exact hstrides
  | release r =>
    have hgoes := r.goes_step w opens
    simp only [vaultMachine, VaultCall.left, VaultCall.release?]
    generalize r.step w opens = t at hgoes ⊢
    rcases t with ⟨w', r' | r' | _⟩ <;> exact strides_release hgoes
  | work bs cancel peek g =>
    have hs := strides_work w opens bs cancel peek g
    simp only [vaultMachine]
    generalize g.step (vaultOperation bs cancel peek) w opens = r at hs ⊢
    rcases r with ⟨w', g' | g' | _⟩ <;> exact hs

end Reconnect.Rehearsal
