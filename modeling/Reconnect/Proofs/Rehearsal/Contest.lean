import Reconnect.Proofs.Rehearsal.Quiet

/-!
# Contests for locks

In a contest any number of calls on any number of locks are on their way in one world, and take
their steps in any order. Between two steps the world may drift: time passes, contexts are canceled,
the network fails and comes back, the supervisor recovers, locks are made. A drift drops no entry of
the store before its time and gives no token to a lock (`Drifts`).

A contest also keeps book of the grants: which lock had its token written, and until when.
-/

namespace Reconnect.Rehearsal

open Cache

/-- What may happen to a world beside the calls on its locks. -/
structure Drifts (w w' : VaultWorld) : Prop where
  wall : w.site.store.network.wall ≤ w'.site.store.network.wall
  drawn : w.drawn ≤ w'.drawn
  kept : ∀ key e, w.site.store.held? key = some e → w'.site.store.network.wall < e.expiry →
    w'.site.store.held? key = some e
  length : w.site.locks.length ≤ w'.site.locks.length
  resources : ∀ i < w.site.locks.length, (lockAt w' i).resources = (lockAt w i).resources
  token : ∀ i t, (lockAt w' i).token = some t → (lockAt w i).token = some t

namespace Drifts

theorem refl (w : VaultWorld) : Drifts w w :=
  ⟨Nat.le_refl _, Nat.le_refl _, fun _ _ h _ => h, Nat.le_refl _, fun _ _ => rfl, fun _ _ h => h⟩

theorem trans {w w' w'' : VaultWorld} (h : Drifts w w') (h' : Drifts w' w'') : Drifts w w'' where
  wall := Nat.le_trans h.wall h'.wall
  drawn := Nat.le_trans h.drawn h'.drawn
  kept key e he hl := h'.kept key e (h.kept key e he (Nat.lt_of_le_of_lt h'.wall hl)) hl
  length := Nat.le_trans h.length h'.length
  resources i hi := by
    rw [h'.resources i (Nat.lt_of_lt_of_le hi h.length), h.resources i hi]
  token i t ht := h.token i t (h'.token i t ht)

/-- A world whose entries and locks are the same has drifted if time has not run back. -/
theorem of_same {w w' : VaultWorld} (he : w'.site.store.entries = w.site.store.entries)
    (hl : w'.site.locks = w.site.locks)
    (hw : w.site.store.network.wall ≤ w'.site.store.network.wall) (hd : w.drawn ≤ w'.drawn) :
    Drifts w w' := by
  have hat : ∀ i, lockAt w' i = lockAt w i := by
    intro i
    unfold lockAt
    rw [hl]
  refine ⟨hw, hd, fun key e h hl => Vault.held?_of_le he hw h hl, ?_, ?_, ?_⟩
  · exact Nat.le_of_eq (congrArg List.length hl.symm)
  · intro i _
    rw [hat]
  · intro i t ht
    rw [← hat]
    exact ht

/-! ## What drifts -/

/-- A quiet step is a drift. -/
theorem of_quiet {w w' : VaultWorld} (h : Quiet w w') : Drifts w w' where
  wall := Nat.le_of_eq h.wall.symm
  drawn := Nat.le_of_eq h.drawn.symm
  kept key e he _ := (h.held key).trans he
  length := Nat.le_of_eq (congrArg List.length h.locks.symm)
  resources i _ := by rw [h.lockAt]
  token i t ht := by
    rw [← h.lockAt]
    exact ht

theorem cancel (w : VaultWorld) (context : String) : Drifts w (w.cancel context) :=
  of_quiet (.cancel w context)

theorem setClock (w : VaultWorld) (t : Millis) : Drifts w (w.setClock t) :=
  of_same rfl rfl (Nat.le_refl _) (Nat.le_refl _)

theorem draw (w : VaultWorld) : Drifts w w.draw.1 :=
  of_same rfl rfl (Nat.le_refl _) (Nat.le_succ _)

/-- An outage, a return of the network and the passing of time on the wall clock are drifts. -/
theorem network (w : VaultWorld) (n : Network) (hn : w.site.store.network.wall ≤ n.wall) :
    Drifts w (withNetwork w n) :=
  of_same rfl rfl hn (Nat.le_refl _)

theorem addLock (w : VaultWorld) (l : Lock) (hl : l.token = none) :
    Drifts w (addLock w l).1 := by
  refine ⟨Nat.le_refl _, Nat.le_refl _, fun _ _ h _ => h, ?_, ?_, ?_⟩
  · simp [Cache.addLock]
  · intro i hi
    rw [lockAt_addLock, if_neg (Nat.ne_of_lt hi)]
  · intro i t ht
    rw [lockAt_addLock] at ht
    split at ht
    · rw [hl] at ht
      cases ht
    · exact ht

/-- A change of a lock that keeps its resources and brings no token is a drift. -/
theorem changeLock (w : VaultWorld) (i : Nat) {f : Lock → Lock}
    (hr : ∀ l, (f l).resources = l.resources)
    (ht : ∀ l t, (f l).token = some t → l.token = some t) : Drifts w (changeLock w i f) := by
  refine ⟨Nat.le_refl _, Nat.le_refl _, fun _ _ h _ => h, ?_, ?_, ?_⟩
  · exact Nat.le_of_eq (length_changeLock w i f).symm
  · intro j _
    rw [lockAt_changeLock]
    split
    · exact hr _
    · rfl
  · intro j t h
    rw [lockAt_changeLock] at h
    split at h
    · exact ht _ t h
    · exact h

end Drifts

/-! ## Contests -/

/-- The acquisition that a call is at. -/
def VaultCall.acquisition? : VaultCall → Option (Acquisition Unit)
  | .acquire a => some a
  | .work _ _ _ ⟨_, _, .acquiring a⟩ => some a
  | _ => none

/-- The release that a call is at. -/
def VaultCall.release? : VaultCall → Option (Release Unit)
  | .release r => some r
  | .work _ _ _ ⟨_, _, .releasing r _⟩ => some r
  | _ => none

/-- A token that was written for a lock, and the time at which it is gone. -/
structure Grant where
  lock : Nat
  token : String
  expiry : Millis
  deriving DecidableEq, Repr

/-- What an acquisition is granted by a step that comes to `s`. -/
def grantsBy (w : VaultWorld) (a : Acquisition Unit)
    (s : Step (Acquisition Unit) (Except (LockError Fault) Unit)) : List Grant :=
  match s with
  | .ends (.ok ()) => [⟨a.lock, a.token, w.site.store.network.wall + a.client.settings.ttl⟩]
  | _ => []

/-- Whether a release drops the token of a grant by a step that comes to `s`. -/
def dropsBy (r : Release Unit) (s : Step (Release Unit) (Except (LockError Fault) Unit))
    (g : Grant) : Bool :=
  match r.phase, s with
  | .asking token _, .ends (.ok ()) => g.lock == r.lock && g.token == token
  | _, _ => false

/-- The grants after a step of a call. -/
def VaultCall.settle (w : VaultWorld) (opens : Bool) (call : VaultCall) (grants : List Grant) :
    List Grant :=
  match call.acquisition?, call.release? with
  | some a, _ => grantsBy w a (a.step w opens).2 ++ grants
  | none, some r => grants.filter fun g => !dropsBy r (r.step w opens).2 g
  | none, none => grants

/-- Calls on locks that are on their way in a world. -/
structure Contest where
  world : VaultWorld
  calls : List VaultCall := []
  /-- The grants whose tokens their own locks have not dropped, whether in time or not. -/
  grants : List Grant := []

namespace Contest

/-- What can happen next. -/
inductive Move where
  /-- A lock over some resources is made. -/
  | make (resources : List String)
  /-- An acquisition of the lock in a place begins. -/
  | acquire (client : LockClient) (context : Option String) (lock : Nat)
  /-- A release of the lock in a place begins. -/
  | release (client : LockClient) (context : Option String) (lock : Nat)
  /-- Work under a lock of its own begins. -/
  | work (client : LockClient) (context : Option String) (resources : List String)
    (bs : List Behaviour) (cancels : Option String) (peek : List String)
  /-- The call in a place takes a step. -/
  | go (place : Nat) (opens : Bool)
  /-- The call in a place is dropped. -/
  | drop (place : Nat)
  /-- The world drifts. -/
  | drift (f : VaultWorld → VaultWorld) (hf : ∀ w, Drifts w (f w))

/-- The contest after another call has begun. -/
def begin (y : Contest) (call : VaultCall) : Contest := { y with calls := y.calls ++ [call] }

/-- The contest after a step of a call that stood between `before` and `behind`. -/
def advance (y : Contest) (before : List VaultCall) (call : VaultCall) (behind : List VaultCall)
    (opens : Bool) : Contest :=
  let r := vaultMachine.step y.world opens call
  { world := r.1
    calls := before ++ r.2.state?.toList ++ behind
    grants := call.settle y.world opens y.grants }

/-- One move. A move that is not possible changes nothing. -/
def step (y : Contest) : Move → Contest
  | .make resources => { y with world := (addLock y.world { resources }).1 }
  | .acquire client context lock =>
    if lock < y.world.site.locks.length then y.begin (.acquire { client, context, lock }) else y
  | .release client context lock => y.begin (.release { client, context, lock })
  | .work client context resources bs cancels peek =>
    y.begin (.work bs cancels peek { client, context, phase := .entering resources })
  | .go place opens =>
    match y.calls[place]? with
    | none => y
    | some call => y.advance (y.calls.take place) call (y.calls.drop (place + 1)) opens
  | .drop place => { y with calls := y.calls.eraseIdx place }
  | .drift f _ => { y with world := f y.world }

/-- A contest in a world without locks. -/
def start (w : VaultWorld) : Contest := { world := { w with site := { w.site with locks := [] } } }

/-- The contest that a list of moves leads to. -/
def run (w : VaultWorld) (moves : List Move) : Contest := moves.foldl step (start w)

/-- A lock holds from the moment at which its token was written until a release of its own drops
that token, or the time for which it was written is over. -/
def Holds (y : Contest) (lock : Nat) : Prop :=
  ∃ g ∈ y.grants, g.lock = lock ∧ y.world.site.store.network.wall < g.expiry

end Contest

end Reconnect.Rehearsal
