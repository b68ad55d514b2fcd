import Reconnect.Cache.Lock
import Reconnect.Execution

/-!
# Acquiring and releasing locks

An acquisition draws one token and offers it to the store until no key is taken or its time is up;
between two attempts it pauses for a random time. A release drops the keys that still hold the
token it read when it began. The answer of the store and the change of the lock are one step.

A step that opens a turn looks at the context of the call first, then at that of the client.
-/

namespace Reconnect.Cache

/-- A site together with the locks that are in use at it. -/
structure Guarded (S : Type) where
  store : S
  locks : List Lock := []

instance {S C : Type} [Site S C] : Site (Guarded S) C where
  dial g := let r := Site.dial g.store; ({ g with store := r.1 }, r.2)
  connect g := let r := Site.connect g.store; ({ g with store := r.1 }, r.2)
  ping g c := let r := Site.ping g.store c; ({ g with store := r.1 }, r.2)
  close g c := { g with store := Site.close g.store c }
  shut g := { g with store := Site.shut g.store }
  ready g n := Site.ready g.store n

/-- A client of a store of locks. -/
structure LockClient where
  client : Client
  settings : LockSettings
  /-- How many units of the clock make a millisecond. -/
  milli : Nat := 1
  deriving DecidableEq, Repr, Inhabited

/-- The pause of a client after an attempt that found a key taken, given a throw of the dice. -/
def LockClient.pause (c : LockClient) (roll : Nat) : Millis := c.settings.pause c.milli roll

variable {S C : Type}

/-- The lock in a place. -/
def lockAt (w : World (Guarded S) C) (i : Nat) : Lock := w.site.locks.getD i default

/-- Changes the lock in a place. -/
def changeLock (w : World (Guarded S) C) (i : Nat) (f : Lock → Lock) : World (Guarded S) C :=
  { w with site := { w.site with locks := w.site.locks.modify i f } }

/-- Adds a lock and gives its place. -/
def addLock (w : World (Guarded S) C) (l : Lock) : World (Guarded S) C × Nat :=
  ({ w with site := { w.site with locks := w.site.locks ++ [l] } }, w.site.locks.length)

/-- The offer of a token to the store. -/
def offer [Keeper S C] (keys : List String) (token : String) (ttl : Millis) :
    Operation (World (Guarded S) C) C C Bool :=
  .atOnce fun w c =>
    let r := Keeper.acquire w.site.store c keys token ttl
    ({ w with site := { w.site with store := r.1 } }, r.2)

/-- The dropping of a token from the store. -/
def dropping [Keeper S C] (keys : List String) (token : String) :
    Operation (World (Guarded S) C) C C Nat :=
  .atOnce fun w c =>
    let r := Keeper.release w.site.store c keys token
    ({ w with site := { w.site with store := r.1 } }, r.2)

/-- Whether a context, if there is one, has been canceled. -/
def stopped (w : World S C) (context : Option String) : Bool := context.any w.isCanceled

/-- What an acquisition is doing. -/
inductive Acquisition.Phase (C : Type) where
  /-- It has not begun. -/
  | entering
  /-- It is about to make an attempt. -/
  | trying
  /-- It makes an attempt. -/
  | asking (e : Execution C)
  /-- It pauses. -/
  | resting (till : Event)
  deriving DecidableEq, Repr

/-- The acquisition of a lock. -/
structure Acquisition (C : Type) where
  client : LockClient
  context : Option String
  /-- The place of the lock. -/
  lock : Nat
  token : String := ""
  deadline : Millis := 0
  phase : Acquisition.Phase C := .entering
  deriving DecidableEq, Repr

namespace Acquisition

variable [Site S C] [Keeper S C]

/-- The end of an acquisition that failed after it had begun. -/
def fail (w : World (Guarded S) C) (a : Acquisition C) (e : LockError Fault) :
    World (Guarded S) C × Step (Acquisition C) (Except (LockError Fault) Unit) :=
  (changeLock w a.lock Lock.giveUp, .ends (.error e))

/-- One step of an acquisition. -/
def step (w : World (Guarded S) C) (opens : Bool) (a : Acquisition C) :
    World (Guarded S) C × Step (Acquisition C) (Except (LockError Fault) Unit) :=
  match a.phase with
  | .entering =>
    if (lockAt w a.lock).isIdle then
      let r := w.draw
      let w := changeLock r.1 a.lock Lock.begin
      if stopped w a.context then fail w a .canceled
      else
        (w, .moves { a with
          token := r.2.text
          deadline := w.now + a.client.settings.acquireTimeout
          phase := .trying })
    else (w, .ends (.error .locksAlreadyAcquired))
  | phase =>
    if opens && stopped w a.context then fail w a .canceled
    else
      match phase with
      | .entering => (w, .moves a)
      | .trying =>
        if a.deadline ≤ w.now then fail w a .lockAcquireTimeout
        else (w, .moves { a with phase := .asking (.start a.client.client (a.deadline - w.now)) })
      | .asking e =>
        let r := e.step (offer (lockAt w a.lock).keys a.token a.client.settings.ttl) w opens
        match r.2 with
        | .waits e => (r.1, .waits { a with phase := .asking e })
        | .moves e => (r.1, .moves { a with phase := .asking e })
        | .ends o =>
          match o.result with
          | .ok true => (changeLock r.1 a.lock (Lock.take · a.token r.1.now), .ends (.ok ()))
          | .ok false =>
            let t := r.1.roll
            let pause := min (a.client.pause t.2) (a.deadline - t.1.now)
            (t.1, .moves { a with phase := .resting (t.1.after pause) })
          | .error .operationTimeout => fail r.1 a .lockAcquireTimeout
          | .error e => fail r.1 a (.client e)
      | .resting till =>
        if w.hasHappened till then (w, .moves { a with phase := .trying }) else (w, .waits a)

omit [Site S C] [Keeper S C] in
/-- When a pause is over at the latest, if it lasts for a round and not for a time. Should the clock
have to go on, it does not leave the deadline behind. -/
def latest (a : Acquisition C) : Event → List Event
  | .round t _ => if t < a.deadline then [.time a.deadline] else []
  | _ => []

/-- What an acquisition waits for. -/
def wakes (a : Acquisition C) : List Event :=
  a.context.toList.map .cancellation ++
    match a.phase with
    | .entering | .trying => []
    | .asking e => e.wakes (offer (S := S) [] "" 0)
    | .resting till => till :: a.latest till

omit [Site S C] [Keeper S C] in
/-- Whether an acquisition holds the supervisor. -/
def holds (a : Acquisition C) : Bool :=
  match a.phase with
  | .asking e => e.holds
  | _ => false

end Acquisition

/-- What a release is doing. -/
inductive Release.Phase (C : Type) where
  /-- It has not begun. -/
  | entering
  /-- It asks the store to drop the token. -/
  | asking (token : String) (e : Execution C)
  deriving DecidableEq, Repr

/-- The release of a lock. -/
structure Release (C : Type) where
  client : LockClient
  context : Option String
  /-- The place of the lock. -/
  lock : Nat
  phase : Release.Phase C := .entering
  deriving DecidableEq, Repr

namespace Release

variable [Site S C] [Keeper S C]

/-- One step of a release. -/
def step (w : World (Guarded S) C) (opens : Bool) (r : Release C) :
    World (Guarded S) C × Step (Release C) (Except (LockError Fault) Unit) :=
  match r.phase with
  | .entering =>
    if stopped w r.context then (w, .ends (.error .canceled))
    else
      match (lockAt w r.lock).held with
      | .error e => (w, .ends (.error e))
      | .ok token =>
        let client := r.client.client
        (w, .moves { r with phase := .asking token (.start client client.writeTimeout) })
  | .asking token e =>
    if opens && stopped w r.context then (w, .ends (.error .canceled))
    else
      let t := e.step (dropping (lockAt w r.lock).keys token) w opens
      match t.2 with
      | .waits e => (t.1, .waits { r with phase := .asking token e })
      | .moves e => (t.1, .moves { r with phase := .asking token e })
      | .ends o =>
        match o.result with
        | .ok _ => (changeLock t.1 r.lock (Lock.leave · t.1.now), .ends (.ok ()))
        | .error e => (t.1, .ends (.error (.client e)))

/-- What a release waits for. -/
def wakes (r : Release C) : List Event :=
  r.context.toList.map .cancellation ++
    match r.phase with
    | .entering => []
    | .asking _ e => e.wakes (dropping (S := S) [] "")

omit [Site S C] [Keeper S C] in
/-- Whether a release holds the supervisor. -/
def holds (r : Release C) : Bool :=
  match r.phase with
  | .asking _ e => e.holds
  | .entering => false

end Release

end Reconnect.Cache
