import Reconnect.Cache.GuardedWork
import Reconnect.Rehearsal.Behaviour
import Reconnect.Rehearsal.Cue
import Reconnect.Rehearsal.Network
import Reconnect.Table

/-!
# A store of locks for rehearsals

The store keeps entries in memory; an entry is gone once its time is up on the wall clock. All
connections lead to the same entries.
-/

namespace Reconnect.Rehearsal

open Cache

/-- What a key holds: a token and the time at which it is gone. -/
structure VaultEntry where
  token : String
  expiry : Millis
  deriving DecidableEq, Repr, Inhabited

/-- A store of locks in memory. -/
structure Vault where
  network : Network := {}
  entries : Table String VaultEntry := .empty
  /-- The places of the locks that have names. -/
  names : Table String Nat := .empty
  deriving DecidableEq, Repr, Inhabited

namespace Vault

/-- The entries whose time is not up. -/
def live (v : Vault) : Table String VaultEntry :=
  v.entries.filter fun _ e => v.network.wall < e.expiry

/-- The token that a key holds. -/
def value? (v : Vault) (key : String) : Option String :=
  (v.live.get? key).map VaultEntry.token

/-- Drops an entry as if its time were up. -/
def expire (v : Vault) (key : String) : Vault := { v with entries := v.live.erase key }

/-- Writes a token under all keys, unless one of them is taken. -/
def acquire (v : Vault) (keys : List String) (token : String) (ttl : Millis) : Vault × Bool :=
  let live := v.live
  if keys.any live.contains then ({ v with entries := live }, false)
  else
    let entry : VaultEntry := ⟨token, v.network.wall + ttl⟩
    ({ v with entries := keys.foldl (·.insert · entry) live }, true)

/-- Drops the keys that hold a token, and counts them. -/
def release (v : Vault) (keys : List String) (token : String) : Vault × Nat :=
  let r := keys.foldl
    (fun (r : Table String VaultEntry × Nat) key =>
      if (r.1.get? key).any (·.token == token) then (r.1.erase key, r.2 + 1) else r)
    (v.live, 0)
  ({ v with entries := r.1 }, r.2)

/-- A request that fails while the network is down. -/
def request {α : Type} (v : Vault) (r : Vault × α) : Vault × Except Fault α :=
  match v.network.fault? with
  | some f => (v, .error f)
  | none => (r.1, .ok r.2)

end Vault

instance : Site Vault Unit where
  dial v := (v, { fault := v.network.fault? })
  connect v := ({ v with network := v.network.countCreated }, ())
  ping v _ := ({ v with network := v.network.countPing }, { fault := v.network.fault? })
  close v _ := { v with network := v.network.countClosed }
  shut v := v
  ready _ _ := false

instance : Keeper Vault Unit where
  acquire v _ keys token ttl := v.request (v.acquire keys token ttl)
  release v _ keys token := v.request (v.release keys token)

/-- A call in a rehearsal of locks. -/
inductive VaultCall where
  | errand (e : Errand Unit)
  | acquire (a : Acquisition Unit)
  | release (r : Release Unit)
  /-- Work under locks, which succeeds with the tokens that some keys hold then. -/
  | work (bs : List Behaviour) (cancel : Option String) (peek : List String)
    (g : GuardedWork Unit (Acting Unit) (List (Option String)))

/-- The result of an order in a rehearsal of locks. -/
inductive VaultResult where
  | done
  | noLock
  /-- A lock was made, or not. -/
  | made (r : Except (LockError Fault) Lock)
  | acquired (r : Except Fault Bool)
  | released (r : Except Fault Nat)
  | lock (r : Except (LockError Fault) Unit)
  | work (o : GuardedWork.Outcome (List (Option String)))

/-- The operation of work under locks. Each attempt first cancels a context, if it is told to. -/
def vaultOperation (bs : List Behaviour) (cancel : Option String) (peek : List String) :
    Operation (World (Guarded Vault) Unit) Unit (Acting Unit) (List (Option String)) :=
  acting (fun n => cancel.elim (bs.getD n .ok) (.canceling · (bs.getD n .ok)))
    (fun g _ => g.store.network.fault?) fun w _ => peek.map w.site.store.value?

/-- How the calls of a rehearsal of locks run. -/
def vaultMachine : Machine (Guarded Vault) Unit VaultCall VaultResult where
  step w opens
    | .errand e =>
      let r := e.step w
      match r.2 with
      | .waits e => (r.1, .waits (.errand e))
      | .moves e => (r.1, .moves (.errand e))
      | .ends _ => (r.1, .ends .done)
    | .acquire a =>
      let r := a.step w opens
      match r.2 with
      | .waits a => (r.1, .waits (.acquire a))
      | .moves a => (r.1, .moves (.acquire a))
      | .ends result => (r.1, .ends (.lock result))
    | .release a =>
      let r := a.step w opens
      match r.2 with
      | .waits a => (r.1, .waits (.release a))
      | .moves a => (r.1, .moves (.release a))
      | .ends result => (r.1, .ends (.lock result))
    | .work bs cancel peek g =>
      let r := g.step (vaultOperation bs cancel peek) w opens
      match r.2 with
      | .waits g => (r.1, .waits (.work bs cancel peek g))
      | .moves g => (r.1, .moves (.work bs cancel peek g))
      | .ends o => (r.1, .ends (.work o))
  wakes w
    | .errand e => e.wakes w
    | .acquire a => a.wakes (S := Vault)
    | .release r => r.wakes (S := Vault)
    | .work bs cancel peek g => g.wakes (vaultOperation bs cancel peek)
  holds
    | .errand _ => true
    | .acquire a => a.holds
    | .release r => r.holds
    | .work _ _ _ g => g.holds
  abandon w _ := w
  recovery e := .errand e

/-- An order in a rehearsal of locks. Locks go by names. -/
inductive VaultOrder where
  | make (name : String) (resources : List String)
  | acquire (name context : String)
  | release (name : String) (context : Option String)
  | work (resources peek : List String) (bs : List Behaviour) (cancel : Option String)
    (context : String)
  | online (b : Bool)
  | expire (key : String)
  /-- Write a token straight into the store. -/
  | put (keys : List String) (token : String) (ttl : Millis)
  /-- Drop a token straight from the store. -/
  | drop (keys : List String) (token : String)
  | report
  | destroy

/-- A rehearsal of locks. -/
abbrev VaultSession := Session (Guarded Vault) Unit VaultCall VaultResult

namespace VaultSession

/-- Changes the store. -/
def change (s : VaultSession) (f : Vault → Vault) : VaultSession :=
  { s with world := { s.world with site := { s.world.site with store := f s.world.site.store } } }

/-- A rehearsal with one client that has been registered in a context. -/
def start (t : Timeouts) (settings : LockSettings) (context : String) :
    VaultSession × LockClient :=
  let world : World (Guarded Vault) Unit :=
    { site := { store := {} }, context, retryWait := t.connectionRetryWait }
  let r := world.draw
  let session : VaultSession := { world := r.1 }
  ((session.run vaultMachine (.errand (.ready (.registerOpen r.2)))).1,
    { client := .ofTimeouts r.2 t world.context, settings })

/-- The lock with a name. -/
def lock? (s : VaultSession) (name : String) : Option Lock :=
  (s.world.site.store.names.get? name).map (lockAt s.world)

/-- What an order comes to. -/
def obey (client : LockClient) (s : VaultSession) (order : VaultOrder) :
    VaultSession × (VaultResult ⊕ VaultCall) :=
  let vault := s.world.site.store
  let onLock := fun (name : String) (f : Nat → VaultCall) =>
    match vault.names.get? name with
    | some i => (s, (.inr (f i) : VaultResult ⊕ VaultCall))
    | none => (s, .inl .noLock)
  match order with
  | .make name resources =>
    match Lock.ofResources resources with
    | .error e => (s, .inl (.made (.error e)))
    | .ok l =>
      let r := addLock s.world l
      let s : VaultSession := { s with world := r.1 }
      (s.change fun v => { v with names := v.names.insert name r.2 }, .inl (.made (.ok l)))
  | .acquire name context => onLock name fun lock =>
      .acquire { client, context := some context, lock }
  | .release name context => onLock name fun lock => .release { client, context, lock }
  | .work resources peek bs cancel context =>
    (s, .inr (.work bs cancel peek { client, context := some context, phase := .entering resources }))
  | .online b => (s.change fun v => { v with network := v.network.setOnline b }, .inl .done)
  | .expire key => (s.change (·.expire key), .inl .done)
  | .put keys token ttl =>
    let r := vault.request (vault.acquire keys token ttl)
    (s.change fun _ => r.1, .inl (.acquired r.2))
  | .drop keys token =>
    let r := vault.request (vault.release keys token)
    (s.change fun _ => r.1, .inl (.released r.2))
  | .report => ({ s with world := s.world.report }, .inl .done)
  | .destroy => (s, .inr (.errand (.ready (.removeAll true))))

end VaultSession

end Reconnect.Rehearsal
