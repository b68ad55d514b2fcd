import Reconnect.Proofs.Rehearsal.Strides

/-!
# Tenancies of locks

In a tenancy any number of calls on any number of locks are on their way over one store, and take
their steps in any order. Calls begin and are dropped at any time; beside them, the world may fade:
time passes, entries of the store are lost, contexts are canceled, the network fails and comes back
(`Fades`).

A tenancy also keeps book: of every grant that was ever made, of the tokens for which locks have
been left, and of the locks that were taken while a release that had read an older token was still
under way. `Moves` lists what one move can do to the world, the stances of the calls, and the books.
-/

namespace Reconnect.Rehearsal

open Cache

/-- What may happen to a world beside the calls on its locks: no entry comes to the store. -/
structure Fades (w w' : VaultWorld) : Prop where
  locks : w'.site.locks = w.site.locks
  drawn : w.drawn ≤ w'.drawn
  entries : w'.site.store.entries.entries ⊆ w.site.store.entries.entries

namespace Fades

theorem of_quiet {w w' : VaultWorld} (h : Quiet w w') : Fades w w' :=
  ⟨h.locks, Nat.le_of_eq h.drawn.symm, h.entries⟩

theorem cancel (w : VaultWorld) (context : String) : Fades w (w.cancel context) :=
  of_quiet (.cancel w context)

theorem setClock (w : VaultWorld) (t : Millis) : Fades w (w.setClock t) :=
  ⟨rfl, Nat.le_refl _, List.Subset.refl _⟩

/-- An outage, a return of the network and the passing of time on the wall clock. -/
theorem network (w : VaultWorld) (n : Network) : Fades w (withNetwork w n) :=
  ⟨rfl, Nat.le_refl _, List.Subset.refl _⟩

theorem expire (w : VaultWorld) (key : String) :
    Fades w (withStore w (w.site.store.expire key)) where
  locks := rfl
  drawn := Nat.le_refl _
  entries := List.Subset.trans (Table.entries_erase_subset w.site.store.live)
    w.site.store.entries_live_subset

theorem draw (w : VaultWorld) : Fades w w.draw.1 :=
  ⟨rfl, Nat.le_succ _, List.Subset.refl _⟩

theorem release (w : VaultWorld) (keys : List String) (token : String) :
    Fades w (withStore w (w.site.store.release keys token).1) :=
  ⟨rfl, Nat.le_refl _, w.site.store.entries_release_subset keys token⟩

theorem lockAt {w w' : VaultWorld} (h : Fades w w') (i : Nat) :
    Cache.lockAt w' i = Cache.lockAt w i := by
  unfold Cache.lockAt
  rw [h.locks]

end Fades

namespace Stance

/-- The token that a call is about to have written. -/
def token? : Stance → Option String
  | .offering _ token _ => some token
  | _ => none

/-- The lock that a call is about to acquire. -/
def wanted? : Stance → Option Nat
  | .entering lock | .offering lock _ _ => some lock
  | _ => none

/-- Whether a call is about to have a token of a lock dropped. -/
def drops (lock : Nat) : Stance → Bool
  | .dropping i _ => i == lock
  | _ => false

/-- Whether a call can begin in a stance, in a world with a number of locks. -/
def isFirst (locks : Nat) : Stance → Bool
  | .nothing | .reading _ => true
  | .entering lock => lock < locks
  | .offering _ _ _ | .dropping _ _ => false

end Stance

/-- What is written down of the calls on locks. -/
structure Books where
  /-- Every grant that was ever made. -/
  grants : List Grant := []
  /-- The tokens for which releases have left their locks. -/
  left : List String := []
  /-- The locks that were taken while a release of theirs was about to have a token dropped. -/
  clashes : List Nat := []

/-- Calls on locks that are on their way over one store. -/
structure Tenancy extends Books where
  world : VaultWorld
  calls : List VaultCall := []

namespace Tenancy

/-- What can happen next. -/
inductive Move where
  /-- A lock over some resources is made. -/
  | make (resources : List String)
  /-- A call begins. -/
  | begin (call : VaultCall)
  /-- The call in a place takes a step. -/
  | go (place : Nat) (opens : Bool)
  /-- The call in a place is dropped. -/
  | drop (place : Nat)
  /-- The world fades. -/
  | fade (f : VaultWorld → VaultWorld) (hf : ∀ w, Fades w (f w))

/-- What the calls are about to do. -/
def stances (y : Tenancy) : List Stance := y.calls.map VaultCall.stance

/-- Whether a release is about to have a token of a lock dropped. -/
def isBeingLeft (y : Tenancy) (lock : Nat) : Bool := y.stances.any (Stance.drops lock)

/-- The tenancy after a step of a call that stood between `before` and `behind`. -/
def advance (y : Tenancy) (before : List VaultCall) (call : VaultCall) (behind : List VaultCall)
    (opens : Bool) : Tenancy :=
  let r := vaultMachine.step y.world opens call
  let granted := call.granted y.world opens
  { world := r.1
    calls := before ++ r.2.state?.toList ++ behind
    grants := granted ++ y.grants
    left := call.left y.world opens ++ y.left
    clashes := (granted.map Grant.lock).filter y.isBeingLeft ++ y.clashes }

/-- One move. A move that is not possible changes nothing. -/
def step (y : Tenancy) : Move → Tenancy
  | .make resources => { y with world := (addLock y.world { resources }).1 }
  | .begin call =>
    if call.stance.isFirst y.world.site.locks.length then { y with calls := y.calls ++ [call] }
    else y
  | .go place opens =>
    match y.calls[place]? with
    | none => y
    | some call => y.advance (y.calls.take place) call (y.calls.drop (place + 1)) opens
  | .drop place => { y with calls := y.calls.eraseIdx place }
  | .fade f _ => { y with world := f y.world }

/-- A tenancy in a world without locks, over an empty store. -/
def start (w : VaultWorld) : Tenancy :=
  { world := withStore { w with site := { w.site with locks := [] } }
      { w.site.store with entries := .empty } }

/-- The tenancy that a list of moves leads to. -/
def run (w : VaultWorld) (moves : List Move) : Tenancy := moves.foldl step (start w)

/-! ## What one move does -/

/-- What a move makes of a tenancy. -/
inductive Moves (y y' : Tenancy) : Prop
  /-- The world fades, and calls may be dropped. -/
  | fades (hw : Fades y.world y'.world) (hs : y'.stances.Sublist y.stances)
      (hb : y'.toBooks = y.toBooks)
  | makes {resources : List String} (hw : y'.world = (addLock y.world { resources }).1)
      (hs : y'.stances = y.stances) (hb : y'.toBooks = y.toBooks)
  | begins {stance : Stance} (hf : stance.isFirst y.world.site.locks.length = true)
      (hw : y'.world = y.world) (hs : y'.stances = y.stances ++ [stance])
      (hb : y'.toBooks = y.toBooks)
  /-- A call strides from one stance to the next, beside the others. -/
  | strides {stance : Stance} {next : Option Stance} {others : List Stance}
      {granted : List Grant} {left : List String} (hs : y.stances.Perm (stance :: others))
      (hs' : y'.stances.Perm (next.toList ++ others))
      (hw : Strides y.world stance y'.world next granted left)
      (hb : y'.toBooks = {
        grants := granted ++ y.grants
        left := left ++ y.left
        clashes := (granted.map Grant.lock).filter y.isBeingLeft ++ y.clashes })

/-- A step of a call is a stride. -/
theorem moves_advance {y : Tenancy} {before behind : List VaultCall} {call : VaultCall}
    (h : y.calls = before ++ call :: behind) (opens : Bool) :
    Moves y (y.advance before call behind opens) := by
  have hs : y.stances.Perm
      (call.stance :: (before.map VaultCall.stance ++ behind.map VaultCall.stance)) := by
    rw [stances, h, List.map_append, List.map_cons]
    exact List.perm_middle
  refine .strides hs ?_ (call.strides_step y.world opens) rfl
  simp only [advance, stances, List.map_append]
  refine (List.perm_append_comm.append_right _).trans ?_
  rw [List.append_assoc]
  cases (vaultMachine.step y.world opens call).2.state? <;> exact .refl _

theorem moves_step (y : Tenancy) (m : Move) : Moves y (y.step m) := by
  have hstay : Moves y y := .fades (.of_quiet (.refl y.world)) (List.Sublist.refl _) rfl
  cases m with
  | make resources => exact .makes rfl rfl rfl
  | begin call =>
    rw [step]
    split
    case isTrue hf => exact .begins hf rfl List.map_append rfl
    case isFalse => exact hstay
  | go place opens =>
    rw [step]
    split
    case h_1 => exact hstay
    case h_2 call hc =>
      obtain ⟨hlt, rfl⟩ := List.getElem?_eq_some_iff.1 hc
      refine moves_advance ?_ opens
      rw [List.getElem_cons_drop, List.take_append_drop]
  | drop place =>
    refine .fades (.of_quiet (.refl y.world)) ?_ rfl
    exact (List.eraseIdx_sublist y.calls place).map VaultCall.stance
  | fade f hf => exact .fades (hf y.world) (List.Sublist.refl _) rfl

/-- What every move keeps holds in every tenancy. -/
theorem run_induction {P : Tenancy → Prop} {w : VaultWorld} (moves : List Move)
    (hs : P (start w)) (hm : ∀ y y', P y → Moves y y' → P y') : P (run w moves) :=
  List.foldlRecOn moves step hs fun y h m _ => hm y (y.step m) h (y.moves_step m)

/-! ## A world with one client -/

/-- A client that tries again after ten milliseconds. -/
def soleClient : LockClient := { client := ⟨⟨0⟩, 1000, 1000, 10, "root"⟩, settings := {} }

/-- A world in which only this client is registered, with a connection. -/
def soleWorld : VaultWorld :=
  { site := { store := {} }, supervisor := Supervisor.enroll {} soleClient.client.id (some ()) }

/-- The client begins to acquire a lock. -/
def Move.acquire (lock : Nat) : Move :=
  .begin (.acquire { client := soleClient, context := none, lock })

/-- The client begins to release a lock. -/
def Move.release (lock : Nat) : Move :=
  .begin (.release { client := soleClient, context := none, lock })

/-- The supervisor changes what the client has for a connection. -/
def Move.connect (slot : Option Unit) : Move :=
  .fade (fun w => { w with supervisor := w.supervisor.setSlot soleClient.client.id slot })
    fun _ => ⟨rfl, Nat.le_refl _, List.Subset.refl _⟩

/-- The clock reaches a time. -/
def Move.wait (t : Millis) : Move := .fade _ fun w => .setClock w t

/-- The call in a place takes a number of steps. -/
def goes (place n : Nat) : List Move := List.replicate n (.go place true)

end Tenancy

end Reconnect.Rehearsal
