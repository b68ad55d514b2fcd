import Reconnect.Proofs.Cache.LockCall
import Reconnect.Proofs.Rehearsal.Vault
import Reconnect.Proofs.Schedule.Errand

/-!
# Steps that leave the locks and their keys alone

A step is `Quiet` if nothing happens to the locks and every key holds what it held. Whatever the
supervisor does is quiet, and so is work under locks. An attempt to have a token written or dropped
is quiet, unless it succeeds (`quiet_or_granted`, `quiet_or_dropped`).
-/

namespace Reconnect.Rehearsal

open Cache

/-- A world with a store of locks. -/
abbrev VaultWorld := World (Guarded Vault) Unit

/-- The world with another store. -/
def withStore (w : VaultWorld) (v : Vault) : VaultWorld :=
  { w with site := { w.site with store := v } }

/-- The world with another network. -/
def withNetwork (w : VaultWorld) (n : Network) : VaultWorld :=
  { w with site := { w.site with store := { w.site.store with network := n } } }

/-- Nothing has happened to the locks, and no key holds anything else. -/
structure Quiet (w w' : VaultWorld) : Prop where
  locks : w'.site.locks = w.site.locks
  drawn : w'.drawn = w.drawn
  wall : w'.site.store.network.wall = w.site.store.network.wall
  held : ∀ key, w'.site.store.held? key = w.site.store.held? key
  /-- No entry has come to the store. -/
  entries : w'.site.store.entries.entries ⊆ w.site.store.entries.entries

namespace Quiet

theorem refl (w : VaultWorld) : Quiet w w := ⟨rfl, rfl, rfl, fun _ => rfl, List.Subset.refl _⟩

theorem trans {w w' w'' : VaultWorld} (h : Quiet w w') (h' : Quiet w' w'') : Quiet w w'' :=
  ⟨h'.locks.trans h.locks, h'.drawn.trans h.drawn, h'.wall.trans h.wall,
    fun key => (h'.held key).trans (h.held key), List.Subset.trans h'.entries h.entries⟩

theorem lockAt {w w' : VaultWorld} (h : Quiet w w') (i : Nat) :
    Cache.lockAt w' i = Cache.lockAt w i := by
  unfold Cache.lockAt
  rw [h.locks]

theorem held_of_entries {v v' : Vault} (he : v'.entries = v.entries)
    (hw : v'.network.wall = v.network.wall) (key : String) : v'.held? key = v.held? key := by
  unfold Vault.held? Vault.live
  rw [he, hw]

/-- What the supervisor does at a site leaves the entries and the locks there as they are. -/
theorem used {g g' : Guarded Vault} (h : Used g g') :
    g'.store.entries = g.store.entries ∧ g'.locks = g.locks ∧
      g'.store.network.wall = g.store.network.wall := by
  induction h with
  | refl => exact ⟨rfl, rfl, rfl⟩
  | dial _ ih => exact ih
  | connect _ ih => exact ih
  | ping _ _ ih => exact ih
  | close _ _ ih => exact ih
  | shut _ ih => exact ih

/-- Whatever the supervisor does is quiet. -/
theorem touches {w w' : VaultWorld} (h : Touches w w') : Quiet w w' := by
  obtain ⟨he, hl, hw⟩ := used h.used
  have hd : w'.drawn = w.drawn := by rw [h.rest]
  refine ⟨hl, hd, hw, held_of_entries he hw, ?_⟩
  rw [he]
  exact List.Subset.refl _

theorem report (w : VaultWorld) : Quiet w w.report := touches (Touches.refl w).report

theorem cancel (w : VaultWorld) (context : String) : Quiet w (w.cancel context) := by
  rw [World.cancel]
  split
  · exact refl w
  · exact ⟨rfl, rfl, rfl, fun _ => rfl, List.Subset.refl _⟩

theorem roll (w : VaultWorld) : Quiet w w.roll.1 := ⟨rfl, rfl, rfl, fun _ => rfl, List.Subset.refl _⟩

/-- A store that has forgotten what is over is quiet. -/
theorem forget (w : VaultWorld) :
    Quiet w (withStore w { w.site.store with entries := w.site.store.live }) :=
  ⟨rfl, rfl, rfl, fun key => congrArg (Table.get? · key) w.site.store.filter_live,
    w.site.store.entries_live_subset⟩

/-- An execution is quiet if the steps of its operation are. -/
theorem execution {K α : Type} {op : Operation VaultWorld Unit K α} {w w' : VaultWorld}
    {opens : Bool} {e : Execution K} {s : Step (Execution K) (Execution.Outcome α)}
    (hop : ∀ w state, Quiet w (op.step w state).1) (h : e.Goes op w opens w' s) :
    Quiet w w' := by
  have hstep : ∀ {state w₁ s₁}, op.step w state = (w₁, s₁) → Quiet w w₁ := by
    intro state w₁ s₁ hs
    have hq := hop w state
    rw [hs] at hq
    exact hq
  cases h with
  | canceled => exact refl w
  | enter => exact refl w
  | works _ h =>
    cases h with
    | detached => exact refl w
    | connect => exact refl w
    | miss => exact refl w
    | workWaits _ hs => exact hstep hs
    | workMoves _ hs => exact hstep hs
    | succeed _ hs => exact hstep hs
    | retry _ hs => exact (hstep hs).trans (report _)
    | refuse _ hs => exact hstep hs
    | wake => exact refl w
    | rest => exact refl w

/-- Work that a rehearsal can be told to do is quiet. -/
theorem vaultOperation (bs : List Behaviour) (cancels : Option String) (peek : List String)
    (w : VaultWorld) (state : Acting Unit) :
    Quiet w ((vaultOperation bs cancels peek).step w state).1 := by
  cases state with
  | acting n c b =>
    cases b with
    | inspect =>
      simp only [Rehearsal.vaultOperation, acting]
      split <;> exact refl w
    | canceling context rest => exact cancel w context
    | _ => exact refl w
  | pausing n c due b =>
    simp only [Rehearsal.vaultOperation, acting]
    split <;> exact refl w

end Quiet

/-! ## Offers and drops -/

/-- An offer that is not granted is quiet. -/
theorem quiet_offered {w : VaultWorld} {keys : List String} {token : String} {ttl : Millis}
    {v : Vault} {r : Except Fault Bool} (h : w.site.store.Offered keys token ttl v r)
    (hr : r ≠ .ok true) : Quiet w (withStore w v) := by
  cases h with
  | granted => exact absurd rfl hr
  | taken => exact .forget w
  | failed => exact .refl w

/-- An attempt to have a token written is quiet, or it succeeds and the token is written. -/
theorem quiet_or_granted {keys : List String} {token : String} {ttl : Millis} {w w' : VaultWorld}
    {opens : Bool} {e : Execution Unit} {s : Step (Execution Unit) (Execution.Outcome Bool)}
    (h : e.Goes (offer keys token ttl) w opens w' s) :
    (Quiet w w' ∧ ∀ n, s ≠ .ends ⟨n, .ok true⟩) ∨
      (∃ n, s = .ends ⟨n, .ok true⟩) ∧
        w' = withStore w (w.site.store.acquire keys token ttl).1 ∧
        w.site.store.Offered keys token ttl (w.site.store.acquire keys token ttl).1 (.ok true) := by
  have hoff := w.site.store.offered keys token ttl
  cases h.atOnce with
  | idle hs => exact .inl ⟨.refl w, fun n => hs n true⟩
  | @succeed _ granted _ hp hr =>
    obtain ⟨rfl, ha⟩ := Prod.mk.inj hr
    rw [ha] at hoff
    cases granted with
    | false => exact .inl ⟨quiet_offered hoff nofun, nofun⟩
    | true =>
      rcases w.site.store.keeper_acquire_cases keys token ttl with ⟨f, hacq⟩ | hacq <;>
        rw [hacq] at ha hoff ⊢
      · cases ha
      · exact .inr ⟨⟨e.attempts, rfl⟩, rfl, hoff⟩
  | retry hp hr hf =>
    obtain ⟨rfl, ha⟩ := Prod.mk.inj hr
    rw [ha] at hoff
    exact .inl ⟨(quiet_offered hoff nofun).trans (.report _), nofun⟩
  | refuse hp hr hf =>
    obtain ⟨rfl, ha⟩ := Prod.mk.inj hr
    rw [ha] at hoff
    exact .inl ⟨quiet_offered hoff nofun, nofun⟩

theorem quiet_of_offer {keys : List String} {token : String} {ttl : Millis} {w w' : VaultWorld}
    {opens : Bool} {e : Execution Unit} {s : Step (Execution Unit) (Execution.Outcome Bool)}
    (h : e.Goes (offer keys token ttl) w opens w' s) (hs : ∀ n, s ≠ .ends ⟨n, .ok true⟩) :
    Quiet w w' := by
  rcases quiet_or_granted h with ⟨hq, -⟩ | ⟨⟨n, hn⟩, -⟩
  · exact hq
  · exact absurd hn (hs n)

/-- An attempt to have a token dropped is quiet, or it succeeds and the store has dropped it. -/
theorem quiet_or_dropped {keys : List String} {token : String} {w w' : VaultWorld} {opens : Bool}
    {e : Execution Unit} {s : Step (Execution Unit) (Execution.Outcome Nat)}
    (h : e.Goes (dropping keys token) w opens w' s) :
    (Quiet w w' ∧ ∀ n dropped, s ≠ .ends ⟨n, .ok dropped⟩) ∨
      (∃ n, s = .ends ⟨n, .ok (w.site.store.release keys token).2⟩) ∧
        w' = withStore w (w.site.store.release keys token).1 := by
  have hrel := w.site.store.keeper_release_cases keys token
  cases h.atOnce with
  | idle hs => exact .inl ⟨.refl w, hs⟩
  | succeed hp hr =>
    obtain ⟨rfl, ha⟩ := Prod.mk.inj hr
    rcases hrel with ⟨f, hrel⟩ | hrel <;> rw [hrel] at ha ⊢
    · cases ha
    · cases ha
      exact .inr ⟨⟨e.attempts, rfl⟩, rfl⟩
  | retry hp hr hf =>
    obtain ⟨rfl, ha⟩ := Prod.mk.inj hr
    rcases hrel with ⟨f, hrel⟩ | hrel <;> rw [hrel] at ha ⊢
    · exact .inl ⟨.report w, nofun⟩
    · cases ha
  | refuse hp hr hf =>
    obtain ⟨rfl, ha⟩ := Prod.mk.inj hr
    rcases hrel with ⟨f, hrel⟩ | hrel <;> rw [hrel] at ha ⊢
    · exact .inl ⟨.refl w, nofun⟩
    · cases ha

theorem quiet_of_dropping {keys : List String} {token : String} {w w' : VaultWorld}
    {opens : Bool} {e : Execution Unit} {s : Step (Execution Unit) (Execution.Outcome Nat)}
    (h : e.Goes (dropping keys token) w opens w' s)
    (hs : ∀ n dropped, s ≠ .ends ⟨n, .ok dropped⟩) : Quiet w w' := by
  rcases quiet_or_dropped h with ⟨hq, -⟩ | ⟨⟨n, hn⟩, -⟩
  · exact hq
  · exact absurd hn (hs n _)

end Reconnect.Rehearsal
