import Reconnect.Proofs.Identifier
import Reconnect.Proofs.Rehearsal.Contest

/-!
# Locks exclude one another

In every contest, two locks that hold at the same time share no resource. The invariant is `Ledger`:
every grant whose time is not over has its token under all keys of its lock, and a token belongs to
one lock. Every call keeps the ledger, whatever the other calls and the world have done since its
last step.
-/

namespace Reconnect.Rehearsal

open Cache

/-- What is known of a world, the grants in it, and who owns which token. -/
structure Ledger (owns : String → Nat → Prop) (w : VaultWorld) (grants : List Grant) : Prop where
  /-- A token that is owned was drawn. -/
  drawn : ∀ token lock, owns token lock → ∃ n ≤ w.drawn, token = Identifier.text ⟨n⟩
  unique : ∀ token i j, owns token i → owns token j → i = j
  /-- A lock owns the token that it holds. -/
  locks : ∀ lock token, (lockAt w lock).token = some token → owns token lock
  granted : ∀ g ∈ grants, owns g.token g.lock ∧ g.lock < w.site.locks.length
  /-- The token of a grant is under all keys of the lock while its time is not over. -/
  written : ∀ g ∈ grants, w.site.store.network.wall < g.expiry →
    ∀ key ∈ (lockAt w g.lock).keys, w.site.store.held? key = some ⟨g.token, g.expiry⟩

theorem keys_of_resources {l l' : Lock} (h : l'.resources = l.resources) : l'.keys = l.keys := by
  rw [Lock.keys, Lock.keys, h]

namespace Ledger

variable {owns : String → Nat → Prop} {w w' : VaultWorld} {grants : List Grant}

/-- A drift keeps the ledger. -/
theorem drift (h : Ledger owns w grants) (hd : Drifts w w') : Ledger owns w' grants where
  drawn token lock ho := by
    obtain ⟨n, hn, ht⟩ := h.drawn token lock ho
    exact ⟨n, Nat.le_trans hn hd.drawn, ht⟩
  unique := h.unique
  locks lock token ht := h.locks lock token (hd.token lock token ht)
  granted g hg := ⟨(h.granted g hg).1, Nat.lt_of_lt_of_le (h.granted g hg).2 hd.length⟩
  written g hg hl key hk := by
    rw [keys_of_resources (hd.resources g.lock (h.granted g hg).2)] at hk
    -- the wall clock has not gone back, so the time of the grant was not over before either
    refine hd.kept key _ (h.written g hg ?_ key hk) hl
    exact Nat.lt_of_le_of_lt hd.wall hl

/-- A token that has just been drawn can be owned by any lock. -/
theorem issue (h : Ledger owns w grants) (hd : Drifts w w') (hn : w'.drawn = w.drawn + 1)
    (lock : Nat) :
    Ledger (fun t i => owns t i ∨ t = Identifier.text ⟨w.drawn + 1⟩ ∧ i = lock) w' grants := by
  have h' := h.drift hd
  -- the tokens that are owned were drawn before, and the numbers of draws differ
  have hfresh : ∀ i, ¬ owns (Identifier.text ⟨w.drawn + 1⟩) i := by
    intro i ho
    obtain ⟨n, hle, ht⟩ := h.drawn _ i ho
    have he : w.drawn + 1 = n := congrArg Identifier.number (Identifier.text_injective ht)
    omega
  constructor
  case drawn =>
    rintro token i (ho | ⟨rfl, -⟩)
    · exact h'.drawn token i ho
    · exact ⟨w.drawn + 1, Nat.le_of_eq hn.symm, rfl⟩
  case unique =>
    rintro token i j (hi | ⟨rfl, rfl⟩) (hj | ⟨he, rfl⟩)
    · exact h.unique token i j hi hj
    -- nobody owned the new token before
    · rw [he] at hi
      exact absurd hi (hfresh i)
    · exact absurd hj (hfresh j)
    · rfl
  case locks => exact fun i token ht => .inl (h'.locks i token ht)
  case granted => exact fun g hg => ⟨.inl (h'.granted g hg).1, (h'.granted g hg).2⟩
  case written => exact h'.written

/-- A lock whose token was written under its keys is granted that. -/
theorem grant (h : Ledger owns w grants) {lock : Nat} {token : String} {ttl : Millis} {v : Vault}
    (now : Millis) (hlock : lock < w.site.locks.length) (hown : owns token lock)
    (hf : ∀ key ∈ (lockAt w lock).keys, w.site.store.held? key = none)
    (hn : v.network = w.site.store.network)
    (hl : 0 < ttl → ∀ key ∈ (lockAt w lock).keys,
      v.held? key = some ⟨token, w.site.store.network.wall + ttl⟩)
    (ho : ∀ key, key ∉ (lockAt w lock).keys → v.held? key = w.site.store.held? key) :
    Ledger owns
      (changeLock { w with site := { w.site with store := v } } lock (Lock.take · token now))
      (⟨lock, token, w.site.store.network.wall + ttl⟩ :: grants) := by
  have hkeys : ∀ i, (lockAt (changeLock { w with site := { w.site with store := v } } lock
      (Lock.take · token now)) i).keys = (lockAt w i).keys := by
    intro i
    rw [lockAt_changeLock]
    split <;> rfl
  constructor
  case drawn => exact h.drawn
  case unique => exact h.unique
  case locks =>
    intro i t ht
    rw [lockAt_changeLock] at ht
    split at ht
    -- the lock that takes the token owns it
    case isTrue hi =>
      cases ht
      rw [← hi.1]
      exact hown
    case isFalse => exact h.locks i t ht
  case granted =>
    intro g hg
    rw [length_changeLock]
    rcases List.mem_cons.1 hg with rfl | hg
    · exact ⟨hown, hlock⟩
    · exact h.granted g hg
  case written =>
    intro g hg hlive key hk
    rw [hkeys] at hk
    change v.network.wall < g.expiry at hlive
    rw [hn] at hlive
    change v.held? key = some ⟨g.token, g.expiry⟩
    rcases List.mem_cons.1 hg with rfl | hg
    · exact hl (Nat.lt_add_right_iff_pos.1 hlive) key hk
    · -- the keys that were written held nothing, so this is none of them
      have hentry := h.written g hg hlive key hk
      rw [ho key, hentry]
      intro hmem
      rw [hf key hmem] at hentry
      cases hentry

/-- A lock that drops its token from its keys loses its grants of that token, and no other lock
loses any. -/
theorem drop (h : Ledger owns w grants) {lock : Nat} {token : String} {v : Vault} (now : Millis)
    (hown : owns token lock) (hn : v.network = w.site.store.network)
    (he : ∀ key e, w.site.store.held? key = some e → e.token ≠ token →
      v.held? key = some e) :
    Ledger owns
      (changeLock { w with site := { w.site with store := v } } lock (Lock.leave · now))
      (grants.filter fun g => !(g.lock == lock && g.token == token)) := by
  have hleft : Ledger owns { w with site := { w.site with store := v } }
      (grants.filter fun g => !(g.lock == lock && g.token == token)) := by
    constructor
    case drawn => exact h.drawn
    case unique => exact h.unique
    case locks => exact h.locks
    case granted => exact fun g hg => h.granted g (List.mem_filter.1 hg).1
    case written =>
      intro g hg hlive key hk
      change v.network.wall < g.expiry at hlive
      rw [hn] at hlive
      rw [List.mem_filter] at hg
      refine he key _ (h.written g hg.1 hlive key hk) fun ht => ?_
      -- a grant of the dropped token belongs to the lock that dropped it
      have hi := h.unique token g.lock lock (ht ▸ (h.granted g hg.1).1) hown
      change g.token = token at ht
      simp [hi, ht] at hg
  -- a lock that is left has no token
  refine hleft.drift (.changeLock _ lock (fun _ => rfl) ?_)
  intro l t ht
  cases ht

end Ledger

/-! ## One step of a call -/

/-- A step leads to a world with a ledger, and nobody has lost a token or a lock. `onward` says how
the call goes on. -/
def Ledger.Leads (owns : String → Nat → Prop) (w w' : VaultWorld) (grants : List Grant)
    (onward : (String → Nat → Prop) → Prop) : Prop :=
  ∃ owns', (∀ token lock, owns token lock → owns' token lock) ∧ Ledger owns' w' grants ∧
    w.site.locks.length ≤ w'.site.locks.length ∧ onward owns'

theorem Ledger.leads_of_drift {owns : String → Nat → Prop} {w w' : VaultWorld}
    {grants : List Grant} {onward : (String → Nat → Prop) → Prop} (h : Ledger owns w grants)
    (hd : Drifts w w') (ho : onward owns) : Ledger.Leads owns w w' grants onward :=
  ⟨owns, fun _ _ h => h, h.drift hd, hd.length, ho⟩

/-- It is enough to know how the call goes on with what is owned after the step. -/
theorem Ledger.Leads.imp {owns : String → Nat → Prop} {w w' : VaultWorld} {grants : List Grant}
    {onward onward' : (String → Nat → Prop) → Prop} (h : Ledger.Leads owns w w' grants onward)
    (ho : ∀ owns', onward owns' → onward' owns') : Ledger.Leads owns w w' grants onward' := by
  obtain ⟨owns', hle, hledger, hlen, hon⟩ := h
  exact ⟨owns', hle, hledger, hlen, ho owns' hon⟩

/-- A step of an acquisition keeps the ledger, with the token that it draws and what it is granted.
The acquisition goes on with a token of its own. -/
theorem Ledger.acquisition {owns : String → Nat → Prop} {w w' : VaultWorld}
    {grants : List Grant} (h : Ledger owns w grants) {opens : Bool} {a : Acquisition Unit}
    {s : Step (Acquisition Unit) (Except (LockError Fault) Unit)} (hg : a.Goes w opens w' s)
    (hlock : a.lock < w.site.locks.length) (hown : a.phase ≠ .entering → owns a.token a.lock) :
    Ledger.Leads owns w w' (grantsBy w a s ++ grants) fun owns' =>
      ∀ a', s.state? = some a' →
        a'.lock < w'.site.locks.length ∧ owns' a'.token a'.lock := by
  have hgiveUp : ∀ w₁ : VaultWorld, Drifts w₁ (changeLock w₁ a.lock Lock.giveUp) := fun w₁ =>
    .changeLock w₁ a.lock (fun _ => rfl) fun _ _ ht => ht
  have hbegin : Drifts w (changeLock w.draw.1 a.lock Lock.begin) :=
    (Drifts.draw w).trans (.changeLock _ a.lock (fun _ => rfl) fun _ _ ht => ht)
  have hgo : ∀ {w₁ phase}, Drifts w w₁ → a.phase ≠ .entering →
      ∀ a' : Acquisition Unit, some { a with phase } = some a' →
        a'.lock < w₁.site.locks.length ∧ owns a'.token a'.lock := by
    rintro w₁ phase hd hne a' ⟨⟩
    exact ⟨Nat.lt_of_lt_of_le hlock hd.length, hown hne⟩
  have hasking : ∀ {e}, a.phase = .asking e → a.phase ≠ .entering := by
    intro e hp
    rw [hp]
    exact nofun
  cases hg with
  | busy => exact h.leads_of_drift (.refl w) nofun
  | enterStopped => exact h.leads_of_drift (hbegin.trans (hgiveUp _)) nofun
  | enter =>
    -- the first turn of an acquisition draws its token
    refine ⟨_, fun _ _ => .inl, h.issue hbegin rfl a.lock, hbegin.length, ?_⟩
    rintro a' ⟨⟩
    exact ⟨Nat.lt_of_lt_of_le hlock hbegin.length, .inr ⟨rfl, rfl⟩⟩
  | stop => exact h.leads_of_drift (hgiveUp w) nofun
  | expire => exact h.leads_of_drift (hgiveUp w) nofun
  | ask hp => exact h.leads_of_drift (.refl w) (hgo (.refl w) (hp ▸ nofun))
  | askWaits hp _ he =>
    have hd := Drifts.of_quiet (quiet_of_offer he nofun)
    exact h.leads_of_drift hd (hgo hd (hasking hp))
  | askMoves hp _ he =>
    have hd := Drifts.of_quiet (quiet_of_offer he nofun)
    exact h.leads_of_drift hd (hgo hd (hasking hp))
  | take hp _ he =>
    -- the turn that takes the lock is the one whose offer is granted
    rcases quiet_or_granted he with ⟨-, hs⟩ | ⟨-, rfl, ho⟩
    · exact absurd rfl (hs _)
    · generalize (w.site.store.acquire (lockAt w a.lock).keys a.token a.client.settings.ttl).1 = v
        at ho ⊢
      cases ho with
      | granted hf hn _ hl ho =>
        have hledger := h.grant w.now hlock (hown (hasking hp)) hf hn hl ho
        refine ⟨owns, fun _ _ h => h, hledger, ?_, nofun⟩
        rw [length_changeLock]
        exact Nat.le_refl _
  | takeNot hp _ he =>
    have hd := Drifts.of_quiet ((quiet_of_offer he fun n => by simp).trans (.roll _))
    exact h.leads_of_drift hd (hgo hd (hasking hp))
  | outOfTime hp _ he =>
    have hd := Drifts.of_quiet (quiet_of_offer he fun n => by simp)
    exact h.leads_of_drift (hd.trans (hgiveUp _)) nofun
  | askFailed hp _ he =>
    have hd := Drifts.of_quiet (quiet_of_offer he fun n => by simp)
    exact h.leads_of_drift (hd.trans (hgiveUp _)) nofun
  | wake hp => exact h.leads_of_drift (.refl w) (hgo (.refl w) (hp ▸ nofun))
  | rest hp => exact h.leads_of_drift (.refl w) (hgo (.refl w) (hp ▸ nofun))

/-- A step of a release keeps the ledger, without the grants whose token it drops. -/
theorem Ledger.release {owns : String → Nat → Prop} {w w' : VaultWorld}
    {grants : List Grant} (h : Ledger owns w grants) {opens : Bool} {r : Release Unit}
    {s : Step (Release Unit) (Except (LockError Fault) Unit)} (hg : r.Goes w opens w' s)
    (hown : ∀ token e, r.phase = .asking token e → owns token r.lock) :
    Ledger.Leads owns w w' (grants.filter fun g => !dropsBy r s g) fun owns' =>
      ∀ r', s.state? = some r' →
        ∀ token e, r'.phase = .asking token e → owns' token r'.lock := by
  have hkeep : (∀ g, dropsBy r s g = false) →
      (grants.filter fun g => !dropsBy r s g) = grants := by
    intro hd
    rw [List.filter_eq_self]
    intro g _
    rw [hd g]
    rfl
  cases hg with
  | stop =>
    rw [hkeep fun g => by simp [dropsBy]]
    exact h.leads_of_drift (.refl w) nofun
  | notHeld hp =>
    rw [hkeep fun g => by simp [dropsBy, hp]]
    exact h.leads_of_drift (.refl w) nofun
  | @enter token hp hc hh =>
    rw [hkeep fun g => by simp [dropsBy, hp]]
    apply h.leads_of_drift (.refl w)
    rintro r' ⟨⟩ token' e ⟨⟩
    exact h.locks r.lock token (Lock.token_of_held hh)
  | askWaits hp _ he =>
    rw [hkeep fun g => by simp [dropsBy, hp]]
    apply h.leads_of_drift (.of_quiet (quiet_of_dropping he nofun))
    rintro r' ⟨⟩ token' e ⟨⟩
    exact hown _ _ hp
  | askMoves hp _ he =>
    rw [hkeep fun g => by simp [dropsBy, hp]]
    apply h.leads_of_drift (.of_quiet (quiet_of_dropping he nofun))
    rintro r' ⟨⟩ token' e ⟨⟩
    exact hown _ _ hp
  | @leave token _ _ _ _ hp _ he =>
    -- the turn that leaves the lock is the one that deletes its keys
    rcases quiet_or_dropped he with ⟨-, hs⟩ | ⟨-, rfl⟩
    · exact absurd rfl (hs _ _)
    · have hledger := h.drop (v := (w.site.store.release (lockAt w r.lock).keys token).1) w.now
        (hown _ _ hp) rfl fun _ _ => w.site.store.held?_release_of_ne (lockAt w r.lock).keys token
      refine ⟨owns, fun _ _ h => h, ?_, ?_, nofun⟩
      · simp only [dropsBy, hp]
        exact hledger
      · rw [length_changeLock]
        exact Nat.le_refl _
  | askFailed hp _ he =>
    rw [hkeep fun g => by simp [dropsBy]]
    exact h.leads_of_drift (.of_quiet (quiet_of_dropping he fun n dropped => by simp)) nofun

/-- A call on a lock in a world: an acquisition has a token of its own once it has begun, and a
release asks for a token of its lock. -/
structure VaultCall.Fits (owns : String → Nat → Prop) (w : VaultWorld) (call : VaultCall) :
    Prop where
  acquisition : ∀ a, call.acquisition? = some a →
    a.lock < w.site.locks.length ∧ (a.phase ≠ .entering → owns a.token a.lock)
  release : ∀ r, call.release? = some r →
    ∀ token e, r.phase = .asking token e → owns token r.lock

theorem VaultCall.Fits.later {owns owns' : String → Nat → Prop} {w w' : VaultWorld}
    {call : VaultCall} (h : call.Fits owns w)
    (ho : ∀ token lock, owns token lock → owns' token lock)
    (hl : w.site.locks.length ≤ w'.site.locks.length) : call.Fits owns' w' where
  acquisition a ha :=
    ⟨Nat.lt_of_lt_of_le (h.acquisition a ha).1 hl, fun hp => ho _ _ ((h.acquisition a ha).2 hp)⟩
  release r hr token e hp := ho _ _ (h.release r hr token e hp)

namespace VaultCall.Fits

variable {owns : String → Nat → Prop} {w : VaultWorld} {call : VaultCall}

theorem of_none (ha : call.acquisition? = none) (hr : call.release? = none) :
    call.Fits owns w where
  acquisition a h := by
    rw [ha] at h
    cases h
  release r h := by
    rw [hr] at h
    cases h

theorem of_acquisition {a : Acquisition Unit} (ha : call.acquisition? = some a)
    (hr : call.release? = none) (h : a.lock < w.site.locks.length ∧ owns a.token a.lock) :
    call.Fits owns w where
  acquisition a' h' := by
    rw [ha] at h'
    cases h'
    exact ⟨h.1, fun _ => h.2⟩
  release r h' := by
    rw [hr] at h'
    cases h'

theorem of_release {r : Release Unit} (ha : call.acquisition? = none)
    (hr : call.release? = some r)
    (h : ∀ token e, r.phase = .asking token e → owns token r.lock) : call.Fits owns w where
  acquisition a h' := by
    rw [ha] at h'
    cases h'
  release r' h' := by
    rw [hr] at h'
    cases h'
    exact h

end VaultCall.Fits

/-- A step of work under locks keeps the ledger. -/
theorem Ledger.work {owns : String → Nat → Prop} {w : VaultWorld} {grants : List Grant}
    (h : Ledger owns w grants) (opens : Bool) (bs : List Behaviour) (cancel : Option String)
    (peek : List String) {g : GuardedWork Unit (Acting Unit) (List (Option String))}
    (hf : (VaultCall.work bs cancel peek g).Fits owns w) :
    Ledger.Leads owns w (g.step (vaultOperation bs cancel peek) w opens).1
      ((VaultCall.work bs cancel peek g).settle w opens grants) fun owns' =>
        ∀ g', (g.step (vaultOperation bs cancel peek) w opens).2.state? = some g' →
          (VaultCall.work bs cancel peek g').Fits owns'
            (g.step (vaultOperation bs cancel peek) w opens).1 := by
  obtain ⟨client, context, phase⟩ := g
  cases phase with
  | entering resources =>
    -- a lock of its own is made for the work; it has no token
    simp only [GuardedWork.step]
    cases hl : Lock.ofResources resources with
    | error err =>
      apply h.leads_of_drift (.refl w)
      rintro _ ⟨⟩
    | ok l =>
      have htoken : l.token = none := by
        unfold Lock.ofResources at hl
        split at hl
        · cases hl
        · cases hl
          rfl
      apply h.leads_of_drift (.addLock w l htoken)
      rintro g' ⟨⟩
      constructor
      · rintro a ⟨⟩
        refine ⟨?_, fun hp => absurd rfl hp⟩
        simp [addLock]
      · rintro r ⟨⟩
  | acquiring a =>
    have ha := hf.acquisition a rfl
    have hleads := h.acquisition (a.goes_step w opens) ha.1 ha.2
    simp only [GuardedWork.step, VaultCall.settle, VaultCall.acquisition?]
    generalize a.step w opens = r at hleads ⊢
    rcases r with ⟨w', a' | a' | (err | _)⟩
    · apply hleads.imp
      rintro owns' hon g' ⟨⟩
      exact .of_acquisition rfl rfl (hon a' rfl)
    · apply hleads.imp
      rintro owns' hon g' ⟨⟩
      exact .of_acquisition rfl rfl (hon a' rfl)
    · apply hleads.imp
      rintro owns' - _ ⟨⟩
    · apply hleads.imp
      rintro owns' - g' ⟨⟩
      exact .of_none rfl rfl
  | working lock e =>
    -- whatever is done under the lock is a drift
    have hd := Drifts.of_quiet (.execution (.vaultOperation bs cancel peek)
      (e.goes_step (vaultOperation bs cancel peek) w opens))
    simp only [GuardedWork.step, VaultCall.settle, VaultCall.acquisition?, VaultCall.release?]
    generalize e.step (vaultOperation bs cancel peek) w opens = r at hd ⊢
    rcases r with ⟨w', e' | e' | o⟩
    · apply h.leads_of_drift hd
      rintro g' ⟨⟩
      exact .of_none rfl rfl
    · apply h.leads_of_drift hd
      rintro g' ⟨⟩
      exact .of_none rfl rfl
    · apply h.leads_of_drift hd
      rintro g' ⟨⟩
      apply VaultCall.Fits.of_release rfl rfl
      rintro token e ⟨⟩
  | releasing r o =>
    have hleads := h.release (r.goes_step w opens) (hf.release r rfl)
    simp only [GuardedWork.step, VaultCall.settle, VaultCall.acquisition?, VaultCall.release?]
    generalize r.step w opens = t at hleads ⊢
    rcases t with ⟨w', r' | r' | _⟩
    · apply hleads.imp
      rintro owns' hon g' ⟨⟩
      exact .of_release rfl rfl (hon r' rfl)
    · apply hleads.imp
      rintro owns' hon g' ⟨⟩
      exact .of_release rfl rfl (hon r' rfl)
    · apply hleads.imp
      rintro owns' - _ ⟨⟩

/-- A step of a call keeps the ledger. -/
theorem Ledger.call {owns : String → Nat → Prop} {w : VaultWorld} {grants : List Grant}
    (h : Ledger owns w grants) (opens : Bool) {call : VaultCall} (hf : call.Fits owns w) :
    Ledger.Leads owns w (vaultMachine.step w opens call).1 (call.settle w opens grants)
      fun owns' => ∀ call', (vaultMachine.step w opens call).2.state? = some call' →
        call'.Fits owns' (vaultMachine.step w opens call).1 := by
  cases call with
  | errand e =>
    have hd := Drifts.of_quiet (.touches (e.step_touches w))
    simp only [vaultMachine, VaultCall.settle, VaultCall.acquisition?, VaultCall.release?]
    generalize e.step w = r at hd ⊢
    rcases r with ⟨w', e' | e' | _⟩
    · exact h.leads_of_drift hd fun _ hc => Option.some.inj hc ▸ .of_none rfl rfl
    · exact h.leads_of_drift hd fun _ hc => Option.some.inj hc ▸ .of_none rfl rfl
    · apply h.leads_of_drift hd
      rintro _ ⟨⟩
  | acquire a =>
    have ha := hf.acquisition a rfl
    have hleads := h.acquisition (a.goes_step w opens) ha.1 ha.2
    simp only [vaultMachine, VaultCall.settle, VaultCall.acquisition?]
    generalize a.step w opens = r at hleads ⊢
    rcases r with ⟨w', a' | a' | _⟩
    · apply hleads.imp
      rintro owns' hon call' ⟨⟩
      exact .of_acquisition rfl rfl (hon a' rfl)
    · apply hleads.imp
      rintro owns' hon call' ⟨⟩
      exact .of_acquisition rfl rfl (hon a' rfl)
    · apply hleads.imp
      rintro owns' - _ ⟨⟩
  | release r =>
    have hleads := h.release (r.goes_step w opens) (hf.release r rfl)
    simp only [vaultMachine, VaultCall.settle, VaultCall.acquisition?, VaultCall.release?]
    generalize r.step w opens = t at hleads ⊢
    rcases t with ⟨w', r' | r' | _⟩
    · apply hleads.imp
      rintro owns' hon call' ⟨⟩
      exact .of_release rfl rfl (hon r' rfl)
    · apply hleads.imp
      rintro owns' hon call' ⟨⟩
      exact .of_release rfl rfl (hon r' rfl)
    · apply hleads.imp
      rintro owns' - _ ⟨⟩
  | work bs cancel peek g =>
    have hleads := h.work opens bs cancel peek hf
    simp only [vaultMachine]
    generalize g.step (vaultOperation bs cancel peek) w opens = r at hleads ⊢
    rcases r with ⟨w', g' | g' | _⟩
    · apply hleads.imp
      rintro owns' hon call' ⟨⟩
      exact hon g' rfl
    · apply hleads.imp
      rintro owns' hon call' ⟨⟩
      exact hon g' rfl
    · apply hleads.imp
      rintro owns' - _ ⟨⟩

/-! ## Mutual exclusion -/

namespace Contest

/-- The world and the grants of a contest have a ledger, and the calls fit to it. -/
def Sound (y : Contest) : Prop :=
  ∃ owns, Ledger owns y.world y.grants ∧ ∀ call ∈ y.calls, call.Fits owns y.world

theorem Sound.begin {y : Contest} (h : y.Sound) {call : VaultCall}
    (hf : ∀ owns, call.Fits owns y.world) : (y.begin call).Sound := by
  obtain ⟨owns, hledger, hcalls⟩ := h
  refine ⟨owns, hledger, fun call' hc => ?_⟩
  rcases List.mem_append.1 hc with hc | hc
  · exact hcalls call' hc
  · rw [List.mem_singleton.1 hc]
    exact hf owns

theorem Sound.drift {y : Contest} (h : y.Sound) {w' : VaultWorld} (hd : Drifts y.world w') :
    ({ y with world := w' } : Contest).Sound := by
  obtain ⟨owns, hledger, hcalls⟩ := h
  exact ⟨owns, hledger.drift hd, fun call hc => (hcalls call hc).later (fun _ _ h => h) hd.length⟩

theorem Sound.advance {y : Contest} (h : y.Sound) {before behind : List VaultCall}
    {call : VaultCall} (hc : y.calls = before ++ call :: behind) (opens : Bool) :
    (y.advance before call behind opens).Sound := by
  obtain ⟨owns, hledger, hcalls⟩ := h
  rw [hc] at hcalls
  obtain ⟨owns', hle, hledger', hlen, hon⟩ :=
    hledger.call opens (hcalls call (List.mem_append_right before List.mem_cons_self))
  refine ⟨owns', hledger', fun call' hc' => ?_⟩
  -- the call that took the step fits by its step lemma, the others as they did before
  rw [Contest.advance, List.mem_append, List.mem_append, Option.mem_toList] at hc'
  rcases hc' with (hc' | hc') | hc'
  · exact (hcalls call' (List.mem_append_left _ hc')).later hle hlen
  · exact hon call' hc'
  · refine (hcalls call' (List.mem_append_right _ ?_)).later hle hlen
    exact List.mem_cons_of_mem call hc'

theorem Sound.step {y : Contest} (h : y.Sound) (m : Move) : (y.step m).Sound := by
  cases m with
  | make resources => exact h.drift (.addLock y.world _ rfl)
  | acquire client context lock =>
    rw [Contest.step]
    split
    case isTrue hl =>
      refine h.begin fun owns => ⟨?_, nofun⟩
      rintro a ⟨⟩
      exact ⟨hl, fun hp => absurd rfl hp⟩
    case isFalse => exact h
  | release client context lock => exact h.begin fun owns => .of_release rfl rfl nofun
  | work client context resources bs cancels peek =>
    exact h.begin fun owns => .of_none rfl rfl
  | go place opens =>
    rw [Contest.step]
    split
    case h_1 => exact h
    case h_2 call hc =>
      obtain ⟨hlt, rfl⟩ := List.getElem?_eq_some_iff.1 hc
      refine h.advance ?_ opens
      rw [List.getElem_cons_drop, List.take_append_drop]
  | drop place =>
    obtain ⟨owns, hledger, hcalls⟩ := h
    exact ⟨owns, hledger, fun call hc => hcalls call (List.mem_of_mem_eraseIdx hc)⟩
  | drift f hf => exact h.drift (hf y.world)

/-- Nobody owns a token in a world without locks. -/
theorem sound_start (w : VaultWorld) : (start w).Sound := by
  refine ⟨fun _ _ => False, ⟨?_, ?_, ?_, ?_, ?_⟩, ?_⟩
  · rintro _ _ ⟨⟩
  · rintro _ _ _ ⟨⟩
  · intro lock token ht
    change (default : Lock).token = some token at ht
    cases ht
  · rintro _ ⟨⟩
  · rintro _ ⟨⟩
  · rintro _ ⟨⟩

theorem sound_run (w : VaultWorld) (moves : List Move) : (run w moves).Sound :=
  List.foldlRecOn moves Contest.step (sound_start w) fun _ h m _ => h.step m

/-- What holds at every moment of a contest. -/
structure Exclusive (y : Contest) : Prop where
  /-- Two locks that hold share no resource. -/
  exclusive : ∀ i j, i ≠ j → y.Holds i → y.Holds j →
    ∀ resource ∈ (lockAt y.world i).resources, resource ∉ (lockAt y.world j).resources
  /-- While the time of a grant is not over, its token is under all keys of the lock. -/
  backed : ∀ g ∈ y.grants, y.world.site.store.network.wall < g.expiry →
    ∀ key ∈ (lockAt y.world g.lock).keys,
      y.world.site.store.held? key = some ⟨g.token, g.expiry⟩
  /-- An offer of a token to the store is all or nothing. -/
  offered : ∀ keys token ttl,
    y.world.site.store.Offered keys token ttl
      (Keeper.acquire y.world.site.store () keys token ttl).1
      (Keeper.acquire y.world.site.store () keys token ttl).2

/-- Locks exclude one another, whatever the moves. -/
theorem exclusive_run (w : VaultWorld) (moves : List Move) : (run w moves).Exclusive := by
  obtain ⟨owns, h, -⟩ := sound_run w moves
  constructor
  case exclusive =>
    rintro i j hne ⟨g, hg, rfl, hlive⟩ ⟨g', hg', rfl, hlive'⟩ resource hi hj
    -- a shared resource has one entry, so both grants have its token, which belongs to one lock
    have hentry := h.written g hg hlive (lockKey resource) (List.mem_map_of_mem hi)
    have hentry' := h.written g' hg' hlive' (lockKey resource) (List.mem_map_of_mem hj)
    rw [hentry, Option.some.injEq, VaultEntry.mk.injEq] at hentry'
    refine hne (h.unique g.token g.lock g'.lock (h.granted g hg).1 ?_)
    rw [hentry'.1]
    exact (h.granted g' hg').1
  case backed => exact h.written
  case offered => exact fun keys token ttl => (run w moves).world.site.store.offered keys token ttl

/-- Of two locks over one resource, the first to ask is granted it, and the other one is not. -/
example :
    let client : LockClient := { client := ⟨⟨0⟩, 1000, 1000, 10, "root"⟩, settings := {} }
    let w : VaultWorld :=
      { site := { store := {} }, supervisor := Supervisor.enroll {} ⟨0⟩ (some ()) }
    (run w ([.make ["a"], .make ["a"], .acquire client none 0, .acquire client none 1] ++
      List.replicate 10 (.go 0 false))).grants =
        [⟨0, "00000000-0000-4000-8000-000000000001", 15000⟩] := by
  decide +kernel

end Contest

end Reconnect.Rehearsal
