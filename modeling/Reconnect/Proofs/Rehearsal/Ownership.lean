import Mathlib.Data.List.Nodup
import Mathlib.Data.List.Perm.Basic
import Reconnect.Proofs.Identifier
import Reconnect.Proofs.Rehearsal.Tenancy

/-!
# A release drops what its own acquisition has written

In every tenancy, a release that the store answers deletes exactly those keys of its lock that still
hold the entry of one grant, the one whose token it has read; every other entry stays, and the lock
is free afterwards (`owned_run`). The invariant is `Traced`: every token, in the store, in a lock or
with a call, can be traced to one grant or to one acquisition that has not been granted yet.
-/

namespace Reconnect.Rehearsal

open Cache

/-- The tokens that acquisitions offer or were granted. -/
def tokensOf (stances : List Stance) (grants : List Grant) : List String :=
  stances.filterMap Stance.token? ++ grants.map Grant.token

/-- Every token is that of one acquisition. -/
structure Traced (w : VaultWorld) (stances : List Stance) (grants : List Grant) : Prop where
  drawn : ∀ token ∈ tokensOf stances grants, ∃ n ≤ w.drawn, token = Identifier.text ⟨n⟩
  unique : (tokensOf stances grants).Nodup
  placed : ∀ stance ∈ stances, ∀ lock, stance.wanted? = some lock → lock < w.site.locks.length
  granted : ∀ g ∈ grants, g.lock < w.site.locks.length
  /-- The token of a lock was granted to it. -/
  locks : ∀ lock token, (lockAt w lock).token = some token →
    ∃ g ∈ grants, g.lock = lock ∧ g.token = token
  /-- A token that a release has read was granted to its lock. -/
  releases : ∀ lock token, .dropping lock token ∈ stances →
    ∃ g ∈ grants, g.lock = lock ∧ g.token = token
  /-- An entry of the store was written for a grant, under a key of its lock. -/
  written : ∀ key e, (key, e) ∈ w.site.store.entries.entries →
    ∃ g ∈ grants, e = ⟨g.token, g.expiry⟩ ∧ key ∈ (lockAt w g.lock).keys

namespace Traced

variable {w w' : VaultWorld} {stances stances' others : List Stance} {grants : List Grant}

theorem fade (h : Traced w stances grants) (hw : Fades w w') : Traced w' stances grants where
  drawn token ht := by
    obtain ⟨n, hn, he⟩ := h.drawn token ht
    exact ⟨n, Nat.le_trans hn hw.drawn, he⟩
  unique := h.unique
  placed := by
    rw [hw.locks]
    exact h.placed
  granted := by
    rw [hw.locks]
    exact h.granted
  locks lock token ht := by
    rw [hw.lockAt] at ht
    exact h.locks lock token ht
  releases := h.releases
  written key e he := by
    obtain ⟨g, hg, hentry, hkey⟩ := h.written key e (hw.entries he)
    rw [← hw.lockAt] at hkey
    exact ⟨g, hg, hentry, hkey⟩

/-- A change of a lock that keeps its resources and brings no token leaves tokens where they are. -/
theorem changeLock (h : Traced w stances grants) (i : Nat) {f : Lock → Lock}
    (hr : ∀ l, (f l).resources = l.resources)
    (ht : ∀ l t, (f l).token = some t → l.token = some t) :
    Traced (changeLock w i f) stances grants := by
  constructor
  case drawn => exact h.drawn
  case unique => exact h.unique
  case placed =>
    rw [length_changeLock]
    exact h.placed
  case granted =>
    rw [length_changeLock]
    exact h.granted
  case locks =>
    intro lock token htoken
    rw [lockAt_changeLock] at htoken
    split at htoken
    · exact h.locks lock token (ht _ token htoken)
    · exact h.locks lock token htoken
  case releases => exact h.releases
  case written =>
    intro key e he
    obtain ⟨g, hg, hentry, hkey⟩ := h.written key e he
    refine ⟨g, hg, hentry, ?_⟩
    rw [lockAt_changeLock]
    split
    · rw [Lock.keys, hr]
      exact hkey
    · exact hkey

theorem addLock (h : Traced w stances grants) (resources : List String) :
    Traced (addLock w { resources }).1 stances grants := by
  have hlength : (Cache.addLock w { resources }).1.site.locks.length =
      w.site.locks.length + 1 := List.length_append
  constructor
  case drawn => exact h.drawn
  case unique => exact h.unique
  case placed =>
    intro stance hs lock hl
    rw [hlength]
    exact Nat.lt_succ_of_lt (h.placed stance hs lock hl)
  case granted =>
    intro g hg
    rw [hlength]
    exact Nat.lt_succ_of_lt (h.granted g hg)
  case locks =>
    intro lock token ht
    rw [lockAt_addLock] at ht
    split at ht
    · cases ht
    · exact h.locks lock token ht
  case releases => exact h.releases
  case written =>
    intro key e he
    obtain ⟨g, hg, hentry, hkey⟩ := h.written key e he
    refine ⟨g, hg, hentry, ?_⟩
    rw [lockAt_addLock, if_neg (Nat.ne_of_lt (h.granted g hg))]
    exact hkey

theorem perm (h : Traced w stances grants) (hp : stances.Perm stances') :
    Traced w stances' grants := by
  have htokens : (tokensOf stances grants).Perm (tokensOf stances' grants) :=
    (hp.filterMap Stance.token?).append_right _
  constructor
  case drawn => exact fun token ht => h.drawn token (htokens.mem_iff.2 ht)
  case unique => exact htokens.nodup_iff.1 h.unique
  case placed => exact fun stance hs => h.placed stance (hp.mem_iff.2 hs)
  case granted => exact h.granted
  case locks => exact h.locks
  case releases => exact fun lock token hd => h.releases lock token (hp.mem_iff.2 hd)
  case written => exact h.written

theorem sublist (h : Traced w stances grants) (hs : stances'.Sublist stances) :
    Traced w stances' grants := by
  have htokens : (tokensOf stances' grants).Sublist (tokensOf stances grants) :=
    (hs.filterMap Stance.token?).append_right _
  constructor
  case drawn => exact fun token ht => h.drawn token (htokens.subset ht)
  case unique => exact h.unique.sublist htokens
  case placed => exact fun stance hm => h.placed stance (hs.subset hm)
  case granted => exact h.granted
  case locks => exact h.locks
  case releases => exact fun lock token hd => h.releases lock token (hs.subset hd)
  case written => exact h.written

theorem tail {stance : Stance} (h : Traced w (stance :: others) grants) : Traced w others grants :=
  h.sublist (List.sublist_cons_self stance others)

/-- A call that begins has no token yet. -/
theorem begin (h : Traced w stances grants) {stance : Stance}
    (hf : stance.isFirst w.site.locks.length = true) : Traced w (stance :: stances) grants := by
  have htokens : tokensOf (stance :: stances) grants = tokensOf stances grants := by
    cases stance <;> first | rfl | cases hf
  constructor
  case drawn =>
    rw [htokens]
    exact h.drawn
  case unique =>
    rw [htokens]
    exact h.unique
  case placed =>
    intro stance' hm lock hl
    rcases List.mem_cons.1 hm with rfl | hm
    · cases stance' <;> cases hl
      · exact of_decide_eq_true hf
      · cases hf
    · exact h.placed stance' hm lock hl
  case granted => exact h.granted
  case locks => exact h.locks
  case releases =>
    intro lock token hm
    rcases List.mem_cons.1 hm with rfl | hm
    · cases hf
    · exact h.releases lock token hm
  case written => exact h.written

/-- A release that reads the token of a lock has a token that was granted to it. -/
theorem read (h : Traced w stances grants) {lock : Nat} {token : String}
    (ht : (lockAt w lock).token = some token) :
    Traced w (.dropping lock token :: stances) grants where
  drawn := h.drawn
  unique := h.unique
  placed stance hm i hi := by
    rcases List.mem_cons.1 hm with rfl | hm
    · cases hi
    · exact h.placed stance hm i hi
  granted := h.granted
  locks := h.locks
  releases i token' hm := by
    rcases List.mem_cons.1 hm with he | hm
    · cases he
      exact h.locks lock token ht
    · exact h.releases i token' hm
  written := h.written

/-- A token that is drawn differs from all others. -/
theorem issue (h : Traced w stances grants) {lock : Nat} (hl : lock < w.site.locks.length)
    (ttl : Millis) :
    Traced w.draw.1 (.offering lock w.draw.2.text ttl :: stances) grants := by
  have h' := h.fade (.draw w)
  have hfresh : w.draw.2.text ∉ tokensOf stances grants := by
    intro hm
    obtain ⟨n, hn, ht⟩ := h.drawn _ hm
    have he : w.drawn + 1 = n := congrArg Identifier.number (Identifier.text_injective ht)
    omega
  constructor
  case drawn =>
    intro token hm
    rcases List.mem_cons.1 hm with rfl | hm
    · exact ⟨w.drawn + 1, Nat.le_refl _, rfl⟩
    · exact h'.drawn token hm
  case unique => exact List.nodup_cons.2 ⟨hfresh, h.unique⟩
  case placed =>
    intro stance hm i hi
    rcases List.mem_cons.1 hm with rfl | hm
    · cases hi
      exact hl
    · exact h'.placed stance hm i hi
  case granted => exact h'.granted
  case locks => exact h'.locks
  case releases =>
    intro i token hm
    rcases List.mem_cons.1 hm with he | hm
    · cases he
    · exact h'.releases i token hm
  case written => exact h'.written

/-- What an acquisition writes is written for its grant. -/
theorem grant {lock : Nat} {token : String} {ttl : Millis}
    (h : Traced w (.offering lock token ttl :: others) grants) (now : Millis) :
    Traced
      (Cache.changeLock (withStore w (w.site.store.acquire (lockAt w lock).keys token ttl).1) lock
        (Lock.take · token now)) others
      (⟨lock, token, w.site.store.network.wall + ttl⟩ :: grants) := by
  have hkeys : ∀ i, (lockAt (Cache.changeLock
      (withStore w (w.site.store.acquire (lockAt w lock).keys token ttl).1) lock
      (Lock.take · token now)) i).keys = (lockAt w i).keys := by
    intro i
    rw [lockAt_changeLock]
    split <;> rfl
  -- the token is no longer offered, it is granted now
  have htokens : (tokensOf (.offering lock token ttl :: others) grants).Perm
      (tokensOf others (⟨lock, token, w.site.store.network.wall + ttl⟩ :: grants)) :=
    List.perm_middle.symm
  constructor
  case drawn => exact fun t ht => h.drawn t (htokens.mem_iff.2 ht)
  case unique => exact htokens.nodup_iff.1 h.unique
  case placed =>
    rw [length_changeLock]
    exact h.tail.placed
  case granted =>
    rw [length_changeLock]
    intro g hg
    rcases List.mem_cons.1 hg with rfl | hg
    · exact h.placed _ List.mem_cons_self _ rfl
    · exact h.granted g hg
  case locks =>
    intro i t ht
    rw [lockAt_changeLock] at ht
    split at ht
    case isTrue hi =>
      cases ht
      exact ⟨_, List.mem_cons_self, hi.1, rfl⟩
    case isFalse =>
      obtain ⟨g, hg, hlock⟩ := h.locks i t ht
      exact ⟨g, List.mem_cons_of_mem _ hg, hlock⟩
  case releases =>
    intro i t hm
    obtain ⟨g, hg, hlock⟩ := h.tail.releases i t hm
    exact ⟨g, List.mem_cons_of_mem _ hg, hlock⟩
  case written =>
    intro key e he
    rcases w.site.store.mem_entries_acquire _ token ttl he with ⟨hkey, rfl⟩ | he
    · refine ⟨_, List.mem_cons_self, rfl, ?_⟩
      rw [hkeys]
      exact hkey
    · obtain ⟨g, hg, hentry, hkey⟩ := h.written key e he
      refine ⟨g, List.mem_cons_of_mem _ hg, hentry, ?_⟩
      rw [hkeys]
      exact hkey

/-- A stride leaves every token traced. -/
theorem stride {stance : Stance} {next : Option Stance} {granted : List Grant}
    {left : List String} (h : Traced w (stance :: others) grants)
    (hs : Strides w stance w' next granted left) :
    Traced w' (next.toList ++ others) (granted ++ grants) := by
  have hgiveUp : ∀ {w lock}, Traced w others grants →
      Traced (Cache.changeLock w lock Lock.giveUp) others grants :=
    fun h => h.changeLock _ (fun _ => rfl) fun _ _ ht => ht
  cases hs with
  | quiet hw hn =>
    have h' := h.fade (.of_quiet hw)
    rcases hn with rfl | rfl
    · exact h'.tail
    · exact h'
  | turn hw => exact (h.tail.fade (.of_quiet hw)).begin rfl
  | make =>
    refine (h.tail.addLock _).begin (decide_eq_true ?_)
    simp [Cache.addLock]
  | begin hi =>
    refine (h.tail.issue ?_ _).changeLock _ (fun _ => rfl) fun _ _ ht => ht
    exact h.placed _ List.mem_cons_self _ rfl
  | refuse hi =>
    exact hgiveUp ((h.tail.fade (.draw w)).changeLock _ (fun _ => rfl) fun _ _ ht => ht)
  | giveUp hw => exact hgiveUp (h.tail.fade (.of_quiet hw))
  | take hn =>
    rcases hn with rfl | rfl
    · exact h.grant _
    · exact (h.grant _).begin rfl
  | read hh => exact h.tail.read (Lock.token_of_held hh)
  | leave =>
    -- a drop writes nothing, and a lock that is left has no token
    refine (h.tail.fade (.release w _ _)).changeLock _ (fun _ => rfl) ?_
    intro l t ht
    cases ht

end Traced

/-! ## Releases -/

theorem VaultCall.acquisition?_of_release? {call : VaultCall} {r : Release Unit}
    (h : call.release? = some r) : call.acquisition? = none := by
  cases call with
  | work bs cancel peek g =>
    obtain ⟨client, context, phase⟩ := g
    cases phase <;> first | rfl | cases h
  | release r' => rfl
  | errand e => rfl
  | acquire a => cases h

theorem VaultCall.stance_of_release? {call : VaultCall} {r : Release Unit}
    (h : call.release? = some r) : call.stance = stanceOfRelease r := by
  rw [VaultCall.stance, VaultCall.acquisition?_of_release? h, h]

/-- The step of a call that is at a release is one of this release. -/
theorem VaultCall.step_of_release? {call : VaultCall} {r : Release Unit}
    (h : call.release? = some r) (w : VaultWorld) (opens : Bool) :
    (vaultMachine.step w opens call).1 = (r.step w opens).1 := by
  cases call with
  | errand e => cases h
  | acquire a => cases h
  | release r' =>
    cases h
    simp only [vaultMachine]
    cases (r.step w opens).2 <;> rfl
  | work bs cancel peek g =>
    obtain ⟨client, context, phase⟩ := g
    cases phase <;> cases h
    simp only [vaultMachine, GuardedWork.step]
    cases (r.step w opens).2 <;> rfl

/-- A step of a release is quiet, or the store answers it, and the lock is left. -/
theorem release_step_cases (w : VaultWorld) (opens : Bool) (r : Release Unit) :
    ((r.step w opens).2 ≠ .ends (.ok ()) ∧ Quiet w (r.step w opens).1) ∨
      ∃ token e n, r.phase = .asking token e ∧
        (e.step (dropping (lockAt w r.lock).keys token) w opens).2 =
          .ends ⟨n, .ok (w.site.store.release (lockAt w r.lock).keys token).2⟩ ∧
        (r.step w opens).1 =
          changeLock (withStore w (w.site.store.release (lockAt w r.lock).keys token).1) r.lock
            (Lock.leave · w.now) ∧
        (r.step w opens).2 = .ends (.ok ()) := by
  cases hp : r.phase with
  | entering =>
    left
    simp only [Release.step, hp]
    split
    · exact ⟨by simp, .refl w⟩
    · split
      · exact ⟨by simp, .refl w⟩
      · exact ⟨by simp, .refl w⟩
  | asking token e =>
    simp only [Release.step, hp]
    split
    · exact .inl ⟨by simp, .refl w⟩
    · have hcases := quiet_or_dropped
        (e.goes_step (dropping (lockAt w r.lock).keys token) w opens)
      generalize ht : e.step (dropping (lockAt w r.lock).keys token) w opens = t at hcases ⊢
      rcases hcases with ⟨hq, hs⟩ | ⟨⟨n, hs⟩, hw⟩
      · left
        rcases t with ⟨w', e' | e' | ⟨n, err | dropped⟩⟩
        · exact ⟨by simp, hq⟩
        · exact ⟨by simp, hq⟩
        · exact ⟨by simp, hq⟩
        · exact absurd rfl (hs n dropped)
      · obtain ⟨w', s⟩ := t
        obtain rfl : s = _ := hs
        obtain rfl : w' = _ := hw
        exact .inr ⟨token, e, n, rfl, congrArg Prod.snd ht, rfl, rfl⟩

/-- The keys of the lock of a grant that hold what was written for the grant, each of them once. -/
def heldBy (w : VaultWorld) (g : Grant) : List String :=
  ((lockAt w g.lock).keys.filter fun key =>
    w.site.store.held? key = some ⟨g.token, g.expiry⟩).eraseDups

theorem mem_heldBy {w : VaultWorld} {g : Grant} {key : String} :
    key ∈ heldBy w g ↔
      key ∈ (lockAt w g.lock).keys ∧ w.site.store.held? key = some ⟨g.token, g.expiry⟩ := by
  rw [heldBy, List.mem_eraseDups, List.mem_filter, decide_eq_true_eq]

/-- What a release that ends well does to what was written for a grant, from the world `w` before
its last step to the world `w'` after it. -/
structure Releases (w : VaultWorld) (opens : Bool) (r : Release Unit) (g : Grant)
    (w' : VaultWorld) : Prop where
  lock : g.lock = r.lock
  /-- The keys that still hold the entry of the grant lose it, and no others. -/
  held : ∀ key, w'.site.store.held? key =
    if key ∈ heldBy w g then none else w.site.store.held? key
  /-- What was written for other grants stays. -/
  kept : ∀ g', g'.token ≠ g.token → heldBy w' g' = heldBy w g'
  /-- The store has answered how many keys have lost their entries. -/
  counted : ∃ e n, r.phase = .asking g.token e ∧
    (e.step (dropping (lockAt w r.lock).keys g.token) w opens).2 =
      .ends ⟨n, .ok (heldBy w g).length⟩
  free : (lockAt w' r.lock).locked = false ∧ (lockAt w' r.lock).token = none
  others : ∀ i, i ≠ r.lock → lockAt w' i = lockAt w i

namespace Traced

variable {w : VaultWorld} {stances : List Stance} {grants : List Grant}

theorem unique_grants (h : Traced w stances grants) : (grants.map Grant.token).Nodup :=
  (List.nodup_append.1 h.unique).2.1

/-- A key that holds the token of a grant holds what was written for it. -/
theorem any_token_iff (h : Traced w stances grants) {g : Grant} (hg : g ∈ grants) (key : String) :
    (w.site.store.held? key).any (·.token == g.token) = true ↔
      w.site.store.held? key = some ⟨g.token, g.expiry⟩ := by
  cases hv : w.site.store.held? key with
  | none => simp
  | some e =>
    obtain ⟨g', hg', rfl, -⟩ := h.written key e (w.site.store.mem_entries_of_held? hv)
    rw [Option.any_some, beq_iff_eq, Option.some_inj]
    constructor
    · intro ht
      rw [List.inj_on_of_nodup_map h.unique_grants hg' hg ht]
    · exact congrArg VaultEntry.token

/-- A release that ends well drops what was written for the grant whose token it has read. -/
theorem release (h : Traced w stances grants) {opens : Bool} {r : Release Unit}
    (hr : stanceOfRelease r ∈ stances) (hs : (r.step w opens).2 = .ends (.ok ())) :
    ∃ g ∈ grants, Releases w opens r g (r.step w opens).1 := by
  rcases release_step_cases w opens r with ⟨hne, -⟩ | ⟨token, e, n, hp, he, hw, -⟩
  · exact absurd hs hne
  · rw [stanceOfRelease, hp] at hr
    obtain ⟨g, hg, hlock, rfl⟩ := h.releases _ _ hr
    have hplace : r.lock < w.site.locks.length := hlock ▸ h.granted g hg
    have hheld : ∀ key, (r.step w opens).1.site.store.held? key =
        if key ∈ heldBy w g then none else w.site.store.held? key := by
      intro key
      rw [hw]
      refine (w.site.store.held?_release _ _ key).trans ?_
      simp only [h.any_token_iff hg, mem_heldBy, hlock]
    refine ⟨g, hg, hlock, hheld, ?_, ?_, ?_, ?_⟩
    case refine_1 =>
      intro g' hne
      have hkeys : (lockAt (r.step w opens).1 g'.lock).keys = (lockAt w g'.lock).keys := by
        rw [hw, lockAt_changeLock]
        split <;> rfl
      rw [heldBy, heldBy, hkeys]
      congr 1
      apply List.filter_congr
      intro key _
      rw [hheld]
      split
      -- a key that is dropped held the token of another grant
      case isTrue hk => simp [(mem_heldBy.1 hk).2, hne.symm]
      case isFalse => rfl
    case refine_2 =>
      refine ⟨e, n, hp, ?_⟩
      rw [he, Vault.snd_release, heldBy, hlock]
      congr 5
      apply List.filter_congr
      intro key _
      rw [Bool.eq_iff_iff, h.any_token_iff hg, decide_eq_true_eq]
    case refine_3 =>
      rw [hw, lockAt_changeLock, if_pos ⟨rfl, hplace⟩]
      exact ⟨rfl, rfl⟩
    case refine_4 =>
      intro i hi
      rw [hw, lockAt_changeLock, if_neg fun hc => hi hc.1.symm]
      rfl

end Traced

namespace Tenancy

/-- A tenancy in which every token is that of one acquisition. -/
def Sound (y : Tenancy) : Prop := Traced y.world y.stances y.grants

theorem Sound.moves {y y' : Tenancy} (h : y.Sound) (hm : Moves y y') : y'.Sound := by
  have hgrants : ∀ {b : Books}, y'.toBooks = b → y'.grants = b.grants := by
    rintro b rfl
    rfl
  unfold Sound at h ⊢
  cases hm with
  | fades hw hs hb =>
    rw [hgrants hb]
    exact (h.fade hw).sublist hs
  | makes hw hs hb =>
    rw [hgrants hb, hw, hs]
    exact h.addLock _
  | begins hf hw hs hb =>
    rw [hgrants hb, hw, hs]
    exact (h.begin hf).perm (List.perm_append_singleton _ _).symm
  | strides hs hs' hw hb =>
    rw [hgrants hb]
    exact ((h.perm hs).stride hw).perm hs'.symm

theorem sound_start (w : VaultWorld) : (start w).Sound := by
  refine ⟨nofun, List.nodup_nil, nofun, nofun, ?_, nofun, nofun⟩
  intro lock token ht
  change (default : Lock).token = some token at ht
  cases ht

theorem sound_run (w : VaultWorld) (moves : List Move) : (run w moves).Sound :=
  run_induction moves (sound_start w) fun _ _ => Sound.moves

/-- What holds of the entries and the releases at every moment of a tenancy. -/
structure Owned (y : Tenancy) : Prop where
  /-- No two acquisitions have one token. -/
  unique : (y.grants.map Grant.token).Nodup
  /-- What a key holds was written for an acquisition. -/
  written : ∀ key e, y.world.site.store.held? key = some e →
    ∃ g ∈ y.grants, e = ⟨g.token, g.expiry⟩ ∧ key ∈ (lockAt y.world g.lock).keys
  /-- A release that ends well drops what was written for one acquisition of its lock. -/
  released : ∀ call ∈ y.calls, ∀ r, call.release? = some r → ∀ opens,
    (r.step y.world opens).2 = .ends (.ok ()) →
      ∃ g ∈ y.grants, Releases y.world opens r g (vaultMachine.step y.world opens call).1
  /-- Any other step of a release drops nothing and leaves all locks as they are. -/
  spared : ∀ call ∈ y.calls, ∀ r, call.release? = some r → ∀ opens,
    (r.step y.world opens).2 ≠ .ends (.ok ()) →
      Quiet y.world (vaultMachine.step y.world opens call).1

/-- A release drops what its own acquisition has written, whatever the moves. -/
theorem owned_run (w : VaultWorld) (moves : List Move) : (run w moves).Owned := by
  have h := sound_run w moves
  constructor
  case unique => exact h.unique_grants
  case written => exact fun key e he => h.written key e (Vault.mem_entries_of_held? _ he)
  case released =>
    intro call hc r hr opens hs
    rw [VaultCall.step_of_release? hr]
    refine h.release ?_ hs
    rw [← VaultCall.stance_of_release? hr]
    exact List.mem_map_of_mem hc
  case spared =>
    intro call hc r hr opens hs
    rw [VaultCall.step_of_release? hr]
    rcases release_step_cases (run w moves).world opens r with ⟨-, hq⟩ | ⟨_, _, _, -, -, -, hok⟩
    · exact hq
    · exact absurd hok hs

/-- The first lock takes a key twice and another one, which is gone before its time and taken by the
second lock. The release of the first lock drops one key, and the second lock keeps what it has. -/
example :
    let y := run soleWorld ([.make ["a", "a", "b"], .make ["b"], .acquire 0] ++ goes 0 5 ++
      [.fade _ (fun w => .expire w (lockKey "b")), .acquire 1] ++ goes 0 5 ++
      [.release 0] ++ goes 0 4)
    (y.grants.map Grant.lock, y.grants.map (heldBy y.world), y.left.length) =
      ([1, 0], [[lockKey "b"], []], 1) := by
  decide +kernel

end Tenancy

end Reconnect.Rehearsal
