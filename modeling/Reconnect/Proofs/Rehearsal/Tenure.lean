import Reconnect.Proofs.Rehearsal.Ownership

/-!
# A lock keeps its token until it is left for it

A release reads the token of its lock first and leaves the lock once the store has answered. As
long as no acquisition takes the lock in between, a release changes the lock only if the token that
it has read is still that of the lock, and what an acquisition has taken is kept until a release
that has read its token is through (`tenured_run`). Without this condition it is not kept
(`left_by_late_release`): a release that comes too late leaves a lock that has been taken again.

The invariant is `Kept`, which says of each lock what is known (`KeptAt`), beside `Traced`.
-/

namespace Reconnect.Rehearsal

open Cache

namespace Stance

/-- Whether a call is about to have a token written for a lock. -/
def offers (lock : Nat) : Stance → Bool
  | .offering i _ _ => i == lock
  | _ => false

end Stance

/-- What is known of a lock, the calls on it, and the books. -/
structure KeptAt (l : Lock) (lock : Nat) (stances : List Stance) (b : Books) : Prop where
  /-- The lock has one acquisition at a time. -/
  single : stances.countP (Stance.offers lock) ≤ l.acquiring.toNat
  free : l.acquiring = true → l.locked = false
  locked : l.locked = l.token.isSome
  /-- While a release is under way, the lock has the token that was read, or has been left. -/
  current : lock ∉ b.clashes → ∀ token, .dropping lock token ∈ stances →
    l.token = some token ∨ l.token = none
  /-- The lock has the token that it was granted until it is left for it. -/
  held : lock ∉ b.clashes → ∀ g ∈ b.grants, g.lock = lock →
    g.token ∈ b.left ∨ l.token = some g.token

/-- What is known of all locks. -/
def Kept (w : VaultWorld) (stances : List Stance) (b : Books) : Prop :=
  ∀ lock, KeptAt (lockAt w lock) lock stances b

/-! ## One lock -/

namespace KeptAt

variable {l l' : Lock} {lock : Nat} {stances stances' others : List Stance} {stance : Stance}
  {b b' : Books} {token : String} {ttl : Millis}

/-- Only three fields of the lock count. -/
theorem congr (h : KeptAt l lock stances b) (ha : l'.acquiring = l.acquiring)
    (hl : l'.locked = l.locked) (ht : l'.token = l.token) : KeptAt l' lock stances b where
  single := by
    rw [ha]
    exact h.single
  free := by
    rw [ha, hl]
    exact h.free
  locked := by
    rw [hl, ht]
    exact h.locked
  current := by
    rw [ht]
    exact h.current
  held := by
    rw [ht]
    exact h.held

/-- Of the calls, only acquisitions and releases of the lock count. -/
theorem calls (h : KeptAt l lock stances b)
    (hc : stances'.countP (Stance.offers lock) ≤ stances.countP (Stance.offers lock))
    (hd : ∀ token, .dropping lock token ∈ stances' → .dropping lock token ∈ stances) :
    KeptAt l lock stances' b where
  single := Nat.le_trans hc h.single
  free := h.free
  locked := h.locked
  current hn token hm := h.current hn token (hd token hm)
  held := h.held

theorem sublist (h : KeptAt l lock stances b) (hs : stances'.Sublist stances) :
    KeptAt l lock stances' b :=
  h.calls hs.countP_le fun _ hm => hs.subset hm

theorem tail (h : KeptAt l lock (stance :: others) b) : KeptAt l lock others b :=
  h.sublist (List.sublist_cons_self stance others)

/-- Another call, which neither acquires the lock nor releases it. -/
theorem cons (h : KeptAt l lock others b) (ho : stance.offers lock = false)
    (hd : ∀ token, stance ≠ .dropping lock token) : KeptAt l lock (stance :: others) b := by
  refine h.calls ?_ fun token hm => ?_
  · refine Nat.le_of_eq (List.countP_cons_of_neg ?_)
    rw [ho]
    exact Bool.false_ne_true
  · exact (List.mem_cons.1 hm).resolve_left fun he => hd token he.symm

/-- Of the books, only what is written of the lock counts. -/
theorem books (h : KeptAt l lock stances b)
    (hg : ∀ g ∈ b'.grants, g.lock = lock → g ∈ b.grants) (hl : b.left ⊆ b'.left)
    (hc : b.clashes ⊆ b'.clashes) : KeptAt l lock stances b' where
  single := h.single
  free := h.free
  locked := h.locked
  current hn := h.current fun hm => hn (hc hm)
  held hn g hg' he := (h.held (fun hm => hn (hc hm)) g (hg g hg' he) he).imp_left (hl ·)

theorem read (h : KeptAt l lock others b) (ht : l.token = some token) :
    KeptAt l lock (.dropping lock token :: others) b where
  single := by
    rw [List.countP_cons_of_neg (by exact Bool.false_ne_true)]
    exact h.single
  free := h.free
  locked := h.locked
  current hn t hm := by
    rcases List.mem_cons.1 hm with he | hm
    · cases he
      exact .inl ht
    · exact h.current hn t hm
  held := h.held

theorem countP_offers (lock : Nat) (token : String) (ttl : Millis) (others : List Stance) :
    (Stance.offering lock token ttl :: others).countP (Stance.offers lock) =
      others.countP (Stance.offers lock) + 1 :=
  List.countP_cons_of_pos (beq_self_eq_true lock)

/-- An acquisition begins if no other one is under way. -/
theorem enter (h : KeptAt l lock others b) (hi : l.isIdle = true) :
    KeptAt l.begin lock (.offering lock token ttl :: others) b := by
  have hidle : l.locked = false ∧ l.acquiring = false := by simpa [Lock.isIdle] using hi
  constructor
  case single =>
    have hnone := h.single
    rw [hidle.2] at hnone
    rw [countP_offers]
    exact Nat.succ_le_succ hnone
  case free => exact fun _ => hidle.1
  case locked => exact h.locked
  case current =>
    intro hn t hm
    rcases List.mem_cons.1 hm with he | hm
    · cases he
    · exact h.current hn t hm
  case held => exact h.held

/-- What is known when the only acquisition ends. -/
theorem none_offers (h : KeptAt l lock (.offering lock token ttl :: others) b) :
    l.acquiring = true ∧ others.countP (Stance.offers lock) = 0 := by
  have hone := h.single
  rw [countP_offers] at hone
  cases ha : l.acquiring with
  | false =>
    rw [ha] at hone
    exact absurd hone (Nat.not_succ_le_zero _)
  | true =>
    rw [ha] at hone
    exact ⟨rfl, Nat.le_zero.1 (Nat.le_of_succ_le_succ hone)⟩

theorem giveUp (h : KeptAt l lock (.offering lock token ttl :: others) b) :
    KeptAt l.giveUp lock others b where
  single := Nat.le_of_eq h.none_offers.2
  free := nofun
  locked := h.locked
  current := h.tail.current
  held := h.held

/-- A lock that is taken has been left for all of its former tokens. -/
theorem take (h : KeptAt l lock (.offering lock token ttl :: others) b) {clashes : List Nat}
    (hsub : b.clashes ⊆ clashes) (hclash : lock ∉ clashes → ∀ t, .dropping lock t ∉ others)
    (expiry now : Millis) :
    KeptAt (l.take token now) lock others
      { b with grants := ⟨lock, token, expiry⟩ :: b.grants, clashes } := by
  obtain ⟨hacquiring, hnone⟩ := h.none_offers
  have hunset : l.token = none := by
    rw [← Option.not_isSome_iff_eq_none, ← h.locked, h.free hacquiring]
    exact Bool.false_ne_true
  constructor
  case single => exact Nat.le_of_eq hnone
  case free => exact nofun
  case locked => rfl
  -- a release that is under way would be a clash
  case current => exact fun hn t hm => absurd hm (hclash hn t)
  case held =>
    intro hn g hg he
    rcases List.mem_cons.1 hg with rfl | hg
    · exact .inr rfl
    · rcases h.held (fun hm => hn (hsub hm)) g hg he with hleft | htoken
      · exact .inl hleft
      · rw [hunset] at htoken
        cases htoken

/-- A lock that is left has no token, whoever leaves it. -/
theorem leave (h : KeptAt l lock (.dropping lock token :: others) b) (now : Millis) :
    KeptAt (l.leave now) lock others { b with left := token :: b.left } := by
  constructor
  case single => exact h.tail.single
  case free => exact fun _ => rfl
  case locked => rfl
  case current => exact fun _ _ _ => .inr rfl
  case held =>
    intro hn g hg he
    rcases h.held hn g hg he with hleft | htoken
    · exact .inl (List.mem_cons_of_mem token hleft)
    · -- the lock has the token of the grant, so it is this token that the release has read
      rcases h.current hn token List.mem_cons_self with hcur | hcur <;> rw [hcur] at htoken
      · cases htoken
        exact .inl List.mem_cons_self
      · cases htoken

end KeptAt

/-! ## All locks -/

/-- A lock that is made is as one that is not there yet. -/
theorem lockAt_length (w : VaultWorld) : lockAt w w.site.locks.length = default := by
  simp [lockAt]

namespace Kept

variable {w w' : VaultWorld} {stances stances' others : List Stance} {b : Books}

theorem of_locks (h : Kept w stances b) (hs : stances'.Sublist stances)
    (hw : w'.site.locks = w.site.locks) : Kept w' stances' b := by
  intro i
  have hat : lockAt w' i = lockAt w i := by
    unfold lockAt
    rw [hw]
  rw [hat]
  exact (h i).sublist hs

theorem draw (h : Kept w stances b) : Kept w.draw.1 stances b :=
  h.of_locks (List.Sublist.refl _) rfl

theorem withStore (h : Kept w stances b) (v : Vault) : Kept (withStore w v) stances b :=
  h.of_locks (List.Sublist.refl _) rfl

theorem addLock (h : Kept w stances b) (resources : List String) :
    Kept (addLock w { resources }).1 stances b := by
  intro i
  rw [lockAt_addLock]
  split
  case isTrue hi =>
    have hnew := h i
    rw [hi, lockAt_length] at hnew
    rw [hi]
    exact hnew.congr rfl rfl rfl
  case isFalse => exact h i

/-- A call that neither offers nor drops a token can be on its way. -/
theorem begin (h : Kept w stances b) {stance : Stance} {n : Nat}
    (hf : stance.isFirst n = true) : Kept w (stance :: stances) b := by
  intro i
  refine (h i).cons ?_ ?_
  · cases stance <;> first | rfl | cases hf
  · rintro token rfl
    cases hf

theorem perm (h : Kept w stances b) (hp : stances.Perm stances') : Kept w stances' b :=
  fun i => (h i).calls (Nat.le_of_eq (hp.countP_eq _).symm) fun _ hm => hp.mem_iff.2 hm

theorem tail {stance : Stance} (h : Kept w (stance :: stances) b) : Kept w stances b :=
  fun i => (h i).tail

/-- One lock is changed, and the others are left alone. -/
theorem change {lock : Nat} (hl : lock < w.site.locks.length) {f : Lock → Lock}
    (hown : KeptAt (f (lockAt w lock)) lock stances b)
    (hothers : ∀ i ≠ lock, KeptAt (lockAt w i) i stances b) :
    Kept (changeLock w lock f) stances b := by
  intro i
  rw [lockAt_changeLock]
  by_cases hi : i = lock
  · rw [if_pos ⟨hi.symm, hi ▸ hl⟩, hi]
    exact hown
  · rw [if_neg fun hc => hi hc.1.symm]
    exact hothers i hi

section Change

variable {lock : Nat} {token : String} {ttl : Millis}

theorem enter (h : Kept w others b) (hl : lock < w.site.locks.length)
    (hi : (lockAt w lock).isIdle = true) :
    Kept (changeLock w lock Lock.begin) (.offering lock token ttl :: others) b :=
  change hl ((h lock).enter hi) fun i hne => (h i).cons (beq_false_of_ne hne.symm) nofun

theorem giveUp (h : Kept w (.offering lock token ttl :: others) b)
    (hl : lock < w.site.locks.length) : Kept (changeLock w lock Lock.giveUp) others b :=
  change hl (h lock).giveUp fun i _ => (h i).tail

theorem take (h : Kept w (.offering lock token ttl :: others) b) (hl : lock < w.site.locks.length)
    {clashes : List Nat} (hsub : b.clashes ⊆ clashes)
    (hclash : lock ∉ clashes → ∀ t, .dropping lock t ∉ others) (expiry now : Millis) :
    Kept (changeLock w lock (Lock.take · token now)) others
      { b with grants := ⟨lock, token, expiry⟩ :: b.grants, clashes } := by
  refine change hl ((h lock).take hsub hclash expiry now) fun i hne => ?_
  refine (h i).tail.books (fun g hg he => ?_) (List.Subset.refl _) hsub
  refine (List.mem_cons.1 hg).resolve_left ?_
  rintro rfl
  exact hne he.symm

theorem leave (h : Kept w (.dropping lock token :: others) b) (hl : lock < w.site.locks.length)
    (now : Millis) :
    Kept (changeLock w lock (Lock.leave · now)) others { b with left := token :: b.left } :=
  change hl ((h lock).leave now) fun i _ =>
    (h i).tail.books (fun _ hg _ => hg) (List.subset_cons_self _ _) (List.Subset.refl _)

theorem read (h : Kept w others b) (ht : (lockAt w lock).token = some token) :
    Kept w (.dropping lock token :: others) b := by
  intro i
  by_cases hi : i = lock
  · subst hi
    exact (h i).read ht
  · refine (h i).cons rfl ?_
    rintro t ⟨⟩
    exact hi rfl

end Change

/-- A stride keeps what is known, with what it writes down. -/
theorem stride {stance : Stance} {next : Option Stance} {granted : List Grant}
    {left : List String} (h : Kept w (stance :: others) b)
    (ht : Traced w (stance :: others) b.grants) (hs : Strides w stance w' next granted left)
    {leaving : Nat → Bool}
    (hleaving : ∀ lock, leaving lock = (stance :: others).any (Stance.drops lock)) :
    Kept w' (next.toList ++ others)
      { grants := granted ++ b.grants
        left := left ++ b.left
        clashes := (granted.map Grant.lock).filter leaving ++ b.clashes } := by
  have hplaced : ∀ {lock}, stance.wanted? = some lock → lock < w.site.locks.length :=
    fun hl => ht.placed stance List.mem_cons_self _ hl
  cases hs with
  | quiet hw hn =>
    refine h.of_locks ?_ hw.locks
    rcases hn with rfl | rfl
    · exact List.sublist_cons_self _ others
    · exact List.Sublist.refl _
  | turn hw => exact (h.tail.of_locks (List.Sublist.refl _) hw.locks).begin (n := 0) rfl
  | make => exact (h.tail.addLock _).begin (n := w.site.locks.length + 1) (by simp [Stance.isFirst])
  | begin hi =>
    exact h.tail.draw.enter (hplaced rfl) hi
  | @refuse lock hi =>
    -- as if the acquisition had begun and then failed
    have hbegun : Kept (changeLock w.draw.1 lock Lock.begin)
        (.offering lock w.draw.2.text 0 :: others) b := h.tail.draw.enter (hplaced rfl) hi
    refine hbegun.giveUp ?_
    rw [length_changeLock]
    exact hplaced rfl
  | giveUp hw =>
    refine (h.of_locks (List.Sublist.refl _) hw.locks).giveUp ?_
    rw [hw.locks]
    exact hplaced rfl
  | @take lock token ttl now _ hn =>
    have hclash : lock ∉ [lock].filter leaving ++ b.clashes →
        ∀ t, Stance.dropping lock t ∉ others := by
      intro hc t hm
      refine hc (List.mem_append_left _ (List.mem_filter.2 ⟨List.mem_singleton_self lock, ?_⟩))
      rw [hleaving, List.any_eq_true]
      exact ⟨_, List.mem_cons_of_mem _ hm, beq_self_eq_true lock⟩
    have htaken := (h.withStore (w.site.store.acquire (lockAt w lock).keys token ttl).1).take
      (hplaced rfl) (List.subset_append_right _ _) hclash (w.site.store.network.wall + ttl) now
    rcases hn with rfl | rfl
    · exact htaken
    · exact htaken.begin (n := 0) (rfl : Stance.nothing.isFirst 0 = true)
  | read hh => exact h.tail.read (Lock.token_of_held hh)
  | @leave lock token now =>
    obtain ⟨g, hg, rfl, -⟩ := ht.releases lock token List.mem_cons_self
    exact (h.withStore (w.site.store.release (lockAt w g.lock).keys token).1).leave
      (ht.granted g hg) now

end Kept

namespace Tenancy

/-- What is known of the locks in a tenancy. -/
def Known (y : Tenancy) : Prop := y.Sound ∧ Kept y.world y.stances y.toBooks

theorem Known.moves {y y' : Tenancy} (h : y.Known) (hm : Moves y y') : y'.Known := by
  obtain ⟨hsound, hkept⟩ := h
  refine ⟨hsound.moves hm, ?_⟩
  cases hm with
  | fades hw hs hb =>
    rw [hb]
    exact hkept.of_locks hs hw.locks
  | makes hw hs hb =>
    rw [hb, hw, hs]
    exact hkept.addLock _
  | begins hf hw hs hb =>
    rw [hb, hw, hs]
    exact (hkept.begin hf).perm (List.perm_append_singleton _ _).symm
  | strides hs hs' hw hb =>
    rw [hb]
    refine Kept.perm (Kept.stride (hkept.perm hs) (hsound.perm hs) hw fun lock => ?_) hs'.symm
    exact hs.any_eq

theorem known_start (w : VaultWorld) : (start w).Known := by
  have hat : ∀ i, lockAt (start w).world i = default := fun _ => rfl
  refine ⟨sound_start w, fun i => ?_⟩
  rw [hat]
  exact ⟨Nat.zero_le _, nofun, rfl, fun _ _ => nofun, fun _ _ => nofun⟩

theorem known_run (w : VaultWorld) (moves : List Move) : (run w moves).Known :=
  run_induction moves (known_start w) fun _ _ => Known.moves

/-- What holds of a lock at every moment. -/
structure Tenured (y : Tenancy) (lock : Nat) : Prop where
  /-- A step of a release changes what the lock holds only if the token that the release has read
  is still that of the lock. -/
  changed : ∀ call ∈ y.calls, ∀ r, call.release? = some r → r.lock = lock → ∀ opens,
    (lockAt (vaultMachine.step y.world opens call).1 lock).token ≠ (lockAt y.world lock).token ∨
      (lockAt (vaultMachine.step y.world opens call).1 lock).locked ≠
        (lockAt y.world lock).locked →
    ∃ token, tokenRead? r = some token ∧ (lockAt y.world lock).token = some token
  /-- What an acquisition has taken is kept until a release that has read its token is through. -/
  kept : ∀ g ∈ y.grants, g.lock = lock → g.token ∈ y.left ∨
    (lockAt y.world lock).token = some g.token ∧ (lockAt y.world lock).locked = true

/-- A lock that was never taken while a release of it had read an older token is kept. -/
theorem tenured_run (w : VaultWorld) (moves : List Move) (lock : Nat)
    (h : lock ∉ (run w moves).clashes) : (run w moves).Tenured lock := by
  obtain ⟨-, hkept⟩ := known_run w moves
  constructor
  case changed =>
    intro call hc r hr hlock opens hne
    rw [VaultCall.step_of_release? hr] at hne
    rcases release_step_cases (run w moves).world opens r with ⟨-, hq⟩ | ⟨token, e, _, hp, -, hw, -⟩
    · rw [hq.lockAt] at hne
      rcases hne with hne | hne <;> exact absurd rfl hne
    · refine ⟨token, by rw [tokenRead?, hp], ?_⟩
      have hm : Stance.dropping lock token ∈ (run w moves).stances := by
        have hstance : call.stance = .dropping lock token := by
          rw [VaultCall.stance_of_release? hr, stanceOfRelease, hp, hlock]
        rw [← hstance]
        exact List.mem_map_of_mem hc
      rcases (hkept lock).current h token hm with ht | ht
      · exact ht
      · -- a lock without a token is left as it is
        have hl := (hkept lock).locked
        rw [ht] at hl
        have hsame : lockAt (withStore (run w moves).world
            ((run w moves).world.site.store.release
              (lockAt (run w moves).world r.lock).keys token).1) lock =
            lockAt (run w moves).world lock := rfl
        rw [hw, lockAt_changeLock, hsame] at hne
        split at hne
        · simp [Lock.leave, ht, hl] at hne
        · simp at hne
  case kept =>
    intro g hg hlock
    subst hlock
    refine ((hkept g.lock).held h g hg rfl).imp_right fun ht => ⟨ht, ?_⟩
    rw [(hkept g.lock).locked, ht]
    rfl

/-- Moves by which two releases read one token while their client has no connection, and the first
one is through once it has one again. -/
def overlap : List Move :=
  [.make ["a"], .acquire 0] ++ goes 0 5 ++
    [.connect none, .release 0] ++ goes 0 3 ++ [.wait 5, .release 0] ++ goes 1 3 ++
    [.connect (some ()), .wait 10] ++ goes 0 3

/-- A release that comes too late for its token does no harm to a lock that was not taken again. -/
theorem tenured_overlapping_releases :
    0 ∉ (run soleWorld (overlap ++ [.wait 15] ++ goes 0 3)).clashes ∧
      (run soleWorld (overlap ++ [.wait 15] ++ goes 0 3)).Tenured 0 :=
  have h : 0 ∉ (run soleWorld (overlap ++ [.wait 15] ++ goes 0 3)).clashes := by decide +kernel
  ⟨h, tenured_run _ _ 0 h⟩

/-- Moves by which the lock is taken again before the second release is through. -/
def lateRelease : List Move := overlap ++ [.acquire 0] ++ goes 1 5 ++ [.wait 15] ++ goes 0 3

/-- A release that comes too late leaves a lock that has been taken again: the lock is free for
itself, although its key still holds what was written for it. -/
theorem left_by_late_release :
    ¬ (run soleWorld lateRelease).Tenured 0 ∧
      ∃ g ∈ (run soleWorld lateRelease).grants, g.lock = 0 ∧
        g.token ∉ (run soleWorld lateRelease).left ∧
        (lockAt (run soleWorld lateRelease).world 0).locked = false ∧
        heldBy (run soleWorld lateRelease).world g = [lockKey "a"] := by
  have hlate : ∃ g ∈ (run soleWorld lateRelease).grants, g.lock = 0 ∧
      g.token ∉ (run soleWorld lateRelease).left ∧
      (lockAt (run soleWorld lateRelease).world 0).locked = false ∧
      heldBy (run soleWorld lateRelease).world g = [lockKey "a"] := by
    decide +kernel
  refine ⟨fun ht => ?_, hlate⟩
  obtain ⟨g, hg, hlock, hleft, hfree, -⟩ := hlate
  rcases ht.kept g hg hlock with hm | ⟨-, hlocked⟩
  · exact hleft hm
  · rw [hfree] at hlocked
    cases hlocked

end Tenancy

end Reconnect.Rehearsal
