import Reconnect.Proofs.Cache.Standing
import Reconnect.Rehearsal.Vault

/-!
# Acquisitions meet their deadlines

An acquisition is followed from its first step, on a clock that stops at every time it waits for
(`Passes`). Beside that anything may happen to the world between two of its steps: the store may be
taken or free, fail or not answer at all, connections come and go, contexts are canceled, and the
dice may come to anything. A pause of no time lasts for a round, and no time has more than a given
number of rounds. The schedule keeps to that (`passes_goOn`).

Whatever happens, the acquisition is over when its time is up (`punctual_run`). It is never under
way later, and makes no attempt later; it takes a bounded number of steps, so that it returns on
every schedule that gives it a turn once something that it waits for has come about. It runs out of
time only at the deadline. Its pauses keep within their bounds unless the deadline cuts them short,
so that the number of attempts that find a key taken is bounded too. The lower bound is the one of
the settings without its part of a millisecond; if it has such a part, a pause may be shorter than
the settings say, and the attempts more than they allow (`unpunctual_fraction`).
-/

namespace Reconnect.Cache.Acquisition

open Execution

variable {S C : Type}

/-! ## Courses -/

/-- An acquisition on its way, or its result. -/
structure Course (S C : Type) where
  world : World (Guarded S) C
  call : Acquisition C ⊕ Except (LockError Fault) Unit
  /-- Whether a turn of the acquisition has been opened and has not ended. -/
  amid : Bool := true
  log : List Note := []
  /-- How many steps it has taken without waiting. -/
  moves : Nat := 0
  /-- How many pauses of no time it has made. -/
  briefs : Nat := 0

/-- The course after a step and its notes. -/
def Course.after (y : Course S C) (w : World (Guarded S) C) (notes : List Note) :
    Step (Acquisition C) (Except (LockError Fault) Unit) → Course S C
  | .waits a => { y with world := w, call := .inl a, amid := false, log := y.log ++ notes }
  | .moves a =>
    { world := w, call := .inl a, amid := true, log := y.log ++ notes, moves := y.moves + 1
      briefs := y.briefs + if a.pose.isBrief a.deadline then 1 else 0 }
  | .ends r =>
    { y with
      world := w, call := .inr r, amid := false, log := y.log ++ notes, moves := y.moves + 1 }

variable [Site S C] [Keeper S C]

/-- The acquisition takes a step. Unless it is amid a turn, the step opens one. -/
def Course.work (y : Course S C) : Course S C :=
  match y.call with
  | .inl a =>
    let r := a.step y.world (!y.amid)
    y.after r.1 (a.notes y.world (!y.amid)) r.2
  | .inr _ => y

/-- What may happen in the world between two steps of an acquisition. -/
structure Passes (rounds : Nat) (amid : Bool) (a : Acquisition C) (w w' : World (Guarded S) C) :
    Prop where
  forth : w.now ≤ w'.now
  /-- No time has more than so many rounds. -/
  inRounds : w'.round ≤ rounds
  inOrder : w'.now = w.now → w.round ≤ w'.round
  /-- Within a turn the clock stands still. -/
  within : amid = true → Still w w'
  /-- The clock stops at every time that the acquisition waits for, -/
  timely : ∀ t, .time t ∈ a.wakes (S := S) → w'.now ≤ max w.now t
  /-- and stands still if it waits for no time. -/
  still : (∀ t, .time t ∉ a.wakes (S := S)) → w'.now = w.now

/-- What an acquisition that begins in a world may have come to. -/
inductive Reached (rounds : Nat) (w₀ : World (Guarded S) C) (client : LockClient) :
    Course S C → Prop
  | begins {context : Option String} {lock : Nat} (h : w₀.round ≤ rounds) :
      Reached rounds w₀ client { world := w₀, call := .inl { client, context, lock } }
  | works {y : Course S C} (h : Reached rounds w₀ client y) : Reached rounds w₀ client y.work
  | passes {y : Course S C} {a : Acquisition C} {w : World (Guarded S) C}
      (h : Reached rounds w₀ client y) (hc : y.call = .inl a)
      (hp : Passes rounds y.amid a y.world w) : Reached rounds w₀ client { y with world := w }

/-- A schedule takes an acquisition from course to course: before it gives it a turn, something has
come about that the acquisition waits for. -/
def Scheduled (rounds : Nat) (f : Nat → Course S C) : Prop :=
  ∀ n a, (f n).call = .inl a → ∃ w, Passes rounds (f n).amid a (f n).world w ∧
    ((f n).amid = false → ∃ event ∈ a.wakes (S := S), w.hasHappened event = true) ∧
    f (n + 1) = { f n with world := w }.work

/-! ## The law -/

/-- What an acquisition may have come to that pauses for no less than a given time, unless the
deadline cuts a pause short. -/
structure Punctual (rounds : Nat) (w₀ : World (Guarded S) C) (client : LockClient) (least : Millis)
    (y : Course S C) : Prop where
  /-- It is not under way later, nor has it ended later, -/
  inTime : y.world.now ≤ limit w₀ client
  /-- nor has it made an attempt later. -/
  attempts : ∀ n ∈ y.log, n.time ≤ limit w₀ client
  /-- It runs out of time when its time is up. -/
  timeout : y.call = .inr (.error .lockAcquireTimeout) → y.world.now = limit w₀ client
  /-- If there is no time, it ends within its first turn, without an attempt. -/
  atOnce : client.settings.acquireTimeout = 0 → y.log = [] ∧
    (∀ a, y.call = .inl a → y.amid = true) ∧
    ∀ r, y.call = .inr r → r = .error .lockAcquireTimeout ∨ r = .error .canceled ∨
      r = .error .locksAlreadyAcquired
  paced : Paced least (max client.settings.retryWaitMin client.settings.retryWaitMax)
    (limit w₀ client) y.log
  held : 0 < least → heldIn y.log ≤ client.settings.acquireTimeout / least + 1
  /-- It takes a bounded number of steps. -/
  moves : y.moves ≤ 8 * (client.settings.acquireTimeout + y.briefs) + 8
  briefs : y.briefs ≤ client.settings.acquireTimeout * (rounds + 1)
  unhurried : 0 < least → 0 < client.client.retryWait → y.briefs = 0
  /-- Whatever schedule takes it on, it returns in time. -/
  returns : ∀ f, f 0 = y → Scheduled rounds f →
    ∃ n r, (f n).call = .inr r ∧ (f n).world.now ≤ limit w₀ client
  /-- It waits for something that comes about by the deadline or in the next round, -/
  expects : ∀ a, y.call = .inl a → y.amid = false →
    (∃ t ≤ limit w₀ client, .time t ∈ a.wakes (S := S)) ∨
      ∃ n ≤ y.world.round + 1, .round y.world.now n ∈ a.wakes (S := S)
  /-- and goes on as soon as that has come about. -/
  awake : ∀ a, y.call = .inl a → ∀ event ∈ a.wakes (S := S), y.world.hasHappened event = true →
    ∀ a', (a.step y.world true).2 ≠ .waits a'

/-! ## What holds of every course -/

section Stands

variable {rounds : Nat} {w₀ : World (Guarded S) C} {client : LockClient}

/-- Where an acquisition stands that is on its way. -/
structure Stands (rounds : Nat) (w₀ : World (Guarded S) C) (client : LockClient)
    (y : Course S C) (a : Acquisition C) : Prop where
  owner : a.client = client
  deadline : a.pose ≠ .entering → a.deadline = limit w₀ client
  apt : a.Apt y.world.now
  early : client.settings.acquireTimeout = 0 → a.pose = .entering ∨ a.pose = .trying
  moves : y.moves + a.pose.rank client.settings.acquireTimeout a.deadline y.world.now ≤
    8 * (client.settings.acquireTimeout + y.briefs) + 8
  pose : AtPose rounds w₀ client y.world y.amid y.log y.briefs a.pose

omit [Keeper S C] in
/-- There is no attempt without time. -/
theorem Stands.hasTime {y : Course S C} {a : Acquisition C} (h : Stands rounds w₀ client y a)
    (hp : a.pose ≠ .entering ∧ a.pose ≠ .trying) : client.settings.acquireTimeout ≠ 0 := by
  intro hz
  rcases h.early hz with he | he
  · exact hp.1 he
  · exact hp.2 he

/-- What holds of an acquisition that has ended. -/
structure Ended (w₀ : World (Guarded S) C) (client : LockClient) (y : Course S C)
    (r : Except (LockError Fault) Unit) : Prop where
  timeout : r = .error .lockAcquireTimeout → limit w₀ client ≤ y.world.now
  early : client.settings.acquireTimeout = 0 → r = .error .lockAcquireTimeout ∨
    r = .error .canceled ∨ r = .error .locksAlreadyAcquired
  moves : y.moves ≤ 8 * (client.settings.acquireTimeout + y.briefs) + 8

/-- What holds of every course. -/
structure Sound (rounds : Nat) (w₀ : World (Guarded S) C) (client : LockClient)
    (y : Course S C) : Prop where
  kept : Kept rounds w₀ client y.world y.log y.briefs
  stands : ∀ a, y.call = .inl a → Stands rounds w₀ client y a
  ended : ∀ r, y.call = .inr r → Ended w₀ client y r

end Stands

/-! ## What a step keeps -/

section Work

variable {rounds : Nat} {w₀ w' : World (Guarded S) C} {client : LockClient} {y : Course S C}
  {a a' : Acquisition C} {notes : List Note}

omit [Keeper S C] in
/-- What a step comes to in a new pose. -/
theorem leads (hk : Kept rounds w₀ client y.world y.log y.briefs)
    (hs : Stands rounds w₀ client y a) (hl : Leads y.world a a.pose notes a'.pose)
    (hd : a'.deadline = a.deadline) :
    Kept rounds w₀ client y.world (y.log ++ notes)
        (y.briefs + if a'.pose.isBrief a'.deadline then 1 else 0) ∧
      AtPose rounds w₀ client y.world true (y.log ++ notes)
        (y.briefs + if a'.pose.isBrief a'.deadline then 1 else 0) a'.pose := by
  have hpose := hs.pose
  have hdeadline : a.pose ≠ .entering → a.deadline = limit w₀ client := hs.deadline
  have htime := hs.hasTime
  rw [hd]
  -- one case for each way to the next pose: what is noted is counted, and what is due next is said
  generalize a.pose = p at hl hpose hdeadline htime
  generalize hp' : a'.pose = p' at hl
  cases hl with
  | tries hlt =>
    cases hpose with
    | trying ha hb hr hh =>
      rw [hdeadline (by simp)] at hlt
      have hz : client.settings.acquireTimeout ≠ 0 := by
        intro hz
        rw [limit, hz] at hlt
        exact absurd hk.forth (Nat.not_le_of_lt hlt)
      have hpaced : Paced client.leastPause client.longestPause (limit w₀ client)
          (y.log ++ [.tries y.world.now]) := by
        refine hk.paced.concat (by simp) fun before t pause he => ?_
        obtain ⟨hle, heq⟩ := hr before t pause he
        exact ⟨y.world.now, rfl, hle, heq⟩
      refine ⟨hk.note rfl hpaced (by simp [Note.isHeld]) hz, .asking rfl hb (.concat (by simp)) ?_⟩
      rw [heldIn_concat]
      exact hh.resolve_right (Nat.not_le_of_lt hlt)
  | asks steps =>
    cases hpose with
    | asking ha hb hr hh =>
      rw [List.append_nil]
      exact ⟨hk, .asking rfl hb hr hh⟩
  | misses =>
    cases hpose with
    | asking ha hb hr hh =>
      rw [List.append_nil, hdeadline (by simp), ← hp']
      rw [hs.owner] at hp'
      exact atPose_pausing hk hb hr hh hp'
  | retries fault =>
    cases hpose with
    | asking ha hb hr hh =>
      have hz := htime (by simp)
      have hpaced := hk.paced.concat_restless (n := .failed y.world.now fault) hr (by simp)
      have hnote := hk.note rfl hpaced (by simp [Note.isHeld]) hz
      have hh' : client.leastPause * heldIn (y.log ++ [.failed y.world.now fault]) +
          w₀.now ≤ y.world.now := by
        rw [heldIn_concat]
        exact hh
      rw [hdeadline (by simp), ← hp']
      rw [hs.owner] at hp'
      exact atPose_pausing hnote hb (.concat (by simp)) hh' hp'
  | held roll hpause =>
    cases hpose with
    | asking ha hb hr hh =>
      have hz := htime (by simp)
      rw [hs.owner, hdeadline (by simp)] at hpause
      rw [hdeadline (by simp), ← hp']
      exact atPose_resting hk hb hr hh roll hpause hp' hz
  | resumes hh =>
    cases hpose with
    | pausing he hb hr hheld ht =>
      rw [List.append_nil]
      exact ⟨hk, .asking rfl (Nat.le_trans hb (he.mark_le hh)) hr hheld⟩
  | wakes hh =>
    cases hpose with
    | @resting _ before t pause he hb hl ht hle hheld =>
      rw [List.append_nil]
      have hover := ht.over he hh
      refine ⟨hk, .trying rfl (Nat.le_trans hb (he.mark_le hh)) ?_ ?_⟩
      · intro before' t' pause' he'
        rw [hl] at he'
        have hlast := List.append_inj_right' he' rfl
        cases hlast
        exact hover
      · rcases hheld with hheld | hheld
        · exact .inl (Nat.le_trans hheld hover.1)
        · exact .inr (hheld ▸ hover.1)

omit [Keeper S C] in
theorem leads_rank_lt (hk : Kept rounds w₀ client y.world y.log y.briefs)
    (hs : Stands rounds w₀ client y a) (hl : Leads y.world a a.pose notes a'.pose) :
    a'.pose.rank client.settings.acquireTimeout a.deadline y.world.now <
      a.pose.rank client.settings.acquireTimeout a.deadline y.world.now +
        8 * if a'.pose.isBrief a.deadline then 1 else 0 := by
  have hlimit := hs.deadline hl.ne_entering.1
  have hpose := hs.pose
  have hends : ∀ till, a.pose = .pausing till ∨ a.pose = .resting till →
      Ends rounds w₀.now y.world.now till := by
    rintro till (hp | hp)
    · rw [hp] at hpose
      cases hpose with
      | pausing he => exact he
    · rw [hp] at hpose
      cases hpose with
      | resting he => exact he
  refine hl.rank_lt client.settings.acquireTimeout (hlimit ▸ hk.inTime) ?_
    fun till hp => hends till (.inr hp)
  intro till hp hh
  refine ⟨hends till (.inl hp), fun t n ht => ?_⟩
  rw [hp] at hpose
  cases hpose with
  | pausing _ _ _ _ hround =>
    rcases hround t n ht with hlt | ⟨-, hnot⟩
    · rw [hlimit]
      exact hlt
    · exact absurd hh (by rw [hnot]; exact Bool.false_ne_true)

omit [Keeper S C] in
/-- An acquisition ends with a step. -/
theorem Sound.ends (hs : Stands rounds w₀ client y a)
    (hk : Kept rounds w₀ client w' (y.log ++ notes) y.briefs) {r : Except (LockError Fault) Unit}
    (ht : r = .error .lockAcquireTimeout → limit w₀ client ≤ w'.now)
    (he : client.settings.acquireTimeout = 0 → r = .error .lockAcquireTimeout ∨
      r = .error .canceled ∨ r = .error .locksAlreadyAcquired) :
    Sound rounds w₀ client (y.after w' notes (.ends r)) where
  kept := hk
  stands := nofun
  ended r' hr := by
    cases hr
    refine ⟨ht, he, ?_⟩
    have hmoves := hs.moves
    have hpos := a.pose.rank_pos client.settings.acquireTimeout a.deadline y.world.now
    change y.moves + 1 ≤ _
    exact Nat.le_trans (Nat.add_le_add_left hpos _) hmoves

omit [Keeper S C] in
/-- An acquisition goes on at one time. -/
theorem Sound.moves (hs : Stands rounds w₀ client y a) (hw : Still y.world w')
    (hclient : a'.client = a.client) (hd : a'.deadline = limit w₀ client)
    (hapt : a'.Apt y.world.now)
    (hearly : client.settings.acquireTimeout = 0 → a'.pose = .entering ∨ a'.pose = .trying)
    (hrank : a'.pose.rank client.settings.acquireTimeout a'.deadline y.world.now <
      a.pose.rank client.settings.acquireTimeout a.deadline y.world.now +
        8 * if a'.pose.isBrief a'.deadline then 1 else 0)
    (hat : Kept rounds w₀ client y.world (y.log ++ notes)
        (y.briefs + if a'.pose.isBrief a'.deadline then 1 else 0) ∧
      AtPose rounds w₀ client y.world true (y.log ++ notes)
        (y.briefs + if a'.pose.isBrief a'.deadline then 1 else 0) a'.pose) :
    Sound rounds w₀ client (y.after w' notes (.moves a')) where
  kept := hat.1.still hw
  stands b hb := by
    cases hb
    refine ⟨hclient.trans hs.owner, fun _ => hd, ?_, hearly, ?_, hat.2.still hw⟩
    · change a'.Apt w'.now
      rw [hw.now]
      exact hapt
    · have hmoves := hs.moves
      change y.moves + 1 + a'.pose.rank _ a'.deadline w'.now ≤
        8 * (_ + (y.briefs + if a'.pose.isBrief a'.deadline then 1 else 0)) + 8
      rw [hw.now]
      omega
  ended := nofun

omit [Keeper S C] in
/-- An acquisition begins. -/
theorem Sound.enters (h : Sound rounds w₀ client y) (hs : Stands rounds w₀ client y a)
    (hw : Still y.world w') (hpose : a.pose = .entering) (hclient : a'.client = a.client)
    (hd : a'.deadline = y.world.now + a.client.settings.acquireTimeout)
    (hpose' : a'.pose = .trying) (hapt : a'.Apt y.world.now) :
    Sound rounds w₀ client (y.after w' [] (.moves a')) := by
  have hat := hs.pose
  rw [hpose] at hat
  cases hat with
  | entering hl ha hn hb =>
    rw [hs.owner, hn] at hd
    have hbrief : a'.pose.isBrief a'.deadline = false := by rw [hpose']; rfl
    refine .moves hs hw hclient hd hapt (fun _ => .inr hpose') ?_ ?_
    · have hleft : a'.deadline - y.world.now = client.settings.acquireTimeout := by
        rw [hd, hn]
        exact Nat.add_sub_cancel_left ..
      rw [hbrief, hpose', hpose]
      simp only [Pose.rank, hleft]
      exact Nat.lt_succ_self _
    · have hk := h.kept
      rw [hl, hb] at hk
      rw [hbrief, hpose', hl, hb]
      refine ⟨hk, .trying rfl (Nat.zero_le _) ?_ (.inl ?_)⟩
      · intro before t pause he
        cases before <;> cases he
      · rw [hn]
        exact Nat.le_of_eq (Nat.zero_add _)

omit [Keeper S C] in
/-- An acquisition comes from one pose to the next. -/
theorem Sound.goesOn (h : Sound rounds w₀ client y) (hs : Stands rounds w₀ client y a)
    (hw : Still y.world w') (hl : Leads y.world a a.pose notes a'.pose)
    (hclient : a'.client = a.client) (hd : a'.deadline = a.deadline)
    (hapt : a'.Apt y.world.now) : Sound rounds w₀ client (y.after w' notes (.moves a')) := by
  have hne := hl.ne_entering.1
  have hlimit := hs.deadline hne
  refine .moves hs hw hclient (hd.trans hlimit) hapt ?_ ?_ (leads h.kept hs hl hd)
  · -- without time there would be no attempt
    intro hz
    rw [(hs.early hz).resolve_left hne] at hl
    generalize a'.pose = p' at hl
    cases hl with
    | tries hlt =>
      rw [hlimit, limit, hz] at hlt
      exact absurd h.kept.forth (Nat.not_le_of_lt hlt)
  · rw [hd]
    exact leads_rank_lt h.kept hs hl

omit [Keeper S C] in
/-- A turn of an acquisition ends while it pauses. -/
theorem Sound.waits {till : Event} (h : Sound rounds w₀ client y)
    (hs : Stands rounds w₀ client y a) (hw : Still y.world w')
    (hpose : a.pose = .pausing till ∧ y.world.now < a.deadline ∨ a.pose = .resting till) :
    Sound rounds w₀ client (y.after w' [] (.waits a)) := by
  have hne : a.pose ≠ .entering := by
    rcases hpose with ⟨hpose, -⟩ | hpose <;> simp [hpose]
  have hat := (atPose_waits hs.pose (hs.deadline hne ▸ hpose)).still hw
  have hafter : y.after w' [] (.waits a) =
      { y with world := w', call := .inl a, amid := false } := by
    rw [Course.after, List.append_nil]
  rw [hafter]
  refine ⟨h.kept.still hw, ?_, nofun⟩
  rintro a' ⟨⟩
  refine ⟨hs.owner, hs.deadline, ?_, hs.early, ?_, hat⟩
  · rw [hw.now]
    exact hs.apt
  · rw [hw.now]
    exact hs.moves

/-- What holds of a course is kept by every step. -/
theorem Sound.work (h : Sound rounds w₀ client y) : Sound rounds w₀ client y.work := by
  cases hc : y.call with
  | inr r =>
    rw [Course.work, hc]
    exact h
  | inl a =>
    have hs := h.stands a hc
    have hwork : y.work = y.after (a.step y.world (!y.amid)).1 (a.notes y.world (!y.amid))
        (a.step y.world (!y.amid)).2 := by rw [Course.work, hc]
    -- of the step only matters what it comes to, at one time
    obtain ⟨hw, hp, happ⟩ := steps y.world (!y.amid) hs.apt
    rw [hwork]
    generalize (a.step y.world (!y.amid)).1 = w' at hw
    generalize (a.step y.world (!y.amid)).2 = s at hp happ
    generalize a.notes y.world (!y.amid) = notes at hp
    have hnil : Kept rounds w₀ client w' (y.log ++ []) y.briefs := by
      rw [List.append_nil]
      exact h.kept.still hw
    cases hp with
    | leaves he =>
      refine .ends hs hnil ?_ fun _ => .inr ?_
      · rintro ⟨⟩
        simp at he
      · rcases he with rfl | rfl
        · exact .inl rfl
        · exact .inr rfl
    | fails hpose hn =>
      have hz := hs.hasTime ⟨hpose.1, hpose.2.1⟩
      refine .ends hs ?_ (by simp) fun he => absurd he hz
      rcases hn with rfl | ⟨fault, rfl⟩
      · exact hnil
      · have hpaced := h.kept.paced.concat_restless (n := .failed y.world.now fault)
          (hs.pose.restless hpose) (by simp)
        exact (h.kept.note rfl hpaced (by simp [Note.isHeld]) hz).still hw
    | takes hpose =>
      have hz : client.settings.acquireTimeout ≠ 0 := hs.hasTime (by simp [hpose])
      have hpaced := h.kept.paced.concat_restless (n := .took y.world.now)
        (hs.pose.restless (by simp [hpose])) (by simp)
      have hnoted := h.kept.note rfl hpaced (by simp [Note.isHeld]) hz
      exact .ends hs (hnoted.still hw) (by simp) fun he => absurd he hz
    | expires hne hd =>
      rw [hs.deadline hne, ← hw.now] at hd
      exact .ends hs hnil (fun _ => hd) fun _ => .inl rfl
    | enters hpose hclient hd hpose' =>
      exact h.enters hs hw hpose hclient hd hpose' (happ _ rfl)
    | goesOn hl hclient hd => exact h.goesOn hs hw hl hclient hd (happ _ rfl)
    | waits hpose _ => exact h.waits hs hw hpose

end Work

/-! ## What the passing of time keeps -/

section Passing

variable {rounds : Nat} {w₀ w w' : World (Guarded S) C} {client : LockClient} {y : Course S C}
  {a : Acquisition C} {log : List Note} {briefs : Nat} {p : Pose} {till : Event}

omit [Site S C] [Keeper S C] in
/-- Whoever pauses is not about to begin an execution. -/
theorem Apt.later {now now' : Millis} (h : a.Apt now)
    (hp : a.pose = .pausing till ∨ a.pose = .resting till) : a.Apt now' := by
  intro e he
  refine ⟨(h e he).client, ?_, (h e he).deadline⟩
  intro timeout hent
  rcases hp with hp | hp
  · obtain ⟨e', he', hrest⟩ := phase_of_pausing hp
    rw [he] at he'
    cases he'
    rw [hent] at hrest
    cases hrest
  · rw [phase_of_resting hp] at he
    cases he

omit [Site S C] in
/-- What an acquisition waits for that pauses amid an execution. -/
theorem deadline_mem_wakes {now : Millis} (h : a.Apt now) (hp : a.pose = .pausing till) :
    .time a.deadline ∈ a.wakes (S := S) := by
  obtain ⟨e, he, hrest⟩ := phase_of_pausing hp
  have hd : e.deadline = a.deadline := (h e he).deadline (by simp [hrest])
  simp [wakes, he, Execution.wakes, hrest, hd]

omit [Site S C] in
theorem wakes_of_resting (hp : a.pose = .resting till) :
    a.wakes (S := S) = a.context.toList.map .cancellation ++ till :: a.latest till := by
  rw [wakes, phase_of_resting hp]

omit [Keeper S C] in
/-- Someone who has ended a turn pauses. -/
theorem AtPose.pauses (h : AtPose rounds w₀ client w false log briefs p) :
    ∃ till, p = .pausing till ∨ p = .resting till := by
  cases h with
  | @pausing till => exact ⟨till, .inl rfl⟩
  | @resting till => exact ⟨till, .inr rfl⟩
  | _ => contradiction

omit [Site S C] in
theorem mem_wakes_of_resting (hp : a.pose = .resting till) : till ∈ a.wakes (S := S) := by
  rw [wakes_of_resting hp]
  exact List.mem_append_right _ (List.mem_cons_self ..)

/-- An acquisition that has ended a turn waits for the deadline or an earlier time, unless it waits
for the next round and for no time. -/
theorem Stands.expects (hs : Stands rounds w₀ client y a) (hin : y.world.now ≤ limit w₀ client)
    (ha : y.amid = false) : (∃ t ≤ limit w₀ client, .time t ∈ a.wakes (S := S)) ∨
      (∀ t, .time t ∉ a.wakes (S := S)) ∧
        ∃ n ≤ y.world.round + 1, .round y.world.now n ∈ a.wakes (S := S) := by
  have hpose := hs.pose
  have hdeadline := hs.deadline
  rw [ha] at hpose
  generalize hq : a.pose = q at hpose hdeadline
  cases hpose with
  | entering _ ha => cases ha
  | trying ha => cases ha
  | asking ha => cases ha
  | pausing =>
    have hmem : .time a.deadline ∈ a.wakes (S := S) := deadline_mem_wakes hs.apt hq
    exact .inl ⟨a.deadline, Nat.le_of_eq (hdeadline (by simp)), hmem⟩
  | @resting _ _ t _ he hb hl hends hle =>
    cases hends with
    | time => exact .inl ⟨_, hle, mem_wakes_of_resting hq⟩
    | round hz hn =>
      cases he with
      | round _ hpast =>
        have hwakes := wakes_of_resting (S := S) hq
        rw [latest, hdeadline (by simp)] at hwakes
        split at hwakes
        case isTrue => exact .inl ⟨_, Nat.le_refl _, by simp [hwakes]⟩
        case isFalse hlt =>
          -- the pause has begun at the deadline, which is the present
          obtain rfl : y.world.now = t :=
            Nat.le_antisymm (Nat.le_trans hin (Nat.le_of_not_lt hlt)) hpast
          exact .inr ⟨by simp [hwakes], _, hn rfl, mem_wakes_of_resting hq⟩

/-- The clock does not leave the deadline behind. -/
theorem passes_inTime (hs : Stands rounds w₀ client y a) (hin : y.world.now ≤ limit w₀ client)
    (hp : Passes rounds false a y.world w) (ha : y.amid = false) : w.now ≤ limit w₀ client := by
  rcases hs.expects hin ha with ⟨t, ht, hmem⟩ | ⟨hnone, -⟩
  · exact Nat.le_trans (hp.timely t hmem) (Nat.max_le.2 ⟨hin, ht⟩)
  · rw [hp.still hnone]
    exact hin

/-- An acquisition that pauses still stands where it did when time has passed. -/
theorem AtPose.passes (h : AtPose rounds w₀ client w false log briefs a.pose)
    (hp : Passes rounds false a w w') : AtPose rounds w₀ client w' false log briefs a.pose := by
  generalize hq : a.pose = q at h
  cases h with
  | entering _ ha => cases ha
  | trying ha => cases ha
  | asking ha => cases ha
  | pausing he hb hr hh ht =>
    refine .pausing (he.later hp.forth) hb hr (Nat.le_trans hh hp.forth) fun t n hround => ?_
    rcases ht t n hround with hlt | ⟨ha, -⟩
    · exact .inl hlt
    · cases ha
  | resting he hb hl ht hle hh =>
    refine .resting (he.later hp.forth) hb hl ?_ hle hh
    cases ht with
    | time hpos hn =>
      have htimely := hp.timely _ (mem_wakes_of_resting hq)
      exact .time hpos (Nat.le_trans htimely (Nat.max_le.2 ⟨hn, Nat.le_refl _⟩))
    | round hz hn =>
      refine .round hz fun hnow => ?_
      cases he with
      | round _ hle' =>
        -- the pause has begun at the present time, so that the round has only gone on
        have hsame := Nat.le_antisymm (hnow ▸ hp.forth) hle'
        have hgone := hp.inOrder (hnow.trans hsame.symm)
        exact Nat.le_trans (hn hsame) (Nat.succ_le_succ hgone)

/-- What holds of a course is kept while time passes. -/
theorem Sound.passes (h : Sound rounds w₀ client y) (hc : y.call = .inl a)
    (hp : Passes rounds y.amid a y.world w) : Sound rounds w₀ client { y with world := w } := by
  have hs := h.stands a hc
  obtain ⟨hk, hapt, hrank, hat⟩ : Kept rounds w₀ client w y.log y.briefs ∧ a.Apt w.now ∧
      a.pose.rank client.settings.acquireTimeout a.deadline w.now =
        a.pose.rank client.settings.acquireTimeout a.deadline y.world.now ∧
      AtPose rounds w₀ client w y.amid y.log y.briefs a.pose := by
    cases ha : y.amid with
    | true =>
      have hw := hp.within ha
      rw [hw.now]
      exact ⟨h.kept.still hw, hs.apt, rfl, ha ▸ hs.pose.still hw⟩
    | false =>
      have hpose := hs.pose
      rw [ha] at hp hpose
      obtain ⟨till, hpause⟩ := hpose.pauses
      refine ⟨?_, hs.apt.later hpause, a.pose.rank_of_pause _ _ _ _ hpause, hpose.passes hp⟩
      exact { h.kept with
        forth := Nat.le_trans h.kept.forth hp.forth
        inTime := passes_inTime hs h.kept.inTime hp ha
        inRounds := hp.inRounds
        noted := fun n hn => Nat.le_trans (h.kept.noted n hn) hp.forth }
  refine ⟨hk, ?_, ?_⟩
  · intro a' ha
    rw [hc] at ha
    cases ha
    refine ⟨hs.owner, hs.deadline, hapt, hs.early, ?_, hat⟩
    rw [hrank]
    exact hs.moves
  · intro r hr
    rw [hc] at hr
    cases hr

end Passing

/-! ## Every course -/

section Every

variable {rounds : Nat} {w₀ w : World (Guarded S) C} {client : LockClient} {y : Course S C}
  {a : Acquisition C}

omit [Keeper S C] in
/-- An acquisition that begins. -/
theorem Sound.begins {context : Option String} {lock : Nat} (h : w₀.round ≤ rounds) :
    Sound rounds w₀ client { world := w₀, call := .inl { client, context, lock } } where
  kept :=
    { forth := Nat.le_refl _
      inTime := Nat.le_add_right _ _
      inRounds := h
      noted := nofun
      paced := paced_nil
      held := Nat.zero_le _
      few := Nat.zero_le _
      unhurried := fun _ _ => rfl
      early := fun _ => rfl }
  stands a ha := by
    cases ha
    refine ⟨rfl, fun hne => absurd rfl hne, nofun, fun _ => .inl rfl, ?_, .entering rfl rfl rfl rfl⟩
    have hle := tryRank_le client.settings.acquireTimeout
    change 0 + (tryRank client.settings.acquireTimeout + 1) ≤
      8 * (client.settings.acquireTimeout + 0) + 8
    omega
  ended := nofun

theorem Reached.sound (h : Reached rounds w₀ client y) : Sound rounds w₀ client y := by
  induction h with
  | begins h => exact .begins h
  | works _ ih => exact ih.work
  | passes _ hc hp ih => exact ih.passes hc hp

/-- An acquisition goes on as soon as something has come about that it waits for. -/
theorem Stands.awake (h : Stands rounds w₀ client y a) {event : Event}
    (hmem : event ∈ a.wakes (S := S)) (hh : y.world.hasHappened event = true)
    (a' : Acquisition C) : (a.step y.world true).2 ≠ .waits a' := by
  intro hstep
  have hp := (steps y.world true h.apt).paces
  rw [hstep] at hp
  generalize a.notes y.world true = notes at hp
  cases hp with
  | waits _ hw =>
    have hnot := hw rfl event hmem
    rw [hh] at hnot
    cases hnot

omit [Keeper S C] in
theorem Sound.moves_le (h : Sound rounds w₀ client y) :
    y.moves ≤ 8 * (client.settings.acquireTimeout + y.briefs) + 8 := by
  cases hc : y.call with
  | inl a => exact Nat.le_of_add_right_le (h.stands a hc).moves
  | inr r => exact (h.ended r hc).moves

/-! ### Schedules -/

/-- How far a course has come. A turn that ends without a step counts too, until the next step. -/
def Course.effort (y : Course S C) : Nat := 2 * y.moves + if y.amid then 0 else 1

/-- Whoever takes a turn has more effort behind him, or has ended. -/
theorem Sound.effort_lt (h : Sound rounds w₀ client y) (hc : y.call = .inl a)
    (hwoken : y.amid = false →
      ∃ event ∈ a.wakes (S := S), y.world.hasHappened event = true) :
    y.effort < y.work.effort := by
  have hwork : y.work = y.after (a.step y.world (!y.amid)).1 (a.notes y.world (!y.amid))
      (a.step y.world (!y.amid)).2 := by rw [Course.work, hc]
  rw [hwork]
  cases hstep : (a.step y.world (!y.amid)).2 with
  | waits a' =>
    cases ha : y.amid with
    | true => simp [Course.effort, Course.after, ha]
    | false =>
      obtain ⟨event, hmem, hh⟩ := hwoken ha
      rw [ha] at hstep
      exact absurd hstep ((h.stands a hc).awake hmem hh a')
  | moves a' =>
    simp only [Course.effort, Course.after, if_true]
    split <;> omega
  | ends r =>
    simp only [Course.effort, Course.after, Bool.false_eq_true, if_false]
    split <;> omega

/-- On a schedule an acquisition ends, or has taken many steps. -/
theorem Scheduled.effort_le {f : Nat → Course S C} (hf : Scheduled rounds f)
    (h : Reached rounds w₀ client (f 0)) (n : Nat) :
    (∃ k r, Reached rounds w₀ client (f k) ∧ (f k).call = .inr r) ∨
      Reached rounds w₀ client (f n) ∧ n ≤ (f n).effort := by
  induction n with
  | zero => exact .inr ⟨h, Nat.zero_le _⟩
  | succ n ih =>
    -- unless it has ended, time passes and it takes a turn, which is one effort more
    rcases ih with hended | ⟨hn, hle⟩
    · exact .inl hended
    · cases hc : (f n).call with
      | inr r => exact .inl ⟨n, r, hn, hc⟩
      | inl a =>
        obtain ⟨w, hp, hwoken, hnext⟩ := hf n a hc
        have hpassed := hn.passes hc hp
        have hlt := hpassed.sound.effort_lt hc hwoken
        rw [hnext]
        exact .inr ⟨hpassed.works, Nat.lt_of_le_of_lt hle hlt⟩

theorem Scheduled.returns {f : Nat → Course S C} (hf : Scheduled rounds f)
    (h : Reached rounds w₀ client (f 0)) :
    ∃ n r, (f n).call = .inr r ∧ (f n).world.now ≤ limit w₀ client := by
  -- the bound on the steps of a course, whatever its number of pauses of no time
  have hbound : ∀ y, Reached rounds w₀ client y → y.effort ≤
      2 * (8 * (client.settings.acquireTimeout +
        client.settings.acquireTimeout * (rounds + 1)) + 8) + 1 := by
    intro y hy
    have hfew := hy.sound.kept.few
    have hmoves := hy.sound.moves_le
    unfold Course.effort
    split <;> omega
  obtain ⟨n, r, hn, hr⟩ | ⟨hn, hle⟩ := hf.effort_le h
    (2 * (8 * (client.settings.acquireTimeout +
      client.settings.acquireTimeout * (rounds + 1)) + 8) + 2)
  · exact ⟨n, r, hr, hn.sound.kept.inTime⟩
  · exact absurd (Nat.le_trans hle (hbound _ hn)) (Nat.not_succ_le_self _)

omit [Site S C] in
/-- The clock goes on to a time that the acquisition waits for, or to an earlier one. -/
theorem passes_setClock {t : Millis} (hlt : w.now < t)
    (hle : ∀ t', .time t' ∈ a.wakes (S := S) → t ≤ t')
    (hsome : ∃ t', .time t' ∈ a.wakes (S := S)) : Passes rounds false a w (w.setClock t) where
  forth := Nat.le_of_lt hlt
  inRounds := Nat.zero_le _
  inOrder he := absurd he (Nat.ne_of_gt hlt)
  within := nofun
  timely t' hmem := Nat.le_trans (hle t' hmem) (Nat.le_max_right _ _)
  still hnone := by
    obtain ⟨t', hmem⟩ := hsome
    exact absurd hmem (hnone t')

/-- An acquisition that waits for a time, and nothing else, sees it come. -/
theorem Reached.sleeps (h : Reached rounds w₀ client y) (hc : y.call = .inl a)
    (ha : y.amid = false) {t : Millis} (hw : a.wakes (S := S) = [.time t])
    (hlt : y.world.now < t) : Reached rounds w₀ client { y with world := y.world.setClock t } := by
  refine h.passes hc (ha ▸ passes_setClock hlt (fun t' hmem => ?_) ⟨t, ?_⟩)
  · rw [hw] at hmem
    cases List.mem_singleton.1 hmem
    exact Nat.le_refl t
  · rw [hw]
    exact List.mem_singleton_self _

/-- Every acquisition keeps its deadline, whatever happens in the world, and its pauses last for no
less than the whole milliseconds of the least pause that the settings say: for no less than that
pause, if it is a whole number of milliseconds. -/
theorem punctual_run (h : Reached rounds w₀ client y) :
    Punctual rounds w₀ client client.leastPause y ∧
      (client.IsWhole client.settings.retryWaitMin →
        Punctual rounds w₀ client client.settings.retryWaitMin y) := by
  have hy := h.sound
  have hk := hy.kept
  suffices hleast : Punctual rounds w₀ client client.leastPause y by
    refine ⟨hleast, fun hwhole => ?_⟩
    rw [← client.leastPause_of_isWhole hwhole]
    exact hleast
  constructor
  case inTime => exact hk.inTime
  case attempts => exact fun n hn => Nat.le_trans (hk.noted n hn) hk.inTime
  case timeout => exact fun hr => Nat.le_antisymm hk.inTime ((hy.ended _ hr).timeout rfl)
  case atOnce =>
    intro hz
    refine ⟨hk.early hz, fun a hc => ?_, fun r hr => (hy.ended r hr).early hz⟩
    have hs := hy.stands a hc
    have hpose := hs.pose
    rcases hs.early hz with hq | hq
    · rw [hq] at hpose
      cases hpose with
      | entering _ ha => exact ha
    · rw [hq] at hpose
      cases hpose with
      | trying ha => exact ha
  case paced => exact hk.paced.mono client.longestPause_le
  case held =>
    intro hmin
    have hheld := hk.held
    rw [← Nat.add_div_right _ hmin, Nat.le_div_iff_mul_le hmin, Nat.mul_comm]
    exact hheld
  case moves => exact hy.moves_le
  case briefs => exact hk.few
  case unhurried => exact hk.unhurried
  case returns =>
    rintro f rfl hf
    exact hf.returns h
  case expects =>
    intro a hc ha
    exact ((hy.stands a hc).expects hk.inTime ha).imp_right And.right
  case awake => exact fun a hc event hmem hh => (hy.stands a hc).awake hmem hh

end Every

section Rehearsed

open Rehearsal

/-- A client that gives up after twenty-five milliseconds, and pauses for ten. -/
def impatient : LockClient :=
  { client := ⟨⟨0⟩, 1000, 1000, 10, "root"⟩
    settings := { acquireTimeout := 25, retryWaitMin := 10, retryWaitMax := 10 } }

/-- A world with a lock whose key is taken, and the client. -/
def contested : World (Guarded Vault) Unit :=
  { site :=
      { store := { entries := Table.empty.insert (lockKey "a") ⟨"another", 9999⟩ }
        locks := [{ resources := ["a"] }] }
    supervisor := Supervisor.enroll {} impatient.client.id (some ()) }

/-- An acquisition of a key that stays taken. It tries three times, and the deadline cuts the last
pause short. -/
theorem punctual_contested : ∃ y, Reached 0 contested impatient y ∧
    y.call = .inr (.error .lockAcquireTimeout) ∧ y.world.now = 25 ∧
      y.log = [.tries 0, .held 0 10, .tries 10, .held 10 10, .tries 20, .held 20 5] ∧
      Punctual 0 contested impatient 10 y := by
  have hbegins : Reached 0 contested impatient
      { world := contested, call := .inl { client := impatient, context := none, lock := 0 } } :=
    .begins (Nat.zero_le 0)
  let rests (t : Millis) : Acquisition Unit :=
    ⟨impatient, none, 0, Identifier.text ⟨1⟩, 25, .resting (.time t)⟩
  -- each attempt finds the key taken, and the acquisition pauses
  have hfirst := hbegins.works.works.works.works.works.works.sleeps (a := rests 10) (t := 10)
    rfl rfl rfl (by decide)
  have hsecond := hfirst.works.works.works.works.works.works.sleeps (a := rests 20) (t := 20)
    rfl rfl rfl (by decide)
  have hthird := hsecond.works.works.works.works.works.works.sleeps (a := rests 25) (t := 25)
    rfl rfl rfl (by decide)
  have hlast := hthird.works.works
  exact ⟨_, hlast, rfl, rfl, rfl, (punctual_run hlast).2 ⟨10, by decide, rfl⟩⟩

/-- A client with a clock of microseconds that gives up after four milliseconds, and is to pause for
1.999 milliseconds. -/
def fractional : LockClient :=
  { client := ⟨⟨0⟩, 1000000, 1000000, 10000, "root"⟩
    settings := { acquireTimeout := 4000, retryWaitMin := 1999, retryWaitMax := 1999 }
    milli := 1000 }

/-- An acquisition that pauses for a millisecond only, and so tries once more than its settings
allow. -/
theorem unpunctual_fraction : ∃ y, Reached 0 contested fractional y ∧
    y.call = .inr (.error .lockAcquireTimeout) ∧
      y.log = [.tries 0, .held 0 1000, .tries 1000, .held 1000 1000, .tries 2000,
        .held 2000 1000, .tries 3000, .held 3000 1000] ∧
      fractional.milli ≤ fractional.settings.retryWaitMin ∧
      fractional.settings.acquireTimeout / fractional.settings.retryWaitMin + 1 < heldIn y.log ∧
      ¬ Punctual 0 contested fractional fractional.settings.retryWaitMin y := by
  have hbegins : Reached 0 contested fractional
      { world := contested, call := .inl { client := fractional, context := none, lock := 0 } } :=
    .begins (Nat.zero_le 0)
  let rests (t : Millis) : Acquisition Unit :=
    ⟨fractional, none, 0, Identifier.text ⟨1⟩, 4000, .resting (.time t)⟩
  have hfirst := hbegins.works.works.works.works.works.works.sleeps (a := rests 1000) (t := 1000)
    rfl rfl rfl (by decide)
  have hsecond := hfirst.works.works.works.works.works.works.sleeps (a := rests 2000) (t := 2000)
    rfl rfl rfl (by decide)
  have hthird := hsecond.works.works.works.works.works.works.sleeps (a := rests 3000) (t := 3000)
    rfl rfl rfl (by decide)
  have hfourth := hthird.works.works.works.works.works.works.sleeps (a := rests 4000) (t := 4000)
    rfl rfl rfl (by decide)
  refine ⟨_, hfourth.works.works, rfl, rfl, by decide, by decide, fun hp => ?_⟩
  have hheld : 4 ≤ 4000 / 1999 + 1 := hp.held (by decide)
  exact absurd hheld (by decide)

end Rehearsed

/-! ## The schedule -/

section Schedule

variable {Q R : Type} (m : Machine (Guarded S) C Q R) (s : Session (Guarded S) C Q R)
  {rounds : Nat} {w₀ : World (Guarded S) C} {client : LockClient} {y : Course S C}
  {a : Acquisition C} {patience : Millis}

omit [Site S C] [Keeper S C] in
theorem lt_nextTime {more : List Event} (hl : s.world.now < patience) :
    s.world.now < s.nextTime m more patience := by
  refine (List.le_min_iff (l := patience :: _) (List.cons_ne_nil _ _)).2 fun t ht => ?_
  rcases List.mem_cons.1 ht with rfl | ht
  · exact hl
  · exact of_decide_eq_true (List.mem_filter.1 ht).2

/-- While nobody can take a turn, the schedule goes on as an acquisition may expect that has ended
its turn, as long as it has rounds left: in another round, or at the next time that somebody waits
for. -/
theorem passes_goOn (h : Reached rounds w₀ client y) (hc : y.call = .inl a)
    (ha : y.amid = false) (hs : s.world = y.world) (hl : s.world.now < patience)
    (hr : s.world.round < rounds) (hleft : 0 < s.rounds)
    (hw : (a.wakes (S := S)).any s.world.hasHappened = false) :
    Passes rounds y.amid a s.world (s.goOn m (a.wakes (S := S)) patience).world := by
  have hnot : ∀ event ∈ a.wakes (S := S), s.world.hasHappened event = false :=
    fun event hmem => Bool.eq_false_iff.2 (List.any_eq_false.1 hw event hmem)
  cases hn : s.nextRound? m (a.wakes (S := S)) with
  | some s' =>
    have hworld : s'.world = { s.world with round := s.world.round + 1 } := by
      simp only [Session.nextRound?] at hn
      split at hn
      · cases hn
        rfl
      · cases hn
    rw [Session.goOn, hn, Option.getD_some, hworld, ha]
    exact ⟨Nat.le_refl _, hr, fun _ => Nat.le_succ _, by simp, fun t _ => Nat.le_max_left _ _,
      fun _ => rfl⟩
  | none =>
    rw [Session.goOn, hn, Option.getD_none, ha]
    have hlt : s.world.now < s.nextTime m (a.wakes (S := S)) patience := lt_nextTime m s hl
    refine passes_setClock hlt (fun t hmem => nextTime_le m s hmem ?_) ?_
    · simpa [World.hasHappened] using hnot _ hmem
    · have hy := h.sound
      rcases (hy.stands a hc).expects hy.kept.inTime ha with ⟨t, -, hmem⟩ | ⟨-, n, -, hmem⟩
      · exact ⟨t, hmem⟩
      · -- there would have been another round
        rw [← hs] at hmem
        have hround := hnot _ hmem
        simp only [Session.nextRound?] at hn
        split at hn
        · cases hn
        case isFalse hno =>
          refine absurd ?_ hno
          simp only [hleft, decide_true, Bool.true_and, List.any_append, Bool.or_eq_true]
          exact .inl (List.any_eq_true.2 ⟨_, hmem, by rw [hround]; rfl⟩)

end Schedule

end Reconnect.Cache.Acquisition
