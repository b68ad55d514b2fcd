import Reconnect.Proofs.Cache.Countdown

/-!
# Where an acquisition stands

A pause after an attempt that found a key taken lasts for whole milliseconds. So the least and the
longest one are what whole milliseconds there are in the bounds of the settings
(`LockClient.leastPause`, `LockClient.longestPause`): a pause is never longer than the settings say,
but it may be shorter by a part of a millisecond, unless the lower bound has none
(`LockClient.leastPause_of_isWhole`).

The log of an acquisition tells how it has paused after such attempts (`Paced`). `Kept` is what
always holds of the clock and the log, and `AtPose` is what holds in a pose beside that: how often
it has found a key taken, how often it has paused for no time, and when the pause is over that it
is in, if there is one.
-/

namespace Reconnect.Cache

/-! ## Pauses -/

namespace LockClient

variable (c : LockClient)

/-- The least pause after an attempt that found a key taken. -/
def leastPause : Millis := c.milli * c.settings.leastWait c.milli

/-- The longest pause after an attempt that found a key taken. -/
def longestPause : Millis := c.milli * c.settings.longestWait c.milli

/-- Whether a duration is a whole number of milliseconds, of 64 bits. -/
def IsWhole (d : Millis) : Prop := ∃ n ≤ 18446744073709551615, d = c.milli * n

theorem mul_wholeMillis_le (d : Millis) : c.milli * Duration.wholeMillis c.milli d ≤ d :=
  Nat.le_trans (Nat.mul_le_mul_left _ (Nat.min_le_left _ _)) (Nat.mul_div_le d c.milli)

theorem leastPause_le : c.leastPause ≤ c.settings.retryWaitMin :=
  c.mul_wholeMillis_le c.settings.retryWaitMin

theorem longestPause_le :
    c.longestPause ≤ max c.settings.retryWaitMin c.settings.retryWaitMax := by
  have hmin := c.leastPause_le
  have hmax := c.mul_wholeMillis_le c.settings.retryWaitMax
  rw [longestPause, LockSettings.longestWait, ← Nat.mul_max_mul_left]
  exact Nat.max_le.2 ⟨Nat.le_trans hmax (Nat.le_max_right _ _),
    Nat.le_trans hmin (Nat.le_max_left _ _)⟩

/-- Nothing is dropped of a bound that is a whole number of milliseconds. -/
theorem leastPause_of_isWhole (h : c.IsWhole c.settings.retryWaitMin) :
    c.leastPause = c.settings.retryWaitMin := by
  obtain ⟨n, hn, hwait⟩ := h
  rw [leastPause, LockSettings.leastWait, Duration.wholeMillis, hwait]
  rcases Nat.eq_zero_or_pos c.milli with hm | hm
  · rw [hm, Nat.zero_mul, Nat.zero_mul]
  · rw [Nat.mul_div_cancel_left n hm, Nat.min_eq_left hn]

theorem leastPause_le_pause (roll : Nat) : c.leastPause ≤ c.pause roll := by
  have hmin : c.settings.leastWait c.milli ≤ c.settings.longestWait c.milli := Nat.le_max_right _ _
  have hmod : roll % (c.settings.longestWait c.milli - c.settings.leastWait c.milli + 1) ≤
      c.settings.longestWait c.milli - c.settings.leastWait c.milli :=
    Nat.le_of_lt_succ (Nat.mod_lt roll (Nat.succ_pos _))
  refine Nat.mul_le_mul_left _ ?_
  omega

theorem pause_le_longestPause (roll : Nat) : c.pause roll ≤ c.longestPause :=
  Nat.mul_le_mul_left _ (Nat.sub_le _ _)

end LockClient

namespace Acquisition

open Execution

variable {S C : Type}

/-- When the time of an acquisition is up that begins in a world. -/
def limit (w₀ : World (Guarded S) C) (client : LockClient) : Millis :=
  w₀.now + client.settings.acquireTimeout

/-! ## Logs -/

section Logs

/-- How an acquisition pauses after an attempt that found a key taken. -/
structure Paced (least longest limit : Millis) (log : List Note) : Prop where
  /-- A pause keeps within its bounds, unless the deadline cuts it short. -/
  bounds : ∀ t pause, .held t pause ∈ log →
    pause ≤ longest ∧ (least ≤ pause ∨ t + pause = limit)
  /-- Next the acquisition turns to the store again, once the pause is over. -/
  next : ∀ before t pause n after, log = before ++ .held t pause :: n :: after →
    ∃ t', n = .tries t' ∧ t + pause ≤ t' ∧ (0 < pause → t' = t + pause)

/-- How many attempts have found a key taken. -/
def heldIn (log : List Note) : Nat := log.countP Note.isHeld

variable {least longest limit now : Millis} {log : List Note} {n : Note}

/-- The pause is over that the last attempt has led to. -/
def Rested (log : List Note) (now : Millis) : Prop :=
  ∀ before t pause, log = before ++ [.held t pause] →
    t + pause ≤ now ∧ (0 < pause → now = t + pause)

/-- The last attempt has led to no pause. -/
def Restless (log : List Note) : Prop := ∀ before t pause, log ≠ before ++ [.held t pause]

theorem Restless.concat (hn : ∀ t pause, n ≠ .held t pause) : Restless (log ++ [n]) := by
  intro before t pause he
  have hlast := List.append_inj_right' he rfl
  exact hn t pause (List.singleton_inj.1 hlast)

theorem heldIn_concat : heldIn (log ++ [n]) = heldIn log + if n.isHeld then 1 else 0 := by
  rw [heldIn, heldIn, List.countP_append]
  cases hn : n.isHeld <;> simp [hn]

theorem paced_nil : Paced least longest limit [] where
  bounds := nofun
  next before t pause n after he := by cases before <;> cases he

theorem Paced.concat (h : Paced least longest limit log)
    (hb : ∀ t pause, n = .held t pause →
      pause ≤ longest ∧ (least ≤ pause ∨ t + pause = limit))
    (hn : ∀ before t pause, log = before ++ [.held t pause] →
      ∃ t', n = .tries t' ∧ t + pause ≤ t' ∧ (0 < pause → t' = t + pause)) :
    Paced least longest limit (log ++ [n]) where
  bounds t pause hm := by
    rcases List.mem_append.1 hm with hm | hm
    · exact h.bounds t pause hm
    · exact hb t pause (List.mem_singleton.1 hm).symm
  next before t pause n' after he := by
    rcases eq_of_concat_eq he with ⟨-, -, hnil⟩ | ⟨rest, hrest, hlog⟩
    · cases hnil
    · cases rest with
      | nil =>
        cases hrest
        exact hn before t pause hlog
      | cons _ rest =>
        cases hrest
        exact h.next before t pause n' rest hlog

/-- A note that is no pause, where none is due. -/
theorem Paced.concat_restless (h : Paced least longest limit log) (hr : Restless log)
    (hn : ∀ t pause, n ≠ .held t pause) : Paced least longest limit (log ++ [n]) :=
  h.concat (fun t pause he => absurd he (hn t pause))
    fun before t pause he => absurd he (hr before t pause)

/-- The upper bound may be wider. -/
theorem Paced.mono {longest' : Millis} (h : Paced least longest limit log)
    (hle : longest ≤ longest') : Paced least longest' limit log where
  bounds t pause hm := by
    obtain ⟨hpause, hleast⟩ := h.bounds t pause hm
    exact ⟨Nat.le_trans hpause hle, hleast⟩
  next := h.next

/-- A pause that is cut short lasts until the deadline. -/
theorem bounds_of_pause (c : LockClient) (roll : Nat) {pause : Millis} (hn : now ≤ limit)
    (hp : pause = min (c.pause roll) (limit - now)) :
    pause ≤ c.longestPause ∧ (c.leastPause ≤ pause ∨ now + pause = limit) := by
  have hmin := c.leastPause_le_pause roll
  have hmax := c.pause_le_longestPause roll
  unfold Millis at *
  omega

end Logs

/-! ## Where an acquisition stands -/

section Stands

variable {rounds : Nat} {w₀ w w' : World (Guarded S) C} {client : LockClient} {log : List Note}
  {briefs : Nat} {n : Note}

/-- What always holds of the world, the log and the number of pauses of no time. -/
structure Kept (rounds : Nat) (w₀ : World (Guarded S) C) (client : LockClient)
    (w : World (Guarded S) C) (log : List Note) (briefs : Nat) : Prop where
  forth : w₀.now ≤ w.now
  inTime : w.now ≤ limit w₀ client
  inRounds : w.round ≤ rounds
  noted : ∀ n ∈ log, n.time ≤ w.now
  paced : Paced client.leastPause client.longestPause (limit w₀ client) log
  held : client.leastPause * heldIn log ≤
    client.settings.acquireTimeout + client.leastPause
  few : briefs ≤ client.settings.acquireTimeout * (rounds + 1)
  unhurried : 0 < client.leastPause → 0 < client.client.retryWait → briefs = 0
  early : client.settings.acquireTimeout = 0 → log = []

namespace Kept

theorem still (h : Kept rounds w₀ client w log briefs) (hw : Still w w') :
    Kept rounds w₀ client w' log briefs :=
  { h with
    forth := hw.now ▸ h.forth
    inTime := hw.now ▸ h.inTime
    inRounds := hw.round ▸ h.inRounds
    noted := hw.now ▸ h.noted }

theorem note (h : Kept rounds w₀ client w log briefs) (ht : n.time = w.now)
    (hp : Paced client.leastPause client.longestPause (limit w₀ client) (log ++ [n]))
    (hh : n.isHeld = true → client.leastPause * heldIn log + w₀.now ≤ w.now)
    (hb : client.settings.acquireTimeout ≠ 0) : Kept rounds w₀ client w (log ++ [n]) briefs where
  forth := h.forth
  inTime := h.inTime
  inRounds := h.inRounds
  noted n' hm := by
    rcases List.mem_append.1 hm with hm | hm
    · exact h.noted n' hm
    · obtain rfl := List.mem_singleton.1 hm
      exact Nat.le_of_eq ht
  paced := hp
  held := by
    rw [heldIn_concat]
    split
    case isTrue hheld =>
      have hin := h.inTime
      have hsum := hh hheld
      rw [Nat.mul_succ]
      unfold limit at hin
      unfold Millis at *
      omega
    case isFalse => exact h.held
  few := h.few
  unhurried := h.unhurried
  early hz := absurd hz hb

/-- A pause of no time is counted unless the time is up. -/
theorem pause (h : Kept rounds w₀ client w log briefs) (hb : briefs ≤ stamp rounds w₀.now w)
    {p : Pose} (hp : p.isBrief (limit w₀ client) = true → w.now < limit w₀ client)
    (hu : p.isBrief (limit w₀ client) = true →
      0 < client.leastPause → client.client.retryWait = 0) :
    Kept rounds w₀ client w log (briefs + if p.isBrief (limit w₀ client) then 1 else 0) := by
  split
  case isTrue hbrief =>
    refine { h with few := ?_, unhurried := fun hmin hwait => ?_ }
    · have hle := mark_round_le h.forth (hp hbrief) (Nat.succ_le_succ h.inRounds)
      rw [limit, Nat.add_sub_cancel_left] at hle
      exact Nat.le_trans (Nat.succ_le_succ hb) hle
    · rw [hu hbrief hmin] at hwait
      exact absurd hwait (Nat.lt_irrefl 0)
  case isFalse => exact h

end Kept

/-- When a pause is over that has begun at a time. -/
inductive EndsPause (w : World (Guarded S) C) (t pause : Millis) : Event → Prop
  | time (hp : 0 < pause) (hn : w.now ≤ t + pause) : EndsPause w t pause (.time (t + pause))
  | round {n : Nat} (hp : pause = 0) (hn : w.now = t → n ≤ w.round + 1) :
      EndsPause w t pause (.round t n)

variable [Site S C]

theorem EndsPause.over {start t pause : Millis} {till : Event} (h : EndsPause w t pause till)
    (he : Ends rounds start w.now till) (hh : w.hasHappened till = true) :
    t + pause ≤ w.now ∧ (0 < pause → w.now = t + pause) := by
  cases h with
  | time hp hn =>
    have hle := hasHappened_time.1 hh
    exact ⟨hle, fun _ => Nat.le_antisymm hn hle⟩
  | round hp hn =>
    subst hp
    cases he with
    | round hs hle => exact ⟨hle, fun hlt => absurd hlt (Nat.lt_irrefl 0)⟩

/-- Where an acquisition stands in its pose, given what has been noted. Each pause of no time has a
place of its own before the present, or before the end of the pause; and each attempt that has found
a key taken has cost the least pause, unless the deadline has cut the pause short. -/
inductive AtPose (rounds : Nat) (w₀ : World (Guarded S) C) (client : LockClient)
    (w : World (Guarded S) C) (amid : Bool) (log : List Note) (briefs : Nat) : Pose → Prop
  | entering (hl : log = []) (ha : amid = true) (hn : w.now = w₀.now) (hb : briefs = 0) :
      AtPose rounds w₀ client w amid log briefs .entering
  | trying (ha : amid = true) (hb : briefs ≤ stamp rounds w₀.now w) (hr : Rested log w.now)
      (hh : client.leastPause * heldIn log + w₀.now ≤ w.now ∨
        limit w₀ client ≤ w.now) : AtPose rounds w₀ client w amid log briefs .trying
  | asking {steps : Nat} (ha : amid = true) (hb : briefs ≤ stamp rounds w₀.now w)
      (hr : Restless log)
      (hh : client.leastPause * heldIn log + w₀.now ≤ w.now) :
      AtPose rounds w₀ client w amid log briefs (.asking steps)
  | pausing {till : Event} (he : Ends rounds w₀.now w.now till)
      (hb : briefs ≤ mark rounds w₀.now till) (hr : Restless log)
      (hh : client.leastPause * heldIn log + w₀.now ≤ w.now)
      (ht : ∀ t n, till = .round t n →
        t < limit w₀ client ∨ amid = true ∧ w.hasHappened till = false) :
      AtPose rounds w₀ client w amid log briefs (.pausing till)
  | resting {till : Event} {before : List Note} {t pause : Millis}
      (he : Ends rounds w₀.now w.now till) (hb : briefs ≤ mark rounds w₀.now till)
      (hl : log = before ++ [.held t pause]) (ht : EndsPause w t pause till)
      (hle : t + pause ≤ limit w₀ client)
      (hh : client.leastPause * heldIn log + w₀.now ≤ t + pause ∨
        limit w₀ client = t + pause) : AtPose rounds w₀ client w amid log briefs (.resting till)

theorem AtPose.still {amid : Bool} {p : Pose} (h : AtPose rounds w₀ client w amid log briefs p)
    (hw : Still w w') : AtPose rounds w₀ client w' amid log briefs p := by
  have hstamp : stamp rounds w₀.now w' = stamp rounds w₀.now w := by
    rw [stamp, stamp, hw.now, hw.round]
  cases h with
  | entering hl ha hn hb => exact .entering hl ha (hw.now.trans hn) hb
  | trying ha hb hr hh =>
    rw [← hw.now] at hr hh
    exact .trying ha (hstamp ▸ hb) hr hh
  | asking ha hb hr hh => exact .asking ha (hstamp ▸ hb) hr (hw.now ▸ hh)
  | pausing he hb hr hh ht =>
    refine .pausing (hw.now ▸ he) hb hr (hw.now ▸ hh) ?_
    rw [he.hasHappened_still hw]
    exact ht
  | resting he hb hl ht hle hh =>
    refine .resting (hw.now ▸ he) hb hl ?_ hle hh
    cases ht with
    | time hp hn => exact .time hp (hw.now ▸ hn)
    | round hp hn =>
      rw [← hw.now, ← hw.round] at hn
      exact .round hp hn

theorem AtPose.restless {amid : Bool} {p : Pose}
    (h : AtPose rounds w₀ client w amid log briefs p)
    (hp : p ≠ .entering ∧ p ≠ .trying ∧ ∀ till, p ≠ .resting till) : Restless log := by
  cases h with
  | entering => exact absurd rfl hp.1
  | trying => exact absurd rfl hp.2.1
  | asking _ _ hr => exact hr
  | pausing _ _ hr => exact hr
  | resting => exact absurd rfl (hp.2.2 _)

omit [Site S C] in
theorem briefs_le_mark_after (hk : Kept rounds w₀ client w log briefs)
    (hb : briefs ≤ stamp rounds w₀.now w) (brief : Bool) (pause : Millis) :
    (briefs + if brief then 1 else 0) ≤ mark rounds w₀.now (w.after pause) := by
  have hlt := stamp_lt_mark_after hk.forth hk.inRounds pause
  split <;> omega

/-- A pause begins amid an execution. -/
theorem atPose_pausing (hk : Kept rounds w₀ client w log briefs)
    (hb : briefs ≤ stamp rounds w₀.now w) (hr : Restless log)
    (hh : client.leastPause * heldIn log + w₀.now ≤ w.now) {p : Pose}
    (hp : p = .pausing (w.after client.client.retryWait)) :
    Kept rounds w₀ client w log (briefs + if p.isBrief (limit w₀ client) then 1 else 0) ∧
      AtPose rounds w₀ client w true log
        (briefs + if p.isBrief (limit w₀ client) then 1 else 0) p := by
  have hbrief := isBrief_after (limit w₀ client) (.inl hp)
  constructor
  · exact hk.pause hb (fun h => (hbrief h).2) fun h _ => (hbrief h).1
  · have hle := briefs_le_mark_after hk hb (p.isBrief (limit w₀ client)) client.client.retryWait
    generalize p.isBrief (limit w₀ client) = brief at hle ⊢
    subst hp
    refine .pausing (.after hk.forth hk.inRounds _) hle hr hh ?_
    intro t n ht
    rcases Nat.lt_or_ge w.now (limit w₀ client) with hlt | hge
    · left
      rw [World.after] at ht
      split at ht
      · cases ht
        exact hlt
      · cases ht
    · exact .inr ⟨rfl, not_hasHappened_after rfl rfl⟩

/-- A pause begins after an attempt that has found a key taken. -/
theorem atPose_resting (hk : Kept rounds w₀ client w log briefs)
    (hb : briefs ≤ stamp rounds w₀.now w) (hr : Restless log)
    (hh : client.leastPause * heldIn log + w₀.now ≤ w.now) (roll : Nat)
    (hpause : pause = min (client.pause roll) (limit w₀ client - w.now)) {p : Pose}
    (hp : p = .resting (w.after pause)) (hz : client.settings.acquireTimeout ≠ 0) :
    Kept rounds w₀ client w (log ++ [.held w.now pause])
        (briefs + if p.isBrief (limit w₀ client) then 1 else 0) ∧
      AtPose rounds w₀ client w true (log ++ [.held w.now pause])
        (briefs + if p.isBrief (limit w₀ client) then 1 else 0) p := by
  have hbounds := bounds_of_pause client roll hk.inTime hpause
  have hbrief := isBrief_after (limit w₀ client) (.inr hp)
  have hpaced : Paced client.leastPause client.longestPause (limit w₀ client)
      (log ++ [.held w.now pause]) := by
    refine hk.paced.concat ?_ fun before t pause' he => absurd he (hr before t pause')
    rintro t pause' ⟨⟩
    exact hbounds
  constructor
  · have hnote := hk.note (n := .held w.now pause) rfl hpaced (fun _ => hh) hz
    refine hnote.pause hb (fun h => (hbrief h).2) fun h hmin => ?_
    -- a pause of no time before the deadline is within its bounds, so these leave it no choice
    obtain ⟨hzero, hlt⟩ := hbrief h
    rw [hzero, Nat.add_zero] at hbounds
    rcases hbounds.2 with hle | he
    · exact absurd hmin (Nat.not_lt_of_le hle)
    · exact absurd he (Nat.ne_of_lt hlt)
  · have hle := briefs_le_mark_after hk hb (p.isBrief (limit w₀ client)) pause
    generalize p.isBrief (limit w₀ client) = brief at hle ⊢
    subst hp
    refine .resting (.after hk.forth hk.inRounds _) hle rfl ?_ ?_ ?_
    · rw [World.after]
      split
      case isTrue hzero => exact .round hzero fun _ => Nat.le_refl _
      case isFalse hne => exact .time (Nat.pos_of_ne_zero hne) (Nat.le_add_right _ _)
    · have hin := hk.inTime
      unfold Millis at *
      omega
    · have hcount : heldIn (log ++ [.held w.now pause]) = heldIn log + 1 := heldIn_concat
      rw [hcount, Nat.mul_succ]
      rcases hbounds.2 with hle' | he
      · left
        unfold Millis at *
        omega
      · exact .inr he.symm

/-- A turn ends with a pause that is not over. -/
theorem atPose_waits {amid : Bool} {p : Pose} {till : Event}
    (h : AtPose rounds w₀ client w amid log briefs p)
    (hp : p = .pausing till ∧ w.now < limit w₀ client ∨ p = .resting till) :
    AtPose rounds w₀ client w false log briefs p := by
  rcases hp with ⟨rfl, hlt⟩ | rfl
  · cases h with
    | pausing he hb hr hh =>
      refine .pausing he hb hr hh ?_
      rintro t n rfl
      cases he with
      | round _ ht => exact .inl (Nat.lt_of_le_of_lt ht hlt)
  · cases h with
    | resting he hb hl ht hle hh => exact .resting he hb hl ht hle hh

end Stands

end Acquisition

end Reconnect.Cache
