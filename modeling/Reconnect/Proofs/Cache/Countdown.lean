import Reconnect.Proofs.Cache.Attempts

/-!
# How much time is left to an acquisition

A pause ends at a time, or in the next round if it lasts for no time. Times and rounds have places
in one order (`mark`), if no time has more than a given number of rounds; the place of the present
goes up with every pause.

From every pose there are so many steps left at most until the time of an acquisition is up
(`Pose.rank`). A step leaves fewer, unless it begins a pause of no time before the deadline
(`Leads.rank_lt`).
-/

namespace Reconnect.Cache.Acquisition

open Execution

variable {S C : Type}

/-- Whether an acquisition pauses for no time although its time is not up. -/
def Pose.isBrief (deadline : Millis) : Pose → Bool
  | .pausing (.round t _) | .resting (.round t _) => t < deadline
  | _ => false

variable [Site S C]

/-! ## Clocks and rounds -/

section Clock

variable {rounds : Nat} {start now : Millis} {w w' : World (Guarded S) C} {till : Event}

theorem hasHappened_time {t : Millis} : w.hasHappened (.time t) = true ↔ t ≤ w.now :=
  decide_eq_true_iff

theorem hasHappened_round {t : Millis} {n : Nat} :
    w.hasHappened (.round t n) = true ↔ t < w.now ∨ t = w.now ∧ n ≤ w.round := by
  simp [World.hasHappened]

/-- The end of a pause that has begun between two times. -/
inductive Ends (rounds : Nat) (start now : Millis) : Event → Prop
  | time {t : Millis} (hs : start ≤ t) : Ends rounds start now (.time t)
  | round {t : Millis} {n : Nat} (hs : start ≤ t) (ht : t ≤ now) (hn : n ≤ rounds + 1) :
      Ends rounds start now (.round t n)

theorem Ends.later (h : Ends rounds start now till) {now' : Millis} (hn : now ≤ now') :
    Ends rounds start now' till := by
  cases h with
  | time hs => exact .time hs
  | round hs ht hr => exact .round hs (Nat.le_trans ht hn) hr

omit [Site S C] in
theorem Ends.after (hs : start ≤ w.now) (hr : w.round ≤ rounds) (pause : Millis) :
    Ends rounds start w.now (w.after pause) := by
  rw [World.after]
  split
  · exact .round hs (Nat.le_refl _) (Nat.succ_le_succ hr)
  · exact .time (Nat.le_trans hs (Nat.le_add_right _ _))

/-- The place of an event in the order of times and rounds, if no time has more than so many
rounds. -/
def mark (rounds : Nat) (start : Millis) : Event → Nat
  | .time t => (t - start) * (rounds + 1)
  | .round t n => (t - start) * (rounds + 1) + n
  | _ => 0

/-- The place of the present. -/
def stamp (rounds : Nat) (start : Millis) (w : World (Guarded S) C) : Nat :=
  mark rounds start (.round w.now w.round)

/-- A round stands before the next time. -/
theorem mark_round_le {t t' n : Nat} (hs : start ≤ t) (ht : t < t') (hn : n ≤ rounds + 1) :
    (t - start) * (rounds + 1) + n ≤ (t' - start) * (rounds + 1) := by
  have hmul : (t - start + 1) * (rounds + 1) ≤ (t' - start) * (rounds + 1) :=
    Nat.mul_le_mul_right _ (Nat.le_sub_of_add_le (by unfold Millis at *; omega))
  rw [Nat.succ_mul] at hmul
  omega

theorem Ends.mark_le (h : Ends rounds start now till) (hh : w.hasHappened till = true) :
    mark rounds start till ≤ stamp rounds start w := by
  cases h with
  | time hs =>
    have hmul := Nat.mul_le_mul_right (rounds + 1)
      (Nat.sub_le_sub_right (hasHappened_time.1 hh) start)
    exact Nat.le_trans hmul (Nat.le_add_right _ _)
  | round hs ht hn =>
    rcases hasHappened_round.1 hh with hlt | ⟨rfl, hle⟩
    · exact Nat.le_trans (mark_round_le hs hlt hn) (Nat.le_add_right _ _)
    · exact Nat.add_le_add_left hle _

omit [Site S C] in
/-- A pause ends after the present. -/
theorem stamp_lt_mark_after (hs : start ≤ w.now) (hr : w.round ≤ rounds) (pause : Millis) :
    stamp rounds start w < mark rounds start (w.after pause) := by
  rw [World.after]
  split
  case isTrue => exact Nat.lt_succ_self _
  case isFalse hp =>
    have hlt : w.now < w.now + pause := Nat.lt_add_of_pos_right (Nat.pos_of_ne_zero hp)
    exact mark_round_le hs hlt (Nat.succ_le_succ hr)

theorem Ends.hasHappened_still {start now : Millis} {till : Event}
    (h : Ends rounds start now till) (hw : Still w w') :
    w'.hasHappened till = w.hasHappened till := by
  cases h with
  | time => rw [World.hasHappened, World.hasHappened, hw.now]
  | round => rw [World.hasHappened, World.hasHappened, hw.now, hw.round]

end Clock

/-! ## How many steps are left -/

section Rank

/-- How many steps it takes at most to try until the time is up, with pauses. -/
def tryRank (left : Nat) : Nat := if left = 0 then 1 else 8 * left + 7

/-- How many steps it takes at most from a pose until the time is up. From one pause to the next
there are fewer than eight, and a pause that is not of no time takes a millisecond or more. -/
def Pose.rank (budget : Nat) (deadline now : Millis) : Pose → Nat
  | .entering => tryRank budget + 1
  | .trying => tryRank (deadline - now)
  | .asking steps => 8 * (deadline - now) + 4 + steps
  | .pausing (.time t) => if t ≤ deadline then 8 * (deadline - t) + 6 else 3
  | .pausing (.round t _) => if t < deadline then 8 * (deadline - t) + 6 else 3
  | .resting (.time t) | .resting (.round t _) => tryRank (deadline - t) + 1
  | .pausing _ | .resting _ => 1

theorem tryRank_pos (left : Nat) : 0 < tryRank left := by
  unfold tryRank
  split <;> omega

theorem tryRank_mono {left left' : Nat} (h : left ≤ left') : tryRank left ≤ tryRank left' := by
  unfold tryRank
  split <;> split <;> omega

theorem tryRank_le (left : Nat) : tryRank left ≤ 8 * left + 7 := by
  unfold tryRank
  split <;> omega

theorem Pose.rank_pos (budget : Nat) (deadline now : Millis) (p : Pose) :
    0 < p.rank budget deadline now := by
  unfold rank
  split
  case h_1 => exact Nat.succ_pos _
  case h_2 => exact tryRank_pos _
  case h_3 => omega
  case h_4 => split <;> omega
  case h_5 => split <;> omega
  case h_6 => exact Nat.succ_pos _
  case h_7 => exact Nat.succ_pos _
  all_goals exact Nat.one_pos

variable {rounds : Nat} {start : Millis} {w : World (Guarded S) C} {a : Acquisition C}
  {p p' : Pose} {notes : List Note}

omit [Site S C] in
/-- A pause amid an execution leaves fewer steps, unless it is one of no time. -/
theorem rank_pausing_lt (w : World (Guarded S) C) (budget : Nat) {deadline : Millis}
    (hn : w.now ≤ deadline) (pause : Millis) :
    (Pose.pausing (w.after pause)).rank budget deadline w.now <
      8 * (deadline - w.now) + 4 +
        8 * if (Pose.pausing (w.after pause)).isBrief deadline then 1 else 0 := by
  rw [World.after]
  split
  case isTrue hp =>
    simp only [Pose.rank, Pose.isBrief, decide_eq_true_eq]
    unfold Millis at *
    split <;> omega
  case isFalse hp =>
    simp only [Pose.rank, Pose.isBrief]
    unfold Millis at *
    split <;> omega

omit [Site S C] in
/-- A pause between two attempts leaves fewer steps, unless it is one of no time. -/
theorem rank_resting_lt (w : World (Guarded S) C) (budget : Nat) {deadline pause : Millis}
    (hp : pause ≤ deadline - w.now) :
    (Pose.resting (w.after pause)).rank budget deadline w.now <
      8 * (deadline - w.now) + 4 +
        8 * if (Pose.resting (w.after pause)).isBrief deadline then 1 else 0 := by
  rw [World.after]
  split
  case isTrue hz =>
    have hle := tryRank_le (deadline - w.now)
    simp only [Pose.rank, Pose.isBrief, decide_eq_true_eq]
    split
    case isTrue => omega
    case isFalse hlt =>
      -- at the deadline the next attempt is not made
      rw [Nat.sub_eq_zero_of_le (Nat.le_of_not_lt hlt)]
      decide
  case isFalse hz =>
    have hle := tryRank_le (deadline - (w.now + pause))
    simp only [Pose.rank, Pose.isBrief]
    unfold Millis at *
    omega

/-- Every step without waiting leaves fewer of them, unless it comes to a pause of no time. -/
theorem Leads.rank_lt (h : Leads w a p notes p') (budget : Nat) (hn : w.now ≤ a.deadline)
    (hpause : ∀ till, p = .pausing till → w.hasHappened till = true →
      Ends rounds start w.now till ∧ ∀ t n, till = .round t n → t < a.deadline)
    (hrest : ∀ till, p = .resting till → Ends rounds start w.now till) :
    p'.rank budget a.deadline w.now <
      p.rank budget a.deadline w.now + 8 * if p'.isBrief a.deadline then 1 else 0 := by
  cases h with
  | tries hd =>
    have hleft : a.deadline - w.now ≠ 0 := Nat.sub_ne_zero_of_lt hd
    simp only [Pose.rank, tryRank, if_neg hleft]
    omega
  | asks steps =>
    simp only [Pose.rank]
    omega
  | misses =>
    have hlt := rank_pausing_lt w budget hn a.client.client.retryWait
    simp only [Pose.rank] at hlt ⊢
    omega
  | retries fault => exact rank_pausing_lt w budget hn a.client.client.retryWait
  | held roll hp =>
    subst hp
    exact rank_resting_lt w budget (Nat.min_le_right _ _)
  | @resumes till hh =>
    obtain ⟨hends, hround⟩ := hpause till rfl hh
    cases hends with
    | time hs =>
      have ht := hasHappened_time.1 hh
      have hle := Nat.sub_le_sub_left ht a.deadline
      simp only [Pose.rank, if_pos (Nat.le_trans ht hn)]
      omega
    | @round t n hs ht =>
      have hle := Nat.sub_le_sub_left ht a.deadline
      simp only [Pose.rank, if_pos (hround t n rfl)]
      omega
  | @wakes till hh =>
    cases hrest till rfl with
    | time hs =>
      have hle := tryRank_mono (Nat.sub_le_sub_left (hasHappened_time.1 hh) a.deadline)
      simp only [Pose.rank]
      omega
    | round hs ht =>
      have hle := tryRank_mono (Nat.sub_le_sub_left ht a.deadline)
      simp only [Pose.rank]
      omega

theorem Pose.rank_of_pause (budget : Nat) (deadline now now' : Millis)
    {till : Event}
    (hp : p = .pausing till ∨ p = .resting till) :
    p.rank budget deadline now' = p.rank budget deadline now := by
  rcases hp with rfl | rfl <;> cases till <;> rfl

omit [Site S C] in
theorem isBrief_after {pause : Millis} (deadline : Millis)
    (hp : p = .pausing (w.after pause) ∨ p = .resting (w.after pause))
    (h : p.isBrief deadline = true) : pause = 0 ∧ w.now < deadline := by
  by_cases hz : pause = 0
  · rw [World.after, if_pos hz] at hp
    rcases hp with rfl | rfl
    · exact ⟨hz, of_decide_eq_true h⟩
    · exact ⟨hz, of_decide_eq_true h⟩
  · rw [World.after, if_neg hz] at hp
    rcases hp with rfl | rfl <;> cases h

end Rank

end Reconnect.Cache.Acquisition
