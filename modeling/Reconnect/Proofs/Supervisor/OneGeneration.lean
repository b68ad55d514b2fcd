import Reconnect.Proofs.Supervisor.SingleFlight

/-!
# Connections of one generation

A recovery discards all connections, probes until a connection answers, and gives the clients
connections that are opened after that. A `Survey` is an interplay in which it is noted, for each
probe that succeeds, how many connections had been opened by then. What the clients see after a
recovery should have been opened since its last successful probe (`OneGeneration`).

Two things can get in the way (`Strays`). A recovery that fails when it has given connections to
some clients goes back to probing without discarding them. And a registration or renewal may carry
a connection across a whole recovery, from before it was opened anew to after it is over. In every
run in which neither happens all clients work on connections of one generation
(`oneGeneration_run`); `mixed_after_failed_round` shows a run in which they do not.

The invariant is `Settled`. What is known of the recovery under way depends on the stage it stands
before (`Clean`); that there is only one is the count of marks of `Interplay.Marked`.
-/

namespace Reconnect.Supervisor

variable {C : Type}

/-- The connection that a registration or renewal has opened and not given yet. -/
def Stage.carried? : Stage C → Option C
  | .registerEnter _ opened => opened
  | .renewGive _ fresh => some fresh
  | _ => none

/-- Whether a connection is in a slot. -/
def Filled (s : Supervisor C) (c : C) : Prop := ∃ id, s.slots.get? id = some (some c)

/-! ## What one turn does to the slots -/

section Turn

variable {canceled : Bool} {s : Supervisor C} {stage next : Stage C} {signal : Signal C}
  {t : Turn C} {c : C}

/-- What is in a slot once a slot has been changed was there before, or is what is in it now. -/
theorem filled_of_get? {s' : Supervisor C} {id : Identifier} {x : Option C} (h : Filled s' c)
    (hs : ∀ id', s'.slots.get? id' = if id' = id then some x else s.slots.get? id') :
    Filled s c ∨ x = some c := by
  obtain ⟨id', hid⟩ := h
  rw [hs] at hid
  split at hid
  case isTrue => exact .inr (Option.some.inj hid)
  case isFalse => exact .inl ⟨id', hid⟩

theorem filled_enroll {id : Identifier} {x : Option C} (h : Filled (s.enroll id x) c) :
    Filled s c ∨ x = some c :=
  filled_of_get? h fun id' => get?_enroll s id id' x

theorem filled_setSlot {id : Identifier} {x : Option C} (h : Filled (s.setSlot id x) c) :
    Filled s c ∨ x = some c :=
  filled_of_get? h fun id' => get?_setSlot s id id' x

theorem not_filled_clearSlots (s : Supervisor C) (c : C) : ¬ Filled s.clearSlots c := by
  rintro ⟨id, hid⟩
  rw [get?_clearSlots] at hid
  cases hs : s.slots.get? id <;> simp [hs] at hid

/-- What is in a slot after connections have been given away was there before, or is one of them. -/
theorem filled_publish {fresh : List (Identifier × C)} (h : Filled (s.publish fresh).1 c) :
    Filled s c ∨ ∃ e ∈ fresh, e.2 = c := by
  induction fresh generalizing s with
  | nil => exact .inl h
  | cons e rest ih =>
    rw [publish] at h
    split at h
    case h_1 hs =>
      rcases ih h with hf | ⟨e', he', hc⟩
      · exact (filled_setSlot hf).imp_right fun hc => ⟨e, List.mem_cons_self, Option.some.inj hc⟩
      · exact .inr ⟨e', List.mem_cons_of_mem e he', hc⟩
    case h_2 =>
      rcases ih h with hf | ⟨e', he', hc⟩
      · exact .inl hf
      · exact .inr ⟨e', List.mem_cons_of_mem e he', hc⟩

/-- A connection in a slot was there before the turn, or the turn put it there: outside of a
recovery the connection that a call carried, in a recovery one of those that are given away. -/
theorem Goes.filled (hg : Goes canceled s stage signal t) (h : Filled t.supervisor c) :
    Filled s c ∨ s.recovering = false ∧ stage.carried? = some c ∨
      ∃ fresh, stage = .republishGive fresh ∧ ∃ e ∈ fresh, e.2 = c := by
  cases hg with
  | enterLate id c' => exact .inl ((filled_enroll h).resolve_right nofun)
  | enterInTime id c' hr => exact (filled_enroll h).imp_right fun hc => .inl ⟨hr, hc⟩
  | enterEmpty id => exact .inl ((filled_enroll h).resolve_right nofun)
  | reportEmpty =>
    rw [report_supervisor] at h
    exact .inl h
  | take id old => exact .inl ((filled_setSlot h).resolve_right nofun)
  | give id c' hr => exact (filled_setSlot h).imp_right fun hc => .inl ⟨hr, hc⟩
  | reportUnrenewed =>
    rw [report_supervisor] at h
    exact .inl h
  | remove id =>
    obtain ⟨id', hid⟩ := h
    rw [get?_withdraw] at hid
    split at hid
    case isTrue => cases hid
    case isFalse => exact .inl ⟨id', hid⟩
  | removeAll =>
    obtain ⟨id', hid⟩ := h
    cases hid
  | discard => exact absurd h (not_filled_clearSlots s c)
  | publishAll fresh => exact (filled_publish (s := s) h).imp_right fun h => .inr ⟨fresh, rfl, h⟩
  | publishSome fresh => exact (filled_publish h).imp_right fun h => .inr ⟨fresh, rfl, h⟩
  | _ => exact .inl h

/-- What a call carries before its next stage was opened in this turn. -/
theorem Goes.carried (hg : Goes canceled s stage signal t) (hn : t.next = some next)
    (hc : next.carried? = some c) : signal.connection? = some c := by
  cases hg with
  | registerOpened => cases hn; exact hc
  | renewOpened => cases hn; exact hc
  | reportEmpty => rw [report_next] at hn; cases hn
  | reportUnrenewed => rw [report_next] at hn; cases hn
  | removeClose => cases hn
  | _ => cases hn <;> cases hc

/-- A turn after which no recovery runs gave connections to all clients, or stopped the recovery
between two probes, or was made while none ran. -/
theorem Goes.recovering_eq_false (hg : Goes canceled s stage signal t)
    (h : t.supervisor.recovering = false) :
    s.recovering = false ∨ milestone? s stage signal = some .republished ∨
      (stage = .probe ∨ stage = .pause) ∧ t.supervisor.slots = s.slots := by
  cases hg with
  | probeStopped => exact .inr (.inr ⟨.inl rfl, rfl⟩)
  | pauseStopped => exact .inr (.inr ⟨.inr rfl, rfl⟩)
  | publishAll fresh hf =>
    refine .inr (.inl ?_)
    rw [milestone?, if_pos hf]
  | publishSome fresh =>
    rw [publish_recovering] at h
    exact .inl h
  | reportEmpty => simp at h
  | reportUnrenewed => simp at h
  | _ => exact .inl h

end Turn

theorem Task.call_of_milestone? {s : Supervisor C} {t : Task C} {signal : Signal C}
    {number : Nat} {m : Milestone} (h : t.milestone? s signal = some (number, m)) :
    t.call = .recovery number := by
  rw [Task.milestone?] at h
  split at h
  case h_1 n hc =>
    obtain ⟨m, -, heq⟩ := Option.map_eq_some_iff.1 h
    cases heq
    exact hc
  case h_2 => cases h

/-- A recovery has ended once it has given connections to all clients. -/
theorem publishes_of_milestone? {s : Supervisor C} {stage : Stage C} {signal : Signal C}
    (h : milestone? s stage signal = some .republished) :
    ∃ fresh, stage = .republishGive fresh ∧ signal = .go ∧ (s.publish fresh).1.isFull = true := by
  unfold milestone? at h
  split at h
  case h_4 fresh =>
    split at h
    case isTrue hf => exact ⟨fresh, rfl, rfl, hf⟩
    case isFalse => cases h
  all_goals cases h

/-! ## Surveys -/

/-- The probe that a task sees succeed, if it does: the number of the recovery, and how many
connections have been opened by then. -/
def Task.probe? (t : Task C) (signal : Signal C) (opened : Nat) : Option (Nat × Nat) :=
  match t.call, t.stage, signal with
  | .recovery number, .probeAsk _, .go => some (number, opened)
  | _, _, _ => none

/-- An interplay with the probes that succeeded. -/
structure Survey (C : Type) where
  play : Interplay C := {}
  /-- The number of the recovery that probed, and how many connections had been opened by then. -/
  probes : List (Nat × Nat) := []

namespace Survey

/-- One move. -/
def step (z : Survey C) (m : Move C) : Survey C where
  play := z.play.step m
  probes := z.probes ++
    match m with
    | .go place signal =>
      (z.play.tasks[place]?.bind (·.probe? signal z.play.opened.length)).toList
    | _ => []

/-- The survey after a list of moves. -/
def run (moves : List (Move C)) : Survey C := moves.foldl step {}

/-- How many connections had been opened at the last successful probe of a recovery. -/
def probed? (z : Survey C) (number : Nat) : Option Nat :=
  (z.probes.filter (·.1 = number)).getLast?.map Prod.snd

/-- The recovery that gave the clients connections last. -/
def latest? (z : Survey C) : Option Nat := (z.play.numbersAt .republished).getLast?

/-- Whether a connection was opened since the last successful probe of a recovery. -/
def Since (z : Survey C) (number : Nat) (c : C) : Prop :=
  match z.probed? number with
  | some k => c ∈ z.play.opened.drop k
  | none => False

/-- Whether a recovery that fails leaves connections in the slots, or a recovery that ends does so
while a call carries a connection from before its last successful probe. -/
def StraysWith (z : Survey C) (t : Task C) (signal : Signal C) : Prop :=
  match t.call, t.stage, signal with
  | _, .republishOpen (_ :: _) _, .failed => z.play.supervisor.occupied ≠ []
  | .recovery number, .republishGive fresh, .go =>
    (z.play.supervisor.publish fresh).1.isFull = true ∧
      ∃ c ∈ z.play.tasks.filterMap (·.stage.carried?), ¬ z.Since number c
  | _, _, _ => False

/-- Whether a move lets connections of two generations meet. -/
def Strays (z : Survey C) : Move C → Prop
  | .go place signal => ∃ t ∈ z.play.tasks[place]?, z.StraysWith t signal
  | _ => False

/-- Whether no move of a list strays. -/
def Steady : Survey C → List (Move C) → Prop
  | _, [] => True
  | z, m :: rest => ¬ z.Strays m ∧ Steady (z.step m) rest

/-- Every connection that a client sees was opened since the last successful probe of the recovery
that gave the clients connections last. -/
structure OneGeneration (z : Survey C) : Prop where
  /-- That recovery has seen a probe succeed. -/
  probed : ∀ number, z.latest? = some number → ∃ k, z.probed? number = some k
  since : ∀ number, z.latest? = some number → ∀ id c,
    z.play.supervisor.connection? id = some c → z.Since number c

section Decidable

variable [DecidableEq C] (z : Survey C)

instance (number : Nat) (c : C) : Decidable (z.Since number c) := by
  unfold Since
  split <;> infer_instance

instance (t : Task C) (signal : Signal C) : Decidable (z.StraysWith t signal) := by
  unfold StraysWith
  split <;> infer_instance

instance (m : Move C) : Decidable (z.Strays m) := by
  unfold Strays
  split <;> infer_instance

instance decidableSteady : (moves : List (Move C)) → (z : Survey C) → Decidable (z.Steady moves)
  | [], _ => .isTrue trivial
  | _ :: rest, _ => @instDecidableAnd _ _ _ (decidableSteady rest _)

end Decidable

/-! ## Moves -/

/-- The survey after a turn of a task that stood between `before` and `behind`. -/
def advance (z : Survey C) (before : List (Task C)) (t : Task C) (behind : List (Task C))
    (signal : Signal C) (ha : t.stage.allows z.play.canceled signal = true) : Survey C where
  play := z.play.advance before t behind signal ha
  probes := z.probes ++ (t.probe? signal z.play.opened.length).toList

/-- What one move that does not stray can do. -/
theorem step_cases {P : Survey C → Prop} {z : Survey C} {m : Move C} (hm : ¬ z.Strays m)
    (same : P z)
    (begins : ∀ (call : Call) (t : Task C), call.first? = some t →
      P { z with play := { z.play with tasks := z.play.tasks ++ [t] } })
    (report : P { z with
      play := z.play.settle (z.play.supervisor.report []) z.play.tasks })
    (advance : ∀ before t behind signal (ha : t.stage.allows z.play.canceled signal = true),
      z.play.tasks = before ++ t :: behind → ¬ z.StraysWith t signal →
        P (z.advance before t behind signal ha))
    (cancel : P { z with play := { z.play with canceled := true } }) : P (z.step m) := by
  have hnone : z.probes ++ [] = z.probes := List.append_nil _
  cases m with
  | begin call =>
    simp only [step, Interplay.step, hnone]
    cases hf : call.first? (C := C) with
    | none => simpa using same
    | some t => simpa using begins call t hf
  | report =>
    simp only [step, hnone]
    exact report
  | go place signal =>
    cases ht : z.play.tasks[place]? with
    | none =>
      -- nobody is in the place
      simp only [step, Interplay.step, ht, Option.bind_none, Option.toList_none, hnone]
      exact same
    | some t =>
      have hstray : ¬ z.StraysWith t signal := fun h => hm ⟨t, ht, h⟩
      have hsplit : z.play.tasks =
          z.play.tasks.take place ++ t :: z.play.tasks.drop (place + 1) := by
        obtain ⟨hlt, rfl⟩ := List.getElem?_eq_some_iff.1 ht
        rw [List.getElem_cons_drop, List.take_append_drop]
      by_cases ha : t.stage.allows z.play.canceled signal = true
      · have hadvance := advance _ _ _ _ ha hsplit hstray
        simp only [step, Interplay.step, ht, dif_pos ha, Option.bind_some]
        exact hadvance
      · -- the stage does not go on with this signal, so no probe succeeds with it
        have hprobe : t.probe? signal z.play.opened.length = none := by
          unfold Task.probe?
          split
          case h_1 hs => exact absurd (by rw [hs]; rfl) ha
          case h_2 => rfl
        simp only [step, Interplay.step, ht, dif_neg ha, Option.bind_some, hprobe,
          Option.toList_none, hnone]
        exact same
  | cancel =>
    simp only [step, hnone]
    exact cancel

/-! ## The invariant -/

/-- Whether a recovery has seen a probe succeed, and the connections in the slots and some others
have been opened since then. -/
structure Renews (z : Survey C) (number : Nat) (fresh : List (Identifier × C)) : Prop where
  probed : ∃ k, z.probed? number = some k
  slots : ∀ c, Filled z.play.supervisor c → z.Since number c
  fresh : ∀ e ∈ fresh, z.Since number e.2

/-- What is known when a recovery stands before a stage: from the discarding to the next successful
probe nothing is in the slots, and from then on only what was opened since. -/
def Clean (z : Survey C) (number : Nat) : Stage C → Prop
  | .discardClose _ | .probe | .probeOpen | .probeAsk _ | .probeClose _ false | .pause
  | .republishAbandon _ => ∀ c, ¬ Filled z.play.supervisor c
  | .probeClose _ true | .republish | .republishClose _ false => z.Renews number []
  | .republishOpen _ fresh | .republishGive fresh => z.Renews number fresh
  | _ => True

/-- What holds in every survey in which nothing has strayed. -/
structure Settled (z : Survey C) : Prop where
  marked : z.play.Marked
  lively : z.play.Lively
  /-- Probes have seen connections that were opened. -/
  bounded : ∀ e ∈ z.probes, e.2 ≤ z.play.opened.length
  /-- The recovery that ended last has seen a probe succeed. -/
  probed : ∀ number, z.latest? = some number → ∃ k, z.probed? number = some k
  /-- Outside of recoveries the connections in the slots have been opened since. -/
  slots : z.play.supervisor.recovering = false → ∀ number, z.latest? = some number →
    ∀ c, Filled z.play.supervisor c → z.Since number c
  /-- And so has what calls carry, at any time. -/
  carried : ∀ number, z.latest? = some number → ∀ t ∈ z.play.tasks, ∀ c,
    t.stage.carried? = some c → z.Since number c
  clean : ∀ t ∈ z.play.tasks, ∀ number, t.call = .recovery number → z.Clean number t.stage

section Onward

variable {z z' : Survey C} {number : Nat}

/-- From one survey to another no probe of a recovery has succeeded. -/
structure Onward (z z' : Survey C) (number : Nat) : Prop where
  probed : z'.probed? number = z.probed? number
  opened : ∃ more, z'.play.opened = z.play.opened ++ more

theorem Onward.since (h : Onward z z' number) {c : C} (hc : z.Since number c) :
    z'.Since number c := by
  obtain ⟨more, hmore⟩ := h.opened
  unfold Since at hc ⊢
  rw [h.probed]
  cases hk : z.probed? number with
  | none =>
    rw [hk] at hc
    exact hc
  | some k =>
    rw [hk] at hc
    simp only [hmore, List.drop_append]
    exact List.mem_append_left _ hc

/-- What is known of a recovery stays known while no slot is filled. -/
theorem Clean.onward {stage : Stage C} (hc : z.Clean number stage) (h : Onward z z' number)
    (hf : ∀ c, Filled z'.play.supervisor c → Filled z.play.supervisor c) :
    z'.Clean number stage := by
  have hrenews : ∀ {fresh : List (Identifier × C)}, z.Renews number fresh →
      z'.Renews number fresh := fun hr =>
    ⟨by rw [h.probed]; exact hr.probed, fun c hc => h.since (hr.slots c (hf c hc)),
      fun e he => h.since (hr.fresh e he)⟩
  unfold Clean at hc ⊢
  split at hc <;> first | exact fun c hc' => hc c (hf c hc') | exact hrenews hc | trivial

theorem clean_of_not_keepsMark {stage : Stage C} (h : stage.keepsMark = false) :
    z.Clean number stage := by
  cases stage with
  | republishClose unused full =>
    cases full with
    | true => trivial
    | false => cases h
  | _ => trivial

end Onward

/-! ## One turn -/

section Advance

variable {z : Survey C} {before behind : List (Task C)} {t : Task C} {signal : Signal C}
  {ha : t.stage.allows z.play.canceled signal = true} {number : Nat}

theorem advance_supervisor :
    (z.advance before t behind signal ha).play.supervisor =
      (z.play.supervisor.resume t.stage signal).supervisor := Interplay.settle_supervisor ..

theorem advance_opened :
    (z.advance before t behind signal ha).play.opened =
      z.play.opened ++ signal.connection?.toList := by
  rw [advance, Interplay.advance, Interplay.settle]
  split <;> rfl

/-- Where the tasks after a turn come from: they did not take it, or they are what came of it, or a
recovery that it started. -/
theorem mem_advance_tasks {u : Task C}
    (hu : u ∈ (z.advance before t behind signal ha).play.tasks) :
    u ∈ before ++ behind ∨
      (∃ next, (z.play.supervisor.resume t.stage signal).next = some next ∧ u.call = t.call ∧
        u.stage = next) ∨ u = .recovery z.play.started := by
  rw [advance, Interplay.advance, Interplay.settle_tasks, List.mem_append, List.mem_append,
    List.mem_append] at hu
  rcases hu with ((hu | hu) | hu) | hu
  · exact .inl (List.mem_append_left _ hu)
  · rw [Option.mem_toList, Task.resume?, Option.pmap_eq_some_iff] at hu
    obtain ⟨next, -, hnext, rfl⟩ := hu
    exact .inr (.inl ⟨next, hnext, rfl, rfl⟩)
  · exact .inl (List.mem_append_right _ hu)
  · split at hu
    · exact .inr (.inr (List.mem_singleton.1 hu))
    · cases hu

theorem onward_advance (h : ∀ c, t.call = .recovery number → t.stage ≠ .probeAsk c) :
    Onward z (z.advance before t behind signal ha) number := by
  refine ⟨?_, signal.connection?.toList, advance_opened⟩
  have hnew : (t.probe? signal z.play.opened.length).toList.filter (·.1 = number) = [] := by
    unfold Task.probe?
    split
    case h_1 n c hcall hstage =>
      have hne : n ≠ number := by
        rintro rfl
        exact h c hcall hstage
      simp [hne]
    case h_2 => rfl
  rw [probed?, advance, List.filter_append, hnew, List.append_nil]
  rfl

theorem probed?_of_answer {c : C} (hcall : t.call = .recovery number)
    (hstage : t.stage = .probeAsk c) (hs : signal = .go) :
    (z.advance before t behind signal ha).probed? number = some z.play.opened.length := by
  have hprobe : t.probe? signal z.play.opened.length = some (number, z.play.opened.length) := by
    simp only [Task.probe?, hcall, hstage, hs]
  rw [probed?, advance, List.filter_append, hprobe]
  simp

theorem latest?_advance :
    (z.advance before t behind signal ha).latest? =
      (numbersIn .republished (t.milestone? z.play.supervisor signal).toList).getLast?.or
        z.latest? := by
  have hlog : (z.advance before t behind signal ha).play.numbersAt .republished =
      z.play.numbersAt .republished ++
        numbersIn .republished (t.milestone? z.play.supervisor signal).toList := by
    rw [advance, Interplay.advance, Interplay.numbersAt, Interplay.settle_log, numbersIn_append,
      numbersIn_append]
    split <;> simp [numbersIn, Interplay.numbersAt]
  rw [latest?, hlog, List.getLast?_append]
  rfl

/-- The recovery that ended last is another one after a turn only if the turn gave connections to
all clients. -/
theorem latest?_advance_cases (before behind : List (Task C))
    (ha : t.stage.allows z.play.canceled signal = true) :
    (z.advance before t behind signal ha).latest? = z.latest? ∧
        milestone? z.play.supervisor t.stage signal ≠ some .republished ∨
      ∃ number fresh, t.call = .recovery number ∧ t.stage = .republishGive fresh ∧
        signal = .go ∧ (z.play.supervisor.publish fresh).1.isFull = true ∧
        (z.advance before t behind signal ha).latest? = some number := by
  have hmile := Task.map_snd_milestone? z.play.supervisor t signal
  by_cases hm : milestone? z.play.supervisor t.stage signal = some .republished
  · right
    rw [hm, Option.map_eq_some_iff] at hmile
    obtain ⟨⟨number, m⟩, hmile, rfl⟩ := hmile
    obtain ⟨fresh, hs, hgo, hf⟩ := publishes_of_milestone? hm
    refine ⟨number, fresh, Task.call_of_milestone? hmile, hs, hgo, hf, ?_⟩
    rw [latest?_advance, hmile]
    rfl
  · refine .inl ⟨?_, hm⟩
    rw [latest?_advance]
    have hnone : numbersIn .republished (t.milestone? z.play.supervisor signal).toList = [] := by
      cases ht : t.milestone? z.play.supervisor signal with
      | none => rfl
      | some e =>
        rw [ht] at hmile
        have hne : e.2 ≠ .republished := by
          rintro he
          rw [Option.map_some, he] at hmile
          exact hm hmile.symm
        simp [numbersIn, hne]
    rw [hnone]
    rfl

end Advance

/-- A recovery that has ended does not probe. -/
theorem not_probing {y : Interplay C} (hl : y.Lively) {number : Nat}
    (hn : number ∈ y.numbersAt .republished) {t : Task C} (ht : t ∈ y.tasks)
    (hcall : t.call = .recovery number) (c : C) : t.stage ≠ .probeAsk c := by
  intro hstage
  have hmem : Milestone.republished ∈ y.milestonesOf number := by
    rw [Interplay.numbersAt, ← List.count_pos_iff, count_numbersIn, List.count_pos_iff] at hn
    exact hn
  have hlife := hl number
  have hs : y.stagesOf number = [.probeAsk c] :=
    hlife.eq_singleton (Interplay.mem_stagesOf.2 ⟨t, ht, hcall, hstage⟩)
  rw [hs] at hlife
  generalize y.milestonesOf number = passed at hlife hmem
  cases hlife
  simp [Stage.passed] at hmem

theorem mem_of_split {tasks before behind : List (Task C)} {t : Task C}
    (ht : tasks = before ++ t :: behind) : t ∈ tasks := by
  rw [ht]
  exact List.mem_append_right _ List.mem_cons_self

theorem mem_of_other {tasks before behind : List (Task C)} {t u : Task C}
    (ht : tasks = before ++ t :: behind) (hu : u ∈ before ++ behind) : u ∈ tasks := by
  rw [ht]
  exact (List.mem_append.1 hu).elim (List.mem_append_left _)
    fun hu => List.mem_append_right _ (List.mem_cons_of_mem t hu)

/-- While a task keeps the mark of its recovery, no other task does. -/
theorem alone_of_keepsMark {y : Interplay C} (hm : y.Marked) {before behind : List (Task C)}
    {t u : Task C} (ht : y.tasks = before ++ t :: behind) (hk : t.stage.keepsMark = true)
    (hu : u ∈ before ++ behind) : u.stage.keepsMark = false := by
  have hcount : (before ++ behind).countP (·.stage.keepsMark) = 0 := by
    have hle : y.tasks.countP (·.stage.keepsMark) ≤ 1 := by
      rw [hm]
      exact Bool.toNat_le _
    rw [ht, List.countP_append, List.countP_cons_of_pos (by exact hk)] at hle
    rw [List.countP_append]
    omega
  simpa using List.countP_eq_zero.1 hcount u hu

/-- A connection that is opened now is opened since every probe. -/
theorem since_opened {z z' : Survey C} {number k : Nat} {c : C}
    (hk : z.probed? number = some k) (hb : ∀ e ∈ z.probes, e.2 ≤ z.play.opened.length)
    (hp : z'.probed? number = z.probed? number) (ho : z'.play.opened = z.play.opened ++ [c]) :
    z'.Since number c := by
  have hle : k ≤ z.play.opened.length := by
    rw [probed?, Option.map_eq_some_iff] at hk
    obtain ⟨e, he, rfl⟩ := hk
    exact hb e (List.mem_filter.1 (List.mem_of_getLast? he)).1
  unfold Since
  rw [hp, hk]
  simp only [ho, List.drop_append_of_le_length hle]
  exact List.mem_append_right _ List.mem_cons_self

theorem Renews.onward {z z' : Survey C} {number : Nat} {fresh fresh' : List (Identifier × C)}
    (hr : z.Renews number fresh) (h : Onward z z' number)
    (hf : ∀ c, Filled z'.play.supervisor c → Filled z.play.supervisor c ∨ ∃ e ∈ fresh, e.2 = c)
    (hn : ∀ e ∈ fresh', e ∈ fresh ∨ z'.Since number e.2) : z'.Renews number fresh' := by
  refine ⟨by rw [h.probed]; exact hr.probed, fun c hc => ?_, fun e he => ?_⟩
  · rcases hf c hc with hc | ⟨e, he, rfl⟩
    · exact h.since (hr.slots c hc)
    · exact h.since (hr.fresh e he)
  · rcases hn e he with he | he
    · exact h.since (hr.fresh e he)
    · exact he

section Clean

variable {z : Survey C} {before behind : List (Task C)} {t : Task C} {signal : Signal C}
  {ha : t.stage.allows z.play.canceled signal = true} {number : Nat}

/-- A turn of a recovery leads on what is known of it. -/
theorem Clean.advance (h : z.Clean number t.stage) (hcall : t.call = .recovery number)
    (hb : ∀ e ∈ z.probes, e.2 ≤ z.play.opened.length) (hs : ¬ z.StraysWith t signal)
    {next : Stage C} (hn : (z.play.supervisor.resume t.stage signal).next = some next) :
    (z.advance before t behind signal ha).Clean number next := by
  have hg := goes_resume z.play.supervisor ha
  have hsup : (z.advance before t behind signal ha).play.supervisor =
      (z.play.supervisor.resume t.stage signal).supervisor := advance_supervisor
  have hopened : (z.advance before t behind signal ha).play.opened =
      z.play.opened ++ signal.connection?.toList := advance_opened
  have honward : (∀ c, t.stage ≠ .probeAsk c) →
      Onward z (z.advance before t behind signal ha) number :=
    fun hne => onward_advance fun c _ => hne c
  have hanswer : ∀ c, t.stage = .probeAsk c → signal = .go →
      (z.advance before t behind signal ha).probed? number = some z.play.opened.length :=
    fun c hstage hgo => probed?_of_answer hcall hstage hgo
  have hruns := t.runs
  rw [hcall] at hruns
  unfold StraysWith at hs
  generalize z.advance before t behind signal ha = z' at hsup hopened honward hanswer ⊢
  generalize z.play.supervisor.resume t.stage signal = turn at hg hsup hn
  generalize t.stage = stage at hg h hs honward hanswer hruns
  -- between the discarding and the next probe the turns leave the slots empty
  have hempty : (∀ c, ¬ Filled z.play.supervisor c) →
      (∀ c, Filled turn.supervisor c → Filled z.play.supervisor c) →
        ∀ c, ¬ Filled z'.play.supervisor c := by
    intro he hf c hc
    rw [hsup] at hc
    exact he c (hf c hc)
  -- after it they put nothing into them but fresh connections
  have hrenews : ∀ {fresh fresh' : List (Identifier × C)}, z.Renews number fresh →
      (∀ c, stage ≠ .probeAsk c) →
      (∀ c, Filled turn.supervisor c → Filled z.play.supervisor c ∨ ∃ e ∈ fresh, e.2 = c) →
      (∀ e ∈ fresh', e ∈ fresh ∨ z'.Since number e.2) → z'.Renews number fresh' := by
    intro fresh fresh' hr hne hf hn
    refine hr.onward (honward hne) ?_ hn
    rw [hsup]
    exact hf
  cases hg with
  | recover => cases hn; trivial
  | discard =>
    cases hn
    intro c hc
    rw [hsup] at hc
    exact not_filled_clearSlots _ c hc
  | discardClose => cases hn; exact hempty h fun _ => id
  | probe => cases hn; exact hempty h fun _ => id
  | probeOpened => cases hn; exact hempty h fun _ => id
  | probeFailed => cases hn; exact hempty h fun _ => id
  | probeAnswered c =>
    cases hn
    refine ⟨⟨_, hanswer c rfl rfl⟩, fun c' hc => absurd hc (hempty h (fun _ => id) c'), nofun⟩
  | probeSilent => cases hn; exact hempty h fun _ => id
  | probeSucceeded => cases hn; exact hrenews h nofun (fun _ => .inl) nofun
  | probeMissed => cases hn; exact hempty h fun _ => id
  | pause => cases hn; exact hempty h fun _ => id
  | republish => cases hn; exact hrenews h nofun (fun _ => .inl) nofun
  | republishOpened id ids fresh c =>
    cases hn
    refine hrenews h nofun (fun _ => .inl) fun e he => ?_
    rcases List.mem_append.1 he with he | he
    · exact .inl he
    · obtain ⟨k, hk⟩ := h.probed
      rw [List.mem_singleton.1 he]
      exact .inr (since_opened hk hb (honward nofun).probed hopened)
  | republishFailed =>
    cases hn
    -- the slots are empty, or the turn strays
    refine hempty ?_ fun _ => id
    rintro c ⟨id, hid⟩
    rw [hcall] at hs
    refine hs fun hocc => ?_
    have hmem : c ∈ z.play.supervisor.occupied :=
      List.mem_filterMap.2 ⟨some c, Table.mem_values_of_get? hid, rfl⟩
    rw [hocc] at hmem
    cases hmem
  | republishReady fresh => cases hn; exact hrenews h nofun (fun _ => .inl) fun _ => .inl
  | abandon => cases hn; exact hempty h fun _ => id
  | publishAll => cases hn; trivial
  | publishSome => cases hn; exact hrenews h nofun (fun _ => filled_publish) nofun
  | republishDone => cases hn; trivial
  | republishAgain => cases hn; exact hrenews h nofun (fun _ => .inl) nofun
  | announce => cases hn
  | probeStopped => cases hn
  | pauseStopped => cases hn
  | _ => simp [Call.Runs, Stage.ofRecovery] at hruns

end Clean

/-- What no call has to do with: the clients, what was opened and the recoveries that ended stay as
they are. -/
theorem Settled.quiet {z : Survey C} (h : z.Settled) {y : Interplay C} (hm : y.Marked)
    (hl : y.Lively) (hr : y.supervisor.recovering = false → z.play.supervisor.recovering = false)
    (hs : y.supervisor.slots = z.play.supervisor.slots) (ho : y.opened = z.play.opened)
    (hn : y.numbersAt .republished = z.play.numbersAt .republished)
    (ht : ∀ u ∈ y.tasks, u ∈ z.play.tasks ∨
      u.stage.carried? = none ∧ u.stage.keepsMark = false ∨ u.stage = .recover) :
    Settled { z with play := y } := by
  have hlatest : ({ z with play := y } : Survey C).latest? = z.latest? := by
    rw [latest?, latest?, hn]
  have honward : ∀ number, Onward z { z with play := y } number := fun _ =>
    ⟨rfl, [], by rw [List.append_nil]; exact ho⟩
  have hfilled : ∀ c, Filled y.supervisor c → Filled z.play.supervisor c := by
    rintro c ⟨id, hid⟩
    rw [hs] at hid
    exact ⟨id, hid⟩
  constructor
  · exact hm
  · exact hl
  · rw [ho]
    exact h.bounded
  · rw [hlatest]
    exact h.probed
  · rw [hlatest]
    exact fun hrec number hnum c hc =>
      (honward number).since (h.slots (hr hrec) number hnum c (hfilled c hc))
  · rw [hlatest]
    intro number hnum u hu c hc
    rcases ht u hu with hu | ⟨hnone, -⟩ | hrec
    · exact (honward number).since (h.carried number hnum u hu c hc)
    · rw [hnone] at hc
      cases hc
    · rw [hrec] at hc
      cases hc
  · intro u hu number hcall
    rcases ht u hu with hu | ⟨-, hk⟩ | hrec
    · exact (h.clean u hu number hcall).onward (honward number) hfilled
    · exact clean_of_not_keepsMark hk
    · rw [hrec]
      trivial

namespace Settled

variable {z : Survey C} {before behind : List (Task C)} {t : Task C} {signal : Signal C}
  {ha : t.stage.allows z.play.canceled signal = true} {number : Nat}

/-- A recovery that has ended does not see another probe succeed. -/
theorem onward_latest (h : z.Settled) (hmem : t ∈ z.play.tasks)
    (hn : z.latest? = some number) : Onward z (z.advance before t behind signal ha) number :=
  onward_advance fun c hcall => not_probing h.lively (List.mem_of_getLast? hn) hmem hcall c

/-- A recovery that gives connections away gives only what was opened since its probe. -/
theorem renews_of_give (h : z.Settled) (hmem : t ∈ z.play.tasks)
    (hcall : t.call = .recovery number) {fresh : List (Identifier × C)}
    (hstage : t.stage = .republishGive fresh) :
    Onward z (z.advance before t behind signal ha) number ∧ z.Renews number fresh := by
  have hclean := h.clean t hmem number hcall
  rw [hstage] at hclean
  refine ⟨onward_advance fun c _ hask => ?_, hclean⟩
  rw [hstage] at hask
  cases hask

/-- A recovery that was stopped between two probes leaves the slots empty. -/
theorem not_filled_of_stopped (h : z.Settled) (hmem : t ∈ z.play.tasks)
    (hstage : t.stage = .probe ∨ t.stage = .pause) (c : C) : ¬ Filled z.play.supervisor c := by
  have hrecovery : t.stage.ofRecovery = true := by
    rcases hstage with hstage | hstage <;> rw [hstage] <;> rfl
  obtain ⟨n, hcall⟩ := t.runs.ofRecovery_iff.1 hrecovery
  have hclean := h.clean t hmem n hcall
  rcases hstage with hstage | hstage <;> rw [hstage] at hclean <;> exact hclean c

theorem bounded_advance (h : z.Settled) :
    ∀ e ∈ (z.advance before t behind signal ha).probes,
      e.2 ≤ (z.advance before t behind signal ha).play.opened.length := by
  intro e he
  rw [advance_opened, List.length_append]
  rw [Survey.advance, List.mem_append] at he
  rcases he with he | he
  · exact Nat.le_trans (h.bounded e he) (Nat.le_add_right _ _)
  · unfold Task.probe? at he
    split at he
    case h_1 =>
      rw [Option.toList_some, List.mem_singleton] at he
      rw [he]
      exact Nat.le_add_right _ _
    case h_2 => cases he

theorem probed_advance (h : z.Settled) (hmem : t ∈ z.play.tasks)
    (hn : (z.advance before t behind signal ha).latest? = some number) :
    ∃ k, (z.advance before t behind signal ha).probed? number = some k := by
  rcases latest?_advance_cases before behind ha with
    ⟨hlatest, -⟩ | ⟨number', fresh, hcall, hstage, -, -, hlatest⟩
  · rw [hlatest] at hn
    rw [(h.onward_latest hmem hn).probed]
    exact h.probed number hn
  · cases hlatest.symm.trans hn
    obtain ⟨honward, hrenews⟩ := h.renews_of_give hmem hcall hstage
    rw [honward.probed]
    exact hrenews.probed

theorem slots_advance (h : z.Settled) (hmem : t ∈ z.play.tasks)
    (hrec : (z.advance before t behind signal ha).play.supervisor.recovering = false)
    (hn : (z.advance before t behind signal ha).latest? = some number) {c : C}
    (hc : Filled (z.advance before t behind signal ha).play.supervisor c) :
    (z.advance before t behind signal ha).Since number c := by
  have hg := goes_resume z.play.supervisor ha
  rw [advance_supervisor] at hrec hc
  rcases latest?_advance_cases before behind ha with
    ⟨hlatest, hnot⟩ | ⟨number', fresh, hcall, hstage, -, -, hlatest⟩
  · rw [hlatest] at hn
    have honward : Onward z (z.advance before t behind signal ha) number :=
      h.onward_latest hmem hn
    rcases hg.recovering_eq_false hrec with hfree | hpub | ⟨hstage, hslots⟩
    · rcases hg.filled hc with hc | ⟨-, hc⟩ | ⟨fresh, hstage, -⟩
      · exact honward.since (h.slots hfree number hn c hc)
      · exact honward.since (h.carried number hn t hmem c hc)
      · rw [h.marked.recovering hmem (by rw [hstage]; rfl)] at hfree
        cases hfree
    · exact absurd hpub hnot
    · obtain ⟨id, hid⟩ := hc
      rw [hslots] at hid
      exact absurd ⟨id, hid⟩ (h.not_filled_of_stopped hmem hstage c)
  · cases hlatest.symm.trans hn
    obtain ⟨honward, hrenews⟩ := h.renews_of_give hmem hcall hstage
    rcases hg.filled hc with hc | ⟨-, hc⟩ | ⟨fresh', hstage', e, he, rfl⟩
    · exact honward.since (hrenews.slots c hc)
    · rw [hstage] at hc
      cases hc
    · rw [hstage] at hstage'
      cases hstage'
      exact honward.since (hrenews.fresh e he)

theorem carried_advance (h : z.Settled) (ht : z.play.tasks = before ++ t :: behind)
    (hs : ¬ z.StraysWith t signal)
    (hn : (z.advance before t behind signal ha).latest? = some number) {u : Task C}
    (hu : u ∈ (z.advance before t behind signal ha).play.tasks) {c : C}
    (hc : u.stage.carried? = some c) : (z.advance before t behind signal ha).Since number c := by
  have hg := goes_resume z.play.supervisor ha
  have hmem : t ∈ z.play.tasks := mem_of_split ht
  rcases latest?_advance_cases before behind ha with
    ⟨hlatest, -⟩ | ⟨number', fresh, hcall, hstage, hgo, hfull, hlatest⟩
  · rw [hlatest] at hn
    have honward : Onward z (z.advance before t behind signal ha) number :=
      h.onward_latest hmem hn
    rcases mem_advance_tasks hu with hu | ⟨next, hnext, -, rfl⟩ | rfl
    · exact honward.since (h.carried number hn u (mem_of_other ht hu) c hc)
    · -- what the call carries was opened in this turn
      obtain ⟨k, hk⟩ := h.probed number hn
      refine since_opened hk h.bounded honward.probed ?_
      rw [advance_opened, hg.carried hnext hc]
      rfl
    · cases hc
  · cases hlatest.symm.trans hn
    rcases mem_advance_tasks hu with hu | ⟨next, hnext, -, rfl⟩ | rfl
    · -- a connection from before the last probe would have strayed
      refine (h.renews_of_give hmem hcall hstage).1.since
        (Classical.byContradiction fun hold => hs ?_)
      unfold StraysWith
      rw [hcall, hstage, hgo]
      exact ⟨hfull, c, List.mem_filterMap.2 ⟨u, mem_of_other ht hu, hc⟩, hold⟩
    · have hopened := hg.carried hnext hc
      rw [hgo] at hopened
      cases hopened
    · cases hc

theorem clean_advance (h : z.Settled) (ht : z.play.tasks = before ++ t :: behind)
    (hs : ¬ z.StraysWith t signal) {u : Task C}
    (hu : u ∈ (z.advance before t behind signal ha).play.tasks)
    (hcall : u.call = .recovery number) :
    (z.advance before t behind signal ha).Clean number u.stage := by
  have hg := goes_resume z.play.supervisor ha
  rcases mem_advance_tasks hu with hu | ⟨next, hnext, hcall', rfl⟩ | rfl
  · cases hk : u.stage.keepsMark with
    | false => exact clean_of_not_keepsMark hk
    | true =>
      have hmem := mem_of_other ht hu
      -- the task that took the turn does not keep the mark, so it leaves the recovery alone
      have hkt : t.stage.keepsMark ≠ true := fun hkt => by
        rw [alone_of_keepsMark h.marked ht hkt hu] at hk
        cases hk
      refine (h.clean u hmem number hcall).onward (onward_advance fun c _ hstage => ?_)
        fun c hc => ?_
      · rw [hstage] at hkt
        exact hkt rfl
      · rw [advance_supervisor] at hc
        rcases hg.filled hc with hc | ⟨hfree, -⟩ | ⟨fresh, hstage, -⟩
        · exact hc
        · rw [h.marked.recovering hmem hk] at hfree
          cases hfree
        · rw [hstage] at hkt
          exact absurd rfl hkt
  · rw [hcall'] at hcall
    exact (h.clean t (mem_of_split ht) number hcall).advance hcall h.bounded hs hnext
  · trivial

/-- A turn that does not stray keeps what is settled. -/
theorem advance (h : z.Settled) (ha : t.stage.allows z.play.canceled signal = true)
    (ht : z.play.tasks = before ++ t :: behind) (hs : ¬ z.StraysWith t signal)
    (hm : (z.play.advance before t behind signal ha).Marked)
    (hl : (z.play.advance before t behind signal ha).Lively) :
    (z.advance before t behind signal ha).Settled where
  marked := hm
  lively := hl
  bounded := h.bounded_advance
  probed _ hn := h.probed_advance (mem_of_split ht) hn
  slots hrec _ hn _ hc := h.slots_advance (mem_of_split ht) hrec hn hc
  carried _ hn _ hu _ hc := h.carried_advance ht hs hn hu hc
  clean _ hu _ hcall := h.clean_advance ht hs hu hcall

end Settled

theorem Settled.step {z : Survey C} (h : z.Settled) {m : Move C} (hs : ¬ z.Strays m) :
    (z.step m).Settled := by
  have hstep : (z.step m).play.Marked → (z.step m).play.Lively → (z.step m).Settled := by
    refine step_cases (P := fun z' => z'.play.Marked → z'.play.Lively → z'.Settled) hs
      (fun _ _ => h) ?begins ?report ?advance ?cancel
    case begins =>
      -- a call that begins carries nothing and is no recovery
      intro call t ht hm hl
      refine h.quiet hm hl id rfl rfl rfl fun u hu => ?_
      rcases List.mem_append.1 hu with hu | hu
      · exact .inl hu
      · rw [List.mem_singleton.1 hu]
        cases call <;> cases ht <;> exact .inr (.inl ⟨rfl, rfl⟩)
    case report =>
      intro hm hl
      refine h.quiet hm hl ?_ ?_ ?_ ?_ fun u hu => ?_
      · simp
      · rw [Interplay.settle_supervisor, report_supervisor]
      · rw [Interplay.settle]
        split <;> rfl
      · rw [Interplay.numbersAt, Interplay.settle_log, numbersIn_append]
        split <;> simp [numbersIn, Interplay.numbersAt]
      · rw [Interplay.settle_tasks, List.mem_append] at hu
        rcases hu with hu | hu
        · exact .inl hu
        · split at hu
          · exact .inr (.inr (by rw [List.mem_singleton.1 hu]; rfl))
          · cases hu
    case advance =>
      intro before t behind signal ha ht hs hm hl
      exact h.advance ha ht hs hm hl
    case cancel =>
      intro hm hl
      exact h.quiet hm hl id rfl rfl rfl fun _ => .inl
  exact hstep (h.marked.step m) (h.lively.step m)

theorem Settled.foldl_step {z : Survey C} (h : z.Settled) {moves : List (Move C)}
    (hs : z.Steady moves) : (moves.foldl Survey.step z).Settled := by
  induction moves generalizing z with
  | nil => exact h
  | cons m rest ih => exact ih (h.step hs.1) hs.2

theorem settled_start : ({} : Survey C).Settled where
  marked := rfl
  lively _ := .ahead (Nat.zero_le _)
  bounded := nofun
  probed := nofun
  slots := nofun
  carried := nofun
  clean := nofun

/-- In every run in which nothing strays, whatever the calls, failures and cancellations, all
clients that have a connection have one of the generation of the recovery that ended last. -/
theorem oneGeneration_run (moves : List (Move C)) (hs : ({} : Survey C).Steady moves) :
    (run moves).OneGeneration := by
  have h := settled_start.foldl_step hs
  refine ⟨h.probed, fun number hn id c hc => ?_⟩
  rw [connection?] at hc
  split at hc
  case isTrue => cases hc
  case isFalse hr =>
    rw [Bool.not_eq_true] at hr
    exact h.slots hr number hn c ⟨id, Option.join_eq_some_iff.1 hc⟩

/-- A client that was there before a recovery gets its connection from it. -/
theorem oneGeneration_one_client :
    let moves : List (Move Nat) := [.begin (.register ⟨1⟩), .go 0 (.opened 1), .go 0 .go, .report,
      .go 0 .go, .go 0 .go, .go 0 .go, .go 0 .go, .go 0 (.opened 2), .go 0 .go, .go 0 .go,
      .go 0 .go, .go 0 (.opened 3), .go 0 .go, .go 0 .go]
    ({} : Survey Nat).Steady moves ∧ (run moves).OneGeneration ∧
      (run moves).play.supervisor.connection? ⟨1⟩ = some 3 :=
  ⟨by decide +kernel, oneGeneration_run _ (by decide +kernel), by decide +kernel⟩

/-- A client registers while a recovery opens connections, and the round that is to give it one
fails. The client that was given one before keeps it through the probe that follows, so when the
recovery ends the two work on connections from before and after that probe. -/
theorem mixed_after_failed_round :
    ∃ (moves : List (Move Nat)) (old new : Nat),
      (run moves).play.opened.Nodup ∧ (run moves).play.supervisor.recovering = false ∧
        (run moves).latest? = some 0 ∧
        (run moves).play.supervisor.connection? ⟨1⟩ = some old ∧ ¬ (run moves).Since 0 old ∧
        (run moves).play.supervisor.connection? ⟨2⟩ = some new ∧ (run moves).Since 0 new := by
  refine ⟨[.begin (.register ⟨1⟩), .go 0 (.opened 1), .go 0 .go, .report,
    -- the recovery discards, probes and sees that the first client waits
    .go 0 .go, .go 0 .go, .go 0 .go, .go 0 .go, .go 0 (.opened 2), .go 0 .go, .go 0 .go, .go 0 .go,
    -- the second client registers meanwhile
    .begin (.register ⟨2⟩), .go 1 (.opened 3), .go 1 .go, .go 1 .go,
    -- the first one is given a connection, and the next round fails
    .go 0 (.opened 4), .go 0 .go, .go 0 .go, .go 0 .go, .go 0 .go, .go 0 .failed, .go 0 .go,
    -- the recovery probes again and gives the second one a connection
    .go 0 .go, .go 0 .go, .go 0 (.opened 5), .go 0 .go, .go 0 .go, .go 0 .go, .go 0 (.opened 6),
    .go 0 .go, .go 0 .go], 4, 6, ?_⟩
  decide +kernel

end Survey

end Reconnect.Supervisor
