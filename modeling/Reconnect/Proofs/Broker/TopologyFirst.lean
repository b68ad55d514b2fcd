import Reconnect.Proofs.Broker.Vigil
import Reconnect.Proofs.Rehearsal.Redeclaration

/-!
# The topology comes before the deliveries

A consumption with a topology declares it again before it opens a stream on connections of a new
generation, if it looks for one between their announcement and the opening, and if the topology was
not being declared again already when they were announced (`topologyFirst_run`). It looks each time
it begins to open a stream, so what it misses are announcements that come while it opens one, as in
`opened_without_topology`, or while it declares its topology again; and between the time when
connections are given away and their announcement there is nothing to see.

What a step means for the order of these things is said by `Stride`.
-/

namespace Reconnect.Broker

variable {S C : Type}

/-! ## Order in a log -/

/-- Whether a declaration of the topology has begun in a log, and no other one after it. -/
def Began (log : List Note) : Prop := ∃ a b, log = a ++ .began :: b ∧ .began ∉ b

/-- Whether a declaration of the topology has begun in a log and come to its end. -/
def Complete (log : List Note) : Prop :=
  ∃ a b c, log = a ++ .began :: (b ++ .redeclared :: c) ∧ .began ∉ b

/-- Before a stream is opened after an announcement, all of the topology is declared again, if the
consumption looked for a new generation in between and was not declaring it already. -/
def TopologyFirst (log : List Note) : Prop :=
  ∀ a activity b c, log = a ++ .announced activity :: (b ++ .opened :: c) →
    activity ≠ .redeclaring → (activity = .opening → .looked ∈ b) → Complete b

section Logs

variable {log more a b : List Note} {n : Note}

theorem Began.append (h : Began log) (hm : .began ∉ more) : Began (log ++ more) := by
  obtain ⟨a, b, rfl, hb⟩ := h
  refine ⟨a, b ++ more, by rw [List.append_assoc, List.cons_append], ?_⟩
  rw [List.mem_append]
  exact fun h => h.elim hb hm

theorem Began.complete (h : Began log) (hm : .began ∉ more) :
    Complete (log ++ (more ++ [.redeclared])) := by
  obtain ⟨a, b, rfl, hb⟩ := h
  refine ⟨a, b ++ more, [], by simp, ?_⟩
  rw [List.mem_append]
  exact fun h => h.elim hb hm

theorem Complete.append (h : Complete log) (more : List Note) : Complete (log ++ more) := by
  obtain ⟨a, b, c, rfl, hb⟩ := h
  exact ⟨a, b, c ++ more, by simp, hb⟩

/-- A note that is not among the last ones is among the ones before. -/
theorem exists_of_append_eq (h : log ++ more = a ++ n :: b) (hn : n ∉ more) :
    ∃ b', log = a ++ n :: b' ∧ b = b' ++ more := by
  rcases List.append_eq_append_iff.1 h with ⟨a', rfl, hm⟩ | ⟨b', rfl, hb⟩
  · exact absurd (hm ▸ List.mem_append_right _ List.mem_cons_self) hn
  · cases b' with
    | nil =>
      rw [List.nil_append] at hb
      exact absurd (hb ▸ List.mem_cons_self) hn
    | cons n' b' =>
      cases hb
      exact ⟨b', rfl, rfl⟩

/-- What is noted beside the opening of a stream keeps the order. -/
theorem TopologyFirst.append (h : TopologyFirst log) (hm : .opened ∉ more) :
    TopologyFirst (log ++ more) := by
  intro a activity b c he
  rw [← List.cons_append, ← List.append_assoc] at he
  obtain ⟨c', rfl, rfl⟩ := exists_of_append_eq he hm
  exact h a activity b c' (by rw [← List.cons_append, ← List.append_assoc])

/-- The opening of a stream keeps the order if all that was announced before has been dealt with. -/
theorem TopologyFirst.opened (h : TopologyFirst log)
    (hd : ∀ a activity b, log = a ++ .announced activity :: b → activity ≠ .redeclaring →
      (activity = .opening → .looked ∈ b) → Complete b) :
    TopologyFirst (log ++ [.opened]) := by
  intro a activity b c he
  -- the stream is the one just opened, or an earlier one
  rcases List.eq_nil_or_concat' c with rfl | ⟨c, n, rfl⟩
  · rw [← List.cons_append, ← List.append_assoc, List.append_left_inj] at he
    exact hd a activity b he
  · have he' : log ++ [.opened] = (a ++ .announced activity :: (b ++ .opened :: c)) ++ [n] := by
      simp [he]
    exact h a activity b c (List.append_inj_left' he' rfl)

end Logs

variable [Site S C] [Channels S C] {h : Handler (World (Station S) C)}
  {w w' : World (Station S) C} {opens : Bool}

/-! ## Strides -/

/-- An execution that has reached a connection in its last step found the supervisor there. -/
theorem attached_of_holds {e e' : Execution C} {r : Request}
    {s : Step (Execution C) (Execution.Outcome (Reply C))}
    (hg : e.Goes (asking r) w opens w' s) (hs : s.state? = some e') (hr : e'.holds = true) :
    w.attached = true := by
  cases hg with
  | canceled => cases hs
  | enter => cases hs; cases hr
  | works _ hg =>
    cases hg with
    | detached => cases hs
    | connect _ ha => exact ha
    | miss _ ha => exact ha
    | workWaits _ hw => simp [asking, Operation.atOnce] at hw
    | workMoves _ hw => simp [asking, Operation.atOnce] at hw
    | succeed => cases hs
    | retry => cases hs; cases hr
    | refuse => cases hs
    | wake => cases hs; cases hr
    | rest hp =>
      unfold Execution.waitOrExpire at hs
      split at hs <;> cases hs
      rw [Execution.holds, hp] at hr
      cases hr

/-- An execution that succeeds has reached a connection. -/
theorem holds_of_ok {e : Execution C} {r : Request} {n : Nat} {reply : Reply C}
    (hg : e.Goes (asking r) w opens w' (.ends ⟨n, .ok reply⟩)) : e.holds = true := by
  cases hg.atOnce with
  | idle hs => exact absurd rfl (hs n reply)
  | succeed hp =>
    rw [Execution.holds, hp]

namespace Consumption

/-- Whether a consumption has reached a connection to open its stream on. -/
def reaches (c : Consumption C) : Bool :=
  match c.phase with
  | .opening _ e => e.holds
  | _ => false

/-- Whether a consumption is about to end. -/
def isLeaving (c : Consumption C) : Bool :=
  match c.phase with
  | .leaving _ _ => true
  | _ => false

/-- What a step of a consumption means for the order of what it does: the consumption that goes on,
and what the step passes. -/
inductive Stride (w w' : World (Station S) C) (c : Consumption C) :
    Option (Consumption C) → List Note → Prop
  /-- It is about to end, or ends. -/
  | stops {c? : Option (Consumption C)} {notes : List Note}
      (hs : ∀ c', c? = some c' → c'.isLeaving = true) (hn : .opened ∉ notes) :
      Stride w w' c c? notes
  /-- It looks for a new generation and finds one. -/
  | outdated {c' : Consumption C} {t : Topology} (ht : outdated? w c = some t)
      (hs : c'.seen = c.seen) (ha : c'.activity = .redeclaring) :
      Stride w w' c (some c') [.looked, .began]
  /-- It finds none, or there is no supervisor to look at. -/
  | current {c' : Consumption C} (ht : outdated? w c = none) (hs : c'.seen = c.seen)
      (ha : c'.activity = .opening) (hr : c'.reaches = false) :
      Stride w w' c (some c') (if w.attached then [.looked] else [])
  /-- Its topology has been declared again. -/
  | restored {c' : Consumption C} (hp : c.activity = .redeclaring)
      (hs : c'.seen = some w'.supervisor.generation) (ha : c'.activity = .opening)
      (hr : c'.reaches = false) : Stride w w' c (some c') [.redeclared]
  /-- Its stream has been opened. -/
  | opened {c' : Consumption C} (hp : c.activity = .opening) (hr : c.reaches = true)
      (hs : c'.seen = c.seen) (ha : c'.activity = .other) : Stride w w' c (some c') [.opened]
  /-- It goes on otherwise. -/
  | goes {c' : Consumption C} (hs : c'.seen = c.seen)
      (ha : c'.activity = .other ∨ c'.activity = c.activity)
      (hr : c'.reaches = true → w.attached = true) : Stride w w' c (some c') []

variable {c c' : Consumption C} {s : Step (Consumption C) Result}

omit [Site S C] [Channels S C] in
/-- A stream that was opened is read. -/
theorem reading_of_opened (ho : .opened ∈ c.passes w s) :
    ∃ c' channel stream, s.state? = some c' ∧ c'.phase = .reading channel stream := by
  unfold passes at ho
  split at ho
  case h_4 hp =>
    obtain ⟨c', hs, hp'⟩ := Option.map_eq_some_iff.1 hp
    exact ⟨c', _, _, hs, hp'⟩
  all_goals simp_all

omit [Site S C] [Channels S C] in
theorem result?_of_state? (hs : s.state? = some c') (hl : c'.isLeaving = false) :
    result? s = none := by
  unfold isLeaving at hl
  cases s with
  | waits => cases hs; unfold result?; split at hl <;> simp_all
  | moves => cases hs; unfold result?; split at hl <;> simp_all
  | ends => cases hs

omit [Site S C] [Channels S C] in
theorem not_opened_of_leaving (hs : ∀ c', s.state? = some c' → c'.isLeaving = true) :
    .opened ∉ c.passes w s := by
  intro ho
  obtain ⟨c', channel, stream, hs', hp⟩ := reading_of_opened ho
  have hl := hs c' hs'
  rw [isLeaving, hp] at hl
  cases hl

/-- A consumption that is about to end stays so. -/
theorem Goes.isLeaving (hg : Goes h w opens c w' s) (hl : c.isLeaving = true)
    (hs : s.state? = some c') : c'.isLeaving = true := by
  unfold Consumption.isLeaving at hl
  split at hl
  case h_1 hp =>
    rcases (hg.of_leaving hp).2 with ⟨e', hs'⟩ | rfl
    · cases hs.symm.trans hs'
      rfl
    · cases hs
  case h_2 => cases hl

omit [Site S C] [Channels S C] in
theorem stride_stops (hs : ∀ c', s.state? = some c' → c'.isLeaving = true) :
    Stride w w' c s.state? (c.passes w s) := .stops hs (not_opened_of_leaving hs)

omit [Site S C] [Channels S C] in
theorem stride_finish (w₁ : World (Station S) C) (result : Result) :
    Stride w w' c (finish w₁ c result).2.state? (c.passes w (finish w₁ c result).2) := by
  refine stride_stops fun c' hs => ?_
  unfold finish at hs
  split at hs <;> cases hs
  rfl

omit [Site S C] [Channels S C] in
theorem stride_goes (hs : s.state? = some c') (hseen : c'.seen = c.seen)
    (ha : c'.activity = .other ∨ c'.activity = c.activity)
    (hr : c'.reaches = true → w.attached = true) (hn : c.passes w s = []) :
    Stride w w' c s.state? (c.passes w s) := by
  rw [hs, hn]
  exact .goes hseen ha hr

omit [Site S C] [Channels S C] in
theorem stride_retry (w₁ : World (Station S) C) (again : Bool) (time : Millis)
    (hp : (∃ a, c.phase = .restoring again a) ∨ ∃ e, c.phase = .opening again e) :
    Stride w w' c (retry w₁ c again time).2.state? (c.passes w (retry w₁ c again time).2) := by
  unfold retry
  split
  · refine stride_goes rfl rfl (.inl rfl) nofun ?_
    rcases hp with ⟨a, hp⟩ | ⟨e, hp⟩ <;> simp only [passes, hp, Step.state?, Option.map_some]
  · refine stride_goes rfl rfl (.inl rfl) nofun ?_
    rcases hp with ⟨a, hp⟩ | ⟨e, hp⟩ <;> simp only [passes, hp, Step.state?, Option.map_some]

omit [Site S C] in
/-- A consumption that has received a delivery is still about nothing else. -/
theorem receive_activity {channel : C} {stream : Nat} (d : Delivery) (w : World (Station S) C)
    (hp : c.phase = .reading channel stream) :
    (receive h w c channel stream d).2.seen = c.seen ∧
      (receive h w c channel stream d).2.activity = .other ∧
      (receive h w c channel stream d).2.reaches = false := by
  unfold receive activity reaches
  dsimp only
  split
  · split <;> exact ⟨rfl, by rw [hp], by rw [hp]⟩
  · exact ⟨rfl, rfl, rfl⟩

omit [Site S C] in
theorem conclude_seen (w : World (Station S) C) (c : Consumption C) (d : Delivery) (v : Verdict) :
    (conclude w c d v).2.seen = c.seen := by
  unfold conclude
  dsimp only
  split <;> rfl

/-- What a step of a consumption that has begun means. -/
theorem Goes.stride (hg : Goes h w opens c w' s) (hc : c.activity ≠ .entering)
    (hl : c.isLeaving = false) : Stride w w' c s.state? (c.passes w s) := by
  cases hg with
  | enter hp => exact absurd (by rw [activity, hp]) hc
  | canceled => exact stride_finish _ _
  | outdated hp ht =>
    simp only [passes, hp, Step.state?, Option.map_some]
    exact .outdated ht rfl rfl
  | current hp ht =>
    simp only [passes, hp, openStream, Step.state?, Option.map_some]
    exact .current ht rfl rfl rfl
  | yielded hp =>
    exact stride_goes rfl rfl (.inl rfl) nofun (by simp only [passes, hp])
  | yields hp =>
    exact stride_goes rfl rfl (.inr rfl) (by simp [reaches, hp]) (by simp only [passes, hp])
  | restores hn hp ha hs hs' =>
    exact stride_goes hs' rfl (.inr (by simp only [activity, hp])) nofun
      (by simp only [passes, hp, hs', Option.map_some])
  | restored hn hp ha =>
    simp only [passes, hp, openStream, Step.state?, Option.map_some]
    exact .restored (by rw [activity, hp]) rfl rfl rfl
  | restoreLate hn hp ha he time => exact stride_retry _ _ time (.inl ⟨_, hp⟩)
  | restoreFailed => exact stride_finish _ _
  | opens hn hp he hs hs' =>
    exact stride_goes hs' rfl (.inr (by simp only [activity, hp])) (attached_of_holds he hs)
      (by simp only [passes, hp, hs', Option.map_some])
  | opened hn hp he =>
    simp only [passes, hp, Step.state?, Option.map_some]
    exact .opened (by rw [activity, hp]) (by rw [reaches, hp]; exact holds_of_ok he) rfl rfl
  | unopened hn hp =>
    exact stride_goes rfl rfl (.inl rfl) nofun
      (by simp only [passes, hp, Step.state?, Option.map_some])
  | openLate hn hp he time => exact stride_retry _ _ time (.inr ⟨_, hp⟩)
  | refusedOnce hn hp =>
    exact stride_goes rfl rfl (.inl rfl) nofun
      (by simp only [passes, hp, Step.state?, Option.map_some])
  | openFailed => exact stride_finish _ _
  | recovers hn hp ha hs hs' =>
    exact stride_goes hs' rfl (.inl rfl) nofun
      (by simp only [passes, hp, hs', Option.map_some, result?_of_state? hs' rfl])
  | recovered hn hp =>
    exact stride_goes rfl rfl (.inl rfl) nofun
      (by simp only [passes, hp, Step.state?, Option.map_some, result?])
  | recoverFailed => exact stride_finish _ _
  | readCanceled => exact stride_finish _ _
  | pending hp =>
    exact stride_goes rfl rfl (.inr rfl) (by simp [reaches, hp]) (by simp only [passes, hp])
  | delivered hp =>
    obtain ⟨hseen, ha, hr⟩ := receive_activity (h := h) _ _ hp
    exact stride_goes rfl hseen (.inl ha) (by simp [hr]) (by simp only [passes, hp])
  | lost hp => exact stride_goes rfl rfl (.inl rfl) nofun (by simp only [passes, hp])
  | handles hp =>
    exact stride_goes rfl rfl (.inr rfl) (by simp [reaches, hp]) (by simp only [passes, hp])
  | handled hp =>
    exact stride_goes rfl (conclude_seen _ c _ _) (.inl rfl) nofun (by simp only [passes, hp])
  | leaves hp => rw [Consumption.isLeaving, hp] at hl; cases hl
  | left hp => rw [Consumption.isLeaving, hp] at hl; cases hl

omit [Site S C] [Channels S C] in
theorem activity_of_isLeaving (hl : c.isLeaving = true) : c.activity = .other := by
  unfold isLeaving at hl
  split at hl
  case h_1 hp => rw [activity, hp]
  case h_2 => cases hl

omit [Site S C] [Channels S C] in
/-- A consumption begins once. -/
theorem Stride.activity_ne_entering {c? : Option (Consumption C)} {passed : List Note}
    (hst : Stride w w' c c? passed) (hc : c.activity ≠ .entering) (hs : c? = some c') :
    c'.activity ≠ .entering := by
  cases hst with
  | stops hl =>
    rw [activity_of_isLeaving (hl c' hs)]
    nofun
  | outdated _ _ ha => cases hs; rw [ha]; nofun
  | current _ _ ha => cases hs; rw [ha]; nofun
  | restored _ _ ha => cases hs; rw [ha]; nofun
  | opened _ _ _ ha => cases hs; rw [ha]; nofun
  | goes _ ha =>
    cases hs
    rcases ha with ha | ha <;> rw [ha]
    · nofun
    · exact hc

end Consumption

/-! ## What is owed -/

/-- What is left to do of an announcement that came while a consumption was about something, given
what was noted since. -/
structure Owing (w : World (Station S) C) (c : Consumption C) (activity : Activity)
    (log : List Note) : Prop where
  /-- The consumption has not taken note of it. -/
  behind : ∃ seen, c.seen = some seen ∧ seen < w.supervisor.generation
  /-- If it declares its topology again, it began after the announcement. -/
  began : c.activity = .redeclaring → Began log
  /-- If it opens a stream, it did so at the announcement and has not looked since. -/
  missed : c.activity = .opening → activity = .opening ∧ .looked ∉ log

/-- A consumption that has dealt with all announcements or owes it to them. -/
structure Awake (w : World (Station S) C) (c : Consumption C) (log : List Note) : Prop where
  seen : ∃ seen, c.seen = some seen ∧ seen ≤ w.supervisor.generation
  owing : ∀ a activity b, log = a ++ .announced activity :: b → activity ≠ .redeclaring →
    Complete b ∨ Owing w c activity b

/-- A consumption that cannot open a stream any more: its supervisor is gone. -/
structure Stranded (w : World (Station S) C) (c : Consumption C) : Prop where
  detached : w.attached = false
  reaches : c.reaches = false

/-- What holds of every vigil with a topology. -/
def Mindful (consumer : Consumer) (y : Vigil S C) : Prop :=
  TopologyFirst y.log ∧
    match y.call with
    | .inl c => c.activity ≠ .entering ∧ c.consumer = consumer ∧
        (c.isLeaving = true ∨ Stranded y.world c ∨ Awake y.world c y.log)
    | .inr _ => True

section Owing

variable {c c' : Consumption C} {log more : List Note} {activity : Activity}

omit [Site S C] [Channels S C]

theorem Owing.append (ho : Owing w c activity log)
    (hgen : w.supervisor.generation ≤ w'.supervisor.generation) (hseen : c'.seen = c.seen)
    (ha : c'.activity = .other ∨ c'.activity = c.activity) (hb : .began ∉ more)
    (hl : .looked ∉ more) : Owing w' c' activity (log ++ more) where
  behind := by
    obtain ⟨seen, hs, hlt⟩ := ho.behind
    exact ⟨seen, hseen.trans hs, Nat.lt_of_lt_of_le hlt hgen⟩
  began hr := by
    rcases ha with ha | ha
    · cases ha.symm.trans hr
    · exact (ho.began (ha.symm.trans hr)).append hb
  missed hr := by
    rcases ha with ha | ha
    · cases ha.symm.trans hr
    · obtain ⟨hact, hnot⟩ := ho.missed (ha.symm.trans hr)
      refine ⟨hact, ?_⟩
      rw [List.mem_append]
      exact fun h => h.elim hnot hl

/-- A consumption is awake if it deals with what it owed, or still owes it. -/
theorem Awake.next (h : Awake w c log)
    (hseen : ∃ seen, c'.seen = some seen ∧ seen ≤ w'.supervisor.generation)
    (hm : ∀ p, .announced p ∉ more)
    (ho : ∀ p b, Owing w c p b → Complete (b ++ more) ∨ Owing w' c' p (b ++ more)) :
    Awake w' c' (log ++ more) where
  seen := hseen
  owing a p b he hne := by
    obtain ⟨b', hl, rfl⟩ := exists_of_append_eq he (hm p)
    exact (h.owing a p b' hl hne).elim (fun hd => .inl (hd.append more)) (ho p b')

theorem Awake.seen_le (h : Awake w c log)
    (hgen : w.supervisor.generation ≤ w'.supervisor.generation) (hseen : c'.seen = c.seen) :
    ∃ seen, c'.seen = some seen ∧ seen ≤ w'.supervisor.generation :=
  h.seen.imp fun _ hs => ⟨hseen.trans hs.1, Nat.le_trans hs.2 hgen⟩

/-- It stays so through whatever is noted beside. -/
theorem Awake.append (h : Awake w c log)
    (hgen : w.supervisor.generation ≤ w'.supervisor.generation) (hseen : c'.seen = c.seen)
    (ha : c'.activity = .other ∨ c'.activity = c.activity)
    (hm : ∀ n ∈ more, n ≠ .began ∧ n ≠ .looked ∧ ∀ p, n ≠ .announced p) :
    Awake w' c' (log ++ more) :=
  h.next (h.seen_le hgen hseen) (fun p hmem => (hm _ hmem).2.2 p rfl) fun _ _ ho =>
    .inr (ho.append hgen hseen ha (fun hmem => (hm _ hmem).1 rfl) fun hmem => (hm _ hmem).2.1 rfl)

/-- An announcement is owed something by a consumption that is awake. -/
theorem Awake.announced (h : Awake w c log)
    (hgen : w.supervisor.generation < w'.supervisor.generation) :
    Awake w' c (log ++ [.announced c.activity]) where
  seen := h.seen_le (Nat.le_of_lt hgen) rfl
  owing a p b he hne := by
    -- it is the announcement just made, or an earlier one
    rcases List.eq_nil_or_concat' b with rfl | ⟨b, n, rfl⟩
    · obtain ⟨-, hp⟩ := List.append_inj' he rfl
      cases hp
      obtain ⟨seen, hs, hle⟩ := h.seen
      exact .inr ⟨⟨seen, hs, Nat.lt_of_le_of_lt hle hgen⟩, fun hr => absurd hr hne,
        fun ho => ⟨ho, nofun⟩⟩
    · have he' : log ++ [.announced c.activity] = (a ++ .announced p :: b) ++ [n] := by
        simp [he]
      obtain ⟨hl, hn⟩ := List.append_inj' he' rfl
      cases hn
      refine (h.owing a p b hl hne).imp (·.append _) fun ho => ?_
      exact ho.append (Nat.le_of_lt hgen) rfl (.inr rfl) (by simp) (by simp)

end Owing

/-! ## Steps -/

namespace Consumption

variable {c c' : Consumption C} {c? : Option (Consumption C)} {log passed refusals : List Note}

omit [Site S C] [Channels S C] in
theorem reaches_of_activity (ha : c.activity ≠ .opening) : c.reaches = false := by
  unfold reaches
  split
  case h_1 hp => exact absurd (by rw [activity, hp]) ha
  case h_2 => rfl

omit [Site S C] [Channels S C] in
/-- A consumer whose topology is up to date, or who has no supervisor to ask. -/
theorem seen_of_not_outdated {seen : Nat} (ht : c.consumer.topology.isSome)
    (hs : c.seen = some seen) (ho : outdated? w c = none) :
    w.attached = false ∨ seen = w.supervisor.generation := by
  obtain ⟨t, ht⟩ := Option.isSome_iff_exists.1 ht
  simp only [outdated?, ht, hs] at ho
  cases hatt : w.attached with
  | false => exact .inl rfl
  | true =>
    rw [hatt] at ho
    refine .inr (not_not.1 fun hne => ?_)
    rw [if_pos (by simpa using hne)] at ho
    cases ho

omit [Site S C] [Channels S C] in
/-- A stranded consumption opens no stream and stays stranded until it ends. -/
theorem Stride.stranded (hst : Stride w w' c c? passed) (h : Stranded w c) (hw : Onward w w') :
    .opened ∉ passed ∧ ∀ c', c? = some c' → c'.isLeaving = true ∨ Stranded w' c' := by
  have hdet := hw.detached h.detached
  cases hst with
  | stops hs hn => exact ⟨hn, fun c' hc => .inl (hs c' hc)⟩
  | outdated _ _ ha =>
    refine ⟨by simp, fun c' hc => ?_⟩
    cases hc
    exact .inr ⟨hdet, reaches_of_activity (by rw [ha]; nofun)⟩
  | current _ _ _ hr =>
    refine ⟨by rw [h.detached]; nofun, fun c' hc => ?_⟩
    cases hc
    exact .inr ⟨hdet, hr⟩
  | restored _ _ _ hr =>
    refine ⟨by simp, fun c' hc => ?_⟩
    cases hc
    exact .inr ⟨hdet, hr⟩
  | opened _ hr => exact absurd (h.reaches.symm.trans hr) nofun
  | goes _ _ hr =>
    refine ⟨nofun, fun c' hc => ?_⟩
    cases hc
    exact .inr ⟨hdet,
      eq_false_of_ne_true fun hr' => absurd (h.detached.symm.trans (hr hr')) nofun⟩

omit [Site S C] [Channels S C] in
/-- A consumption that is awake stays so, unless it is about to end or loses its supervisor. -/
theorem Stride.awake (hst : Stride w w' c c? passed) (h : Awake w c log) (hw : Level w w')
    (ht : c.consumer.topology.isSome) (hq : ∀ n ∈ refusals, ∃ f, n = .refused f)
    (c' : Consumption C) (hc : c? = some c') :
    c'.isLeaving = true ∨ Stranded w' c' ∨ Awake w' c' (log ++ (refusals ++ passed)) := by
  have hrefused : ∀ {n : Note}, (∀ f, n ≠ .refused f) → n ∉ refusals := fun hn hm => by
    obtain ⟨f, rfl⟩ := hq _ hm
    exact hn f rfl
  have hannounced : (∀ p, .announced p ∉ passed) → ∀ p, .announced p ∉ refusals ++ passed :=
    fun hn p hm => (List.mem_append.1 hm).elim (hrefused nofun) (hn p)
  have hgen := hw.generation
  cases hst with
  | stops hs hn => exact .inl (hs c' hc)
  | outdated _ hs ha =>
    cases hc
    -- what is declared now begins after every announcement there was
    refine .inr (.inr (h.next (h.seen_le hgen hs) (hannounced (by simp)) fun p b ho => .inr ?_))
    refine ⟨?_, fun _ => ⟨b ++ (refusals ++ [.looked]), [], by simp, nofun⟩, fun hp => ?_⟩
    · obtain ⟨seen, hseen, hlt⟩ := ho.behind
      exact ⟨seen, hs.trans hseen, Nat.lt_of_lt_of_le hlt hgen⟩
    · cases ha.symm.trans hp
  | current ho hs ha hr =>
    cases hc
    obtain ⟨seen, hseen, -⟩ := h.seen
    rcases seen_of_not_outdated ht hseen ho with hatt | hnow
    · exact .inr (.inl ⟨hw.detached hatt, hr⟩)
    · have hnone : ∀ p, Note.announced p ∉ (if w.attached then [Note.looked] else []) := by
        intro p hm
        split at hm <;> simp at hm
      -- nothing is owed by a consumption that has taken note of the last generation
      refine .inr (.inr (h.next (h.seen_le hgen hs) (hannounced hnone) fun p b howes => ?_))
      obtain ⟨seen', hseen', hlt⟩ := howes.behind
      cases hseen.symm.trans hseen'
      exact absurd hlt (by rw [hnow]; exact Nat.lt_irrefl _)
  | restored hp hs ha hr =>
    cases hc
    -- every announcement that is still owed something came before the declaration began
    exact .inr (.inr (h.next ⟨_, hs, Nat.le_refl _⟩ (hannounced (by simp)) fun p b ho =>
      .inl ((ho.began hp).complete (hrefused nofun))))
  | opened hp hr hs ha =>
    cases hc
    refine .inr (.inr (h.append hgen hs (.inl ha) fun n hm => ?_))
    rcases List.mem_append.1 hm with hm | hm
    · obtain ⟨f, rfl⟩ := hq n hm
      exact ⟨nofun, nofun, nofun⟩
    · cases List.mem_singleton.1 hm
      exact ⟨nofun, nofun, nofun⟩
  | goes hs ha hr =>
    cases hc
    refine .inr (.inr (h.append hgen hs ha fun n hm => ?_))
    rw [List.append_nil] at hm
    obtain ⟨f, rfl⟩ := hq n hm
    exact ⟨nofun, nofun, nofun⟩

omit [Site S C] [Channels S C] in
/-- A consumption that is awake keeps the order. -/
theorem Stride.ordered (hst : Stride w w' c c? passed) (h : Awake w c log)
    (hlaw : TopologyFirst log) (hq : ∀ n ∈ refusals, ∃ f, n = .refused f) :
    TopologyFirst (log ++ (refusals ++ passed)) := by
  have hrefused : ∀ {n : Note}, (∀ f, n ≠ .refused f) → n ∉ refusals := fun hn hm => by
    obtain ⟨f, rfl⟩ := hq _ hm
    exact hn f rfl
  have hlaw' : TopologyFirst (log ++ refusals) := hlaw.append (hrefused nofun)
  rw [← List.append_assoc]
  cases hst with
  | stops _ hn => exact hlaw'.append hn
  | outdated => exact hlaw'.append (by simp)
  | current =>
    refine hlaw'.append fun hm => ?_
    split at hm <;> simp at hm
  | restored => exact hlaw'.append (by simp)
  | opened hp =>
    refine hlaw'.opened fun a p b he hne hlook => ?_
    obtain ⟨b', hl, rfl⟩ := exists_of_append_eq he (hrefused nofun)
    rcases h.owing a p b' hl hne with hd | ho
    · exact hd.append _
    · -- the stream was being opened at the announcement, and nothing was looked for since
      obtain ⟨hp', hnot⟩ := ho.missed hp
      exact absurd (hlook hp') fun hm => (List.mem_append.1 hm).elim hnot (hrefused nofun)
  | goes => exact hlaw'.append nofun

end Consumption

/-! ## Runs -/

variable {consumer : Consumer}

omit [Site S C] [Channels S C] in
/-- What is noted of a step that opens no stream tells of none. -/
theorem Consumption.opened_not_mem [Channels S C] {c : Consumption C}
    {s : Step (Consumption C) Result} (hn : .opened ∉ c.passes w s) :
    .opened ∉ c.notes w opens s := by
  intro hm
  rcases List.mem_append.1 hm with hm | hm
  · obtain ⟨f, hf, -⟩ := exists_of_mem_refusalOf hm
    cases hf
  · exact hn hm

/-- A step of a consumption keeps the order. -/
theorem mindful_work (hh : h.IsLevel) (ht : consumer.topology.isSome) {y : Vigil S C}
    (hy : Mindful consumer y) (opens : Bool) : Mindful consumer (y.step h (.work opens)) := by
  obtain ⟨w, c | result, log⟩ := y
  case inr => exact hy
  obtain ⟨hlaw, hne, rfl, hc⟩ := hy
  have hg := c.goes_step h w opens
  simp only [Vigil.step]
  generalize (c.step h w opens).1 = w' at hg ⊢
  generalize (c.step h w opens).2 = s at hg ⊢
  have hkept : TopologyFirst (log ++ c.notes w opens s) ∧ ∀ c', s.state? = some c' →
      c'.activity ≠ .entering ∧
        (c'.isLeaving = true ∨ Stranded w' c' ∨ Awake w' c' (log ++ c.notes w opens s)) := by
    cases hl : c.isLeaving with
    | true =>
      have hleaves : ∀ c', s.state? = some c' → c'.isLeaving = true := fun _ => hg.isLeaving hl
      refine ⟨hlaw.append (Consumption.opened_not_mem (Consumption.not_opened_of_leaving hleaves)),
        fun c' hs => ⟨?_, .inl (hleaves c' hs)⟩⟩
      rw [Consumption.activity_of_isLeaving (hleaves c' hs)]
      nofun
    | false =>
      have hw : Level w w' := hg.level hh fun e result hp => by
        rw [Consumption.isLeaving, hp] at hl
        cases hl
      have hst := hg.stride hne hl
      have hbegun := fun c' (hs : s.state? = some c') => hst.activity_ne_entering hne hs
      rcases hc with hc | hc | hc
      · cases hl.symm.trans hc
      · obtain ⟨hn, hs⟩ := hst.stranded hc hw.toOnward
        exact ⟨hlaw.append (Consumption.opened_not_mem hn),
          fun c' hs' => ⟨hbegun c' hs', (hs c' hs').imp_right .inl⟩⟩
      · have hmeets : ∀ n ∈ c.meets w opens, ∃ f, n = .refused f :=
          fun n hn => (exists_of_mem_refusalOf hn).imp fun _ => And.left
        exact ⟨hst.ordered hc hlaw hmeets,
          fun c' hs => ⟨hbegun c' hs, hst.awake hc hw ht hmeets c' hs⟩⟩
  refine ⟨hkept.1, ?_⟩
  have hgo : ∀ c', s.state? = some c' → c'.activity ≠ .entering ∧ c'.consumer = c.consumer ∧ _ :=
    fun c' hs => ⟨(hkept.2 c' hs).1, (hg.same hs).1, (hkept.2 c' hs).2⟩
  cases s with
  | waits c' => exact hgo c' rfl
  | moves c' => exact hgo c' rfl
  | ends => trivial

/-- What happens beside the consumption keeps the order. -/
theorem mindful_drift {y : Vigil S C} (hy : Mindful consumer y)
    {f : World (Station S) C → World (Station S) C} (hf : ∀ w, Onward w (f w)) :
    Mindful consumer (y.step h (.drift f)) := by
  obtain ⟨w, call, log⟩ := y
  have hw := hf w
  simp only [Vigil.step]
  generalize f w = w' at hw ⊢
  refine ⟨hy.1.append fun hm => ?_, ?_⟩
  · split at hm <;> simp at hm
  cases call with
  | inr => trivial
  | inl c =>
    obtain ⟨-, hne, hcons, hc⟩ := hy
    refine ⟨hne, hcons, hc.imp_right (Or.imp (fun hs => ?_) fun ha => ?_)⟩
    · exact ⟨hw.detached hs.detached, hs.reaches⟩
    · split
      · exact ha.announced ‹_›
      · exact ha.append hw.generation rfl (.inr rfl) nofun

/-- Before a consumption with a topology opens a stream on connections of a new generation, it
declares the topology again, if it looks for a new generation between their announcement and the
opening and was not declaring the topology already. -/
theorem topologyFirst_run (hh : h.IsLevel) (ht : consumer.topology.isSome)
    (w : World (Station S) C) (context queue : String) {moves : List (Vigil.Move S C)}
    (hm : Vigil.GoesOn moves) :
    TopologyFirst (Vigil.run h w consumer context queue moves).log := by
  refine (Vigil.run_induction (P := Mindful consumer) hm ?_
    (fun _ opens hy => mindful_work hh ht hy opens) fun _ _ hf hy => mindful_drift hy hf).1
  -- nothing has been announced when it begins, and it takes note of the generation there is
  refine ⟨fun a p b c he => ?_, nofun, rfl, .inr ?_⟩
  · cases a <;> cases he
  · cases ha : w.attached with
    | false => exact .inl ⟨ha, rfl⟩
    | true =>
      refine .inr ⟨⟨_, if_pos ha, Nat.le_refl _⟩, fun a p b he => ?_⟩
      cases a <;> cases he

/-- A failure of the network is reported, and the supervisor recovers from it. -/
def recovery (w : World (Station S) C) : World (Station S) C :=
  runErrand 16 (.ready .recover) w.report

omit [Channels S C] in
theorem onward_recovery (w : World (Station S) C) : Onward w (recovery w) :=
  (Level.report w).toOnward.trans (onward_runErrand 16 w.report trivial)

/-- A recovery before a consumption looks for one. -/
theorem declared_before_opened :
    let client := Rehearsal.freshTopology.client
    let consumer : Consumer := { client, topology := some Rehearsal.freshTopology }
    let w := Rehearsal.lostWorld [.queue ⟨"q", true, false, false⟩ []]
    let moves := .drift recovery :: List.replicate 9 (.work true)
    let log := (Vigil.run .accepting w consumer "go" "q" moves).log
    log = [.announced .other, .looked, .began, .redeclared, .opened] ∧ TopologyFirst log := by
  intro client consumer w moves log
  refine ⟨by decide +kernel,
    topologyFirst_run Handler.isLevel_accepting rfl w "go" "q" fun f hf => ?_⟩
  have hf : f = recovery := by simpa [moves] using hf
  exact hf ▸ onward_recovery

/-- If the supervisor recovers once the consumption has looked for that, the next stream is opened
on a connection of the new generation although the topology has not been declared again. -/
theorem opened_without_topology :
    ∃ (w : Rehearsal.HubWorld) (consumer : Consumer) (moves : List (Vigil.Move Rehearsal.Hub Nat)),
      consumer.topology.isSome ∧ Vigil.GoesOn moves ∧ ∃ a activity b c,
        (Vigil.run .accepting w consumer "go" "q" moves).log =
          a ++ .announced activity :: (b ++ .opened :: c) ∧
        .opened ∈ a ∧ .opened ∉ b ∧ ¬ Complete b := by
  let client := Rehearsal.freshTopology.client
  let w := withStore (Rehearsal.lostWorld [.exchange ⟨"x", .direct, false, true⟩])
    (Rehearsal.freshWorld.site.store.declareQueue ⟨"q", true, false, false⟩)
  -- the first stream ends
  let loss (w : Rehearsal.HubWorld) := withStore w w.site.store.dropConsumers
  let moves : List (Vigil.Move Rehearsal.Hub Nat) :=
    List.replicate 4 (.work true) ++ .drift loss :: List.replicate 2 (.work true) ++
      .drift recovery :: List.replicate 3 (.work true)
  refine ⟨w, { client, topology := some Rehearsal.freshTopology }, moves, rfl, fun f hf => ?_,
    [.looked, .opened, .looked], .opening, [], [], by decide +kernel, by decide, nofun, ?_⟩
  · have hf : f = loss ∨ f = recovery := by simpa [moves] using hf
    rcases hf with rfl | rfl
    · exact fun w => (Level.withStore w _).toOnward
    · exact onward_recovery
  · rintro ⟨a, b, c, he, -⟩
    cases a <;> cases he

end Reconnect.Broker
