import Reconnect.Proofs.Rehearsal.Redeclaration

/-!
# Declaring again at an intact broker

A declaration of what is there changes nothing (`request_of_has`). So a topology that is declared
again at a broker that still has all it remembers leaves the site as it was, queues with their
messages and consumers included, in every step and whatever else happens (`intact_run`); and it
leaves the layout as it was in no other case (`unchanged_iff`).

The broker has all of it after calls of which none deletes an exchange while a remembered queue is
bound to it, if nobody else deletes anything (`Tended.has`). A deleted exchange takes its bindings
along, and the record of the queue still has them. Then declaring again is refused the binding, and
deletes the queue that was there: `queue_lost_after_its_exchange`.
-/

namespace Reconnect.Rehearsal

open Broker

namespace Layout

/-! ## What a layout has -/

/-- Whether all that a declaration makes is there. -/
structure Has (ℓ : Layout) (d : Declaration) : Prop where
  exchange : ∀ name, (exchangeOf? d name).isSome = true → (ℓ.exchange? name).isSome = true
  queue : ∀ name, (shapeOf? d name).isSome = true → (ℓ.queue? name).isSome = true
  bound : ∀ b, Binds d b → ℓ.bound b
  admits : ℓ.Admits d

/-- Whether a layout has all the exchanges, queues and bindings of another one. -/
structure Within (ℓ ℓ' : Layout) : Prop where
  exchange : ∀ name, (ℓ.exchange? name).isSome = true → (ℓ'.exchange? name).isSome = true
  queue : ∀ name, (ℓ.queue? name).isSome = true → (ℓ'.queue? name).isSome = true
  bound : ∀ b, ℓ.bound b → ℓ'.bound b

variable {ℓ ℓ' : Layout} {d : Declaration}

theorem Has.mono (h : ℓ.Has d) (hw : ℓ.Within ℓ') : ℓ'.Has d where
  exchange name hn := hw.exchange name (h.exchange name hn)
  queue name hn := hw.queue name (h.queue name hn)
  bound b hb := hw.bound b (h.bound b hb)
  admits b hb := hw.exchange b.exchange (h.admits b hb)

theorem within_declare (ℓ : Layout) (d : Declaration) : ℓ.Within (ℓ.declare d) where
  exchange name hn := by rw [declare, Option.isSome_or, hn, Bool.true_or]
  queue name hn := by rw [declare, Option.isSome_or, hn, Bool.true_or]
  bound _ := .inl

/-- What has been declared is there. -/
theorem Admits.has_declare (h : ℓ.Admits d) : (ℓ.declare d).Has d where
  exchange name hn := by rw [declare, Option.isSome_or, hn, Bool.or_true]
  queue name hn := by rw [declare, Option.isSome_or, hn, Bool.or_true]
  bound _ := .inr
  admits b hb := (within_declare ℓ d).exchange b.exchange (h b hb)

theorem Within.of_eq (h : ℓ = ℓ') : ℓ.Within ℓ' := by
  subst h
  exact ⟨fun _ => id, fun _ => id, fun _ => id⟩

/-- Declaring what is there changes nothing. -/
theorem Has.declare_eq (h : ℓ.Has d) : ℓ.declare d = ℓ := by
  have hor : ∀ {α : Type} {x y : Option α}, (y.isSome = true → x.isSome = true) → x.or y = x := by
    rintro α (_ | a) (_ | b) hy
    · rfl
    · exact absurd (hy rfl) nofun
    · rfl
    · rfl
  refine Layout.ext (funext fun name => hor (h.exchange name))
    (funext fun name => hor (h.queue name)) (funext fun b => propext ?_)
  exact ⟨fun hb => hb.elim id (h.bound b), .inl⟩

theorem foldl_restore_of_has {r : Record} (h : ∀ d ∈ r, ℓ.Has d) :
    (r.map .restore).foldl after ℓ = ℓ := by
  induction r with
  | nil => rfl
  | cons d rest ih =>
    rw [List.map_cons, List.foldl_cons, after, (h d List.mem_cons_self).declare_eq]
    exact ih fun d' hd' => h d' (List.mem_cons_of_mem d hd')

/-- Deleting an exchange spares what neither is that exchange nor is bound to it. -/
theorem Has.deleteExchange {n : String} (h : ℓ.Has d) (hd : d.concerns false n = false)
    (hn : ∀ b ∈ d.bindings, b.exchange ≠ n) : (ℓ.deleteExchange n).Has d where
  exchange name hname := by
    have hne : name ≠ n := by
      rintro rfl
      rw [exchangeOf?_of_not_concerns hd] at hname
      cases hname
    exact (congrArg Option.isSome (if_neg hne)).trans (h.exchange name hname)
  queue name hname := h.queue name hname
  bound b hb := ⟨h.bound b hb, hn _ hb.2⟩
  admits b hb := (congrArg Option.isSome (if_neg (hn b hb))).trans (h.admits b hb)

/-- Deleting a queue spares what is not that queue. -/
theorem Has.deleteQueue {n : String} (h : ℓ.Has d) (hd : d.concerns true n = false) :
    (ℓ.deleteQueue n).Has d where
  exchange name hname := h.exchange name hname
  queue name hname := by
    have hne : name ≠ n := by
      rintro rfl
      rw [shapeOf?_of_not_concerns hd] at hname
      cases hname
    exact (congrArg Option.isSome (if_neg hne)).trans (h.queue name hname)
  bound b hb := by
    refine ⟨h.bound b hb, ?_⟩
    rw [hb.concerns] at hd
    simpa using hd
  admits b hb := h.admits b hb

/-- After a replay the layout has all that was declared. -/
theorem has_of_passes {r : Record} (h : ℓ.Passes (r.map .restore)) (hd : d ∈ r) :
    ((r.map .restore).foldl after ℓ).Has d := by
  induction r using List.reverseRecOn with
  | nil => cases hd
  | append_singleton front d' ih =>
    rw [List.map_append, passes_append] at h
    rw [List.map_append, List.foldl_append]
    rcases List.mem_append.1 hd with hfront | hlast
    · exact (ih h.1 hfront).mono (within_declare _ d')
    · obtain rfl := List.mem_singleton.1 hlast
      exact h.2.1.has_declare

end Layout

/-! ## Requests for what is there -/

section Requests

variable {h : Hub} {c : Nat}

theorem insertNew_of_isSome {α : Type} {t : Table String α} {k : String} (a : α)
    (hk : (t.get? k).isSome = true) : t.insertNew k a = t :=
  if_pos hk

/-- Bindings that are there are made again without effect. -/
theorem bindAll_of_mem (hf : h.fault? c = none) {queue : String}
    (hq : h.queues.contains queue = true) {bs : List QueueBinding}
    (hb : ∀ b ∈ bs, h.exchanges.contains b.exchange = true ∧
      ⟨queue, b.exchange, b.routingKey⟩ ∈ h.bindings) :
    bindAll h c queue bs = (h, .ok .done) := by
  induction bs with
  | nil => rfl
  | cons b rest ih =>
    obtain ⟨hx, hmem⟩ := hb b List.mem_cons_self
    have hbind : h.bind queue b = (h, .ok ()) := by
      simp [Hub.bind, hq, hx, hmem]
    have hserve : Channels.bindQueue h c queue b = (h, .ok ()) := by
      rw [← hbind]
      exact Hub.serve_of_up hf _
    rw [bindAll, hserve]
    exact ih fun b' hb' => hb b' (List.mem_cons_of_mem b hb')

/-- A request to declare what is there succeeds and changes nothing. -/
theorem request_of_has (hf : h.fault? c = none) {d : Declaration} (hd : h.layout.Has d) :
    request h c d.request = (h, .ok .done) := by
  cases d with
  | exchange x =>
    have hx : (h.exchanges.get? x.name).isSome = true :=
      hd.exchange x.name (by rw [exchangeOf?, if_pos rfl]; rfl)
    have hsame : h.declareExchange x = h := by
      rw [Hub.declareExchange, insertNew_of_isSome _ hx]
    rw [Declaration.request, request_declareExchange hf, hsame]
  | queue q bs =>
    have hq : (h.queues.get? q.name).isSome = true := by
      have hshape := hd.queue q.name (by rw [shapeOf?, if_pos rfl]; rfl)
      rwa [Hub.layout, Option.isSome_map] at hshape
    have hsame : h.declareQueue q = h := by
      rw [Hub.declareQueue, insertNew_of_isSome _ hq]
    simp only [Declaration.request, request, Channels.declareQueue, Hub.serve_of_up hf, hsame]
    exact bindAll_of_mem hf hq fun b hb => ⟨hd.admits b hb, hd.bound _ ⟨rfl, hb⟩⟩

end Requests

/-! ## Calls at a broker at which nobody else deletes -/

/-- A change of the world that takes nothing from the layout of the broker and spares the record in
a place. -/
def Grows (i : Nat) (f : HubWorld → HubWorld) : Prop :=
  ∀ w, w.site.store.layout.Within (f w).site.store.layout ∧
    (f w).site.records[i]? = w.site.records[i]?

/-- Whether all that happens beside an arrangement takes nothing from the layout and spares a
record. -/
def Growing (i : Nat) (moves : List Stint.Move) : Prop := ∀ f, .drift f ∈ moves → Grows i f

/-- The worlds that successful calls of a topology lead to, from one in which nothing is remembered.
Beside the calls anything may happen, but nobody else deletes exchanges, queues or bindings. -/
inductive Tended (t : Topology) : HubWorld → List TopologyStep → Prop
  | start {w : HubWorld} (hr : w.site.records[t.record]? = some []) : Tended t w []
  | call {w w' : HubWorld} {steps : List TopologyStep} {s : TopologyStep}
      {moves : List Stint.Move} (h : Tended t w steps) (hc : IsCall s)
      (hg : Growing t.record moves)
      (he : Stint.run w ⟨t, [s], .ready⟩ moves = ⟨w', .inr (.ok ())⟩) :
      Tended t w' (steps ++ [s])

/-- Whether a step deletes no exchange to which a queue of a record is bound. -/
def Leaves (r : Record) : TopologyStep → Prop
  | .delete false name => ∀ d ∈ r, ∀ b ∈ d.bindings, b.exchange ≠ name
  | .delete true _ | .declare _ | .restore _ => True

/-- Whether no step of a list deletes an exchange to which a queue is bound that is remembered by
then. -/
def LeavesFrom : Record → List TopologyStep → Prop
  | _, [] => True
  | r, s :: rest => Leaves r s ∧ LeavesFrom (s.update r) rest

theorem leavesFrom_append {r : Record} {steps rest : List TopologyStep} :
    LeavesFrom r (steps ++ rest) ↔
      LeavesFrom r steps ∧ LeavesFrom (steps.foldl TopologyStep.update r) rest := by
  induction steps generalizing r with
  | nil => exact ⟨fun h => ⟨trivial, h⟩, And.right⟩
  | cons s steps ih =>
    rw [List.cons_append, LeavesFrom, LeavesFrom, ih, and_assoc]
    rfl

/-- A layout that has all of a record has all of the record that a step leaves. -/
theorem has_after {ℓ : Layout} {r : Record} {s : TopologyStep} (h : ∀ d ∈ r, ℓ.Has d)
    (hc : IsCall s) (ha : ℓ.Allows s) (hs : Leaves r s) : ∀ d ∈ s.update r, (ℓ.after s).Has d := by
  intro d hd
  cases s with
  | restore => cases hc
  | declare d' =>
    rcases List.mem_append.1 hd with hold | hnew
    · exact (h d (List.mem_of_mem_filter hold)).mono (Layout.within_declare ℓ d')
    · obtain rfl := List.mem_singleton.1 hnew
      exact Layout.Admits.has_declare ha
  | delete queue n =>
    obtain ⟨hmem, hother⟩ := List.mem_filter.1 hd
    rw [Bool.not_eq_true'] at hother
    cases queue with
    | false => exact (h d hmem).deleteExchange hother (hs d hmem)
    | true =>
      rw [Layout.after]
      split
      · exact (h d hmem).deleteQueue hother
      · exact h d hmem

/-- The broker has all of the record, and the steps that have not been made lead from it to the
record `r` and leave the exchanges of its queues. -/
structure Stocked (i : Nat) (r : Record) (rest : List TopologyStep) (w : HubWorld) : Prop where
  stocked : ∃ now : Record, w.site.records[i]? = some now ∧
    (∀ d ∈ now, w.site.store.layout.Has d) ∧ LeavesFrom now rest ∧
    (∀ s ∈ rest, IsCall s) ∧ rest.foldl TopologyStep.update now = r

theorem upheld_stocked (i : Nat) (r : Record) : Upheld i (Stocked i r) where
  of_site h hs := by
    obtain ⟨now, hr, hhas, hrest⟩ := h.stocked
    refine ⟨now, ?_, ?_, hrest⟩
    · rw [hs]
      exact hr
    · rw [hs]
      exact hhas
  make {s rest w h'} h ha hl := by
    obtain ⟨now, hr, hhas, ⟨hleaves, hrest⟩, hcalls, hend⟩ := h.stocked
    have hr' : (withStore w h').site.records[i]? = some now := hr
    refine ⟨s.update now, ?_, ?_, hrest, fun s' hs' => hcalls s' (List.mem_cons_of_mem s hs'),
      hend⟩
    · rw [changeRecord_get?, hr', Option.map_some]
    · rw [changeRecord_store]
      show ∀ d ∈ s.update now, h'.layout.Has d
      rw [hl]
      exact has_after hhas (hcalls s List.mem_cons_self) ha hleaves

theorem Stocked.grows {i : Nat} {r : Record} {rest : List TopologyStep} {w : HubWorld}
    {f : HubWorld → HubWorld} (h : Stocked i r rest w) (hf : Grows i f) :
    Stocked i r rest (f w) := by
  obtain ⟨now, hr, hhas, hrest⟩ := h.stocked
  exact ⟨now, (hf w).2.trans hr, fun d hd => (hhas d hd).mono (hf w).1, hrest⟩

/-- After calls that leave the exchanges of remembered queues, the broker has all that is
remembered. -/
theorem Tended.has {t : Topology} {w : HubWorld} {steps : List TopologyStep} (h : Tended t w steps)
    (hs : LeavesFrom [] steps) :
    w.site.records[t.record]? = some (steps.foldl TopologyStep.update []) ∧
      ∀ d ∈ steps.foldl TopologyStep.update [], w.site.store.layout.Has d := by
  induction h with
  | start hr => exact ⟨hr, nofun⟩
  | @call w w' steps s moves h hc hg he ih =>
    rw [leavesFrom_append] at hs
    obtain ⟨hr, hhas⟩ := ih hs.1
    rw [List.foldl_append]
    have hstart : Stocked t.record (s.update (steps.foldl TopologyStep.update [])) [s] w :=
      ⟨_, hr, hhas, hs.2, by simpa using hc, rfl⟩
    have hcarried := carries_run (upheld_stocked _ _) hstart
      fun f hf _ _ hw => hw.grows (hg f hf)
    rw [he] at hcarried
    obtain ⟨now, hr', hhas', -, -, rfl⟩ := hcarried.stocked
    exact ⟨hr', hhas'⟩

/-! ## Declaring again -/

/-- The steps that have not been made restore what the broker has. -/
def Idle (rest : List TopologyStep) (w : HubWorld) : Prop :=
  ∀ s ∈ rest, ∃ d, s = .restore d ∧ w.site.store.layout.Has d

theorem upheld_idle (i : Nat) : Upheld i Idle where
  of_site h hs := by
    intro s hmem
    obtain ⟨d, rfl, hd⟩ := h s hmem
    refine ⟨d, rfl, ?_⟩
    rw [hs]
    exact hd
  make {s rest w h'} h ha hl := by
    obtain ⟨d, rfl, hd⟩ := h s List.mem_cons_self
    intro s' hmem
    obtain ⟨d', rfl, hd'⟩ := h s' (List.mem_cons_of_mem _ hmem)
    refine ⟨d', rfl, ?_⟩
    rw [changeRecord_store]
    show h'.layout.Has d'
    rw [hl]
    exact hd'.mono (Layout.within_declare _ d)

namespace Idle

variable {s : TopologyStep} {rest : List TopologyStep} {w : HubWorld} {r : Record}

theorem grows {i : Nat} {f : HubWorld → HubWorld} (h : Idle rest w) (hf : Grows i f) :
    Idle rest (f w) := by
  intro s hs
  obtain ⟨d, rfl, hd⟩ := h s hs
  exact ⟨d, rfl, hd.mono (hf w).1⟩

theorem allows (h : Idle (s :: rest) w) : w.site.store.layout.Allows s := by
  obtain ⟨d, rfl, hd⟩ := h s List.mem_cons_self
  exact hd.admits

theorem restore (h : ∀ d ∈ r, w.site.store.layout.Has d) : Idle (r.map .restore) w := by
  intro s hs
  obtain ⟨d, hd, rfl⟩ := List.mem_map.1 hs
  exact ⟨d, rfl, h d hd⟩

/-- A request that is answered changes neither the broker nor the record. -/
theorem answered (h : Idle (s :: rest) w) {c : Nat} {reply : Broker.Reply Nat}
    (ha : (request w.site.store c s.request).2 = .ok reply) :
    (request w.site.store c s.request).1 = w.site.store ∧ reply = .done ∧ s.update = id := by
  obtain ⟨d, rfl, hd⟩ := h s List.mem_cons_self
  rcases w.site.store.fault?_cases c with hf | hf
  · have hreq : request w.site.store c (TopologyStep.restore d).request =
        (w.site.store, .ok .done) := request_of_has hf hd
    rw [hreq] at ha ⊢
    exact ⟨rfl, (Except.ok.inj ha).symm, rfl⟩
  · rw [request_of_fault hf] at ha
    cases ha

end Idle

/-- Whether no binding was refused. -/
def Unrefused (y : Stint) : Prop :=
  match y.call with
  | .inl a => ∀ queue b f e, a.phase ≠ .withdrawing queue b f e
  | .inr res => ∀ queue exchange key f, res ≠ .error (.queueBind queue exchange key f)

section Stint

variable {t : Topology} {w : HubWorld} {a : Arrangement Nat}

/-- A step of an arrangement that restores what is there leaves the site as it was. -/
theorem idle_work (h : Carries t Idle ⟨w, .inl a⟩) (hu : Unrefused ⟨w, .inl a⟩) (opens : Bool) :
    (Stint.step ⟨w, .inl a⟩ (.work opens)).world.site = w.site ∧
      Unrefused (Stint.step ⟨w, .inl a⟩ (.work opens)) := by
  have hg := a.goes_step w opens
  simp only [Stint.step]
  generalize (a.step w opens).1 = w' at hg ⊢
  generalize (a.step w opens).2 = x at hg ⊢
  -- nothing is refused, so nothing is withdrawn, and what is declared is there
  cases hg with
  | done => exact ⟨rfl, by simp [Unrefused, Stint.goOn]⟩
  | turn => exact ⟨rfl, by simp [Unrefused, Stint.goOn]⟩
  | askWaits hp he => exact ⟨site_of_goes he (by simp), by simp [Unrefused, Stint.goOn]⟩
  | askMoves hp he => exact ⟨site_of_goes he (by simp), by simp [Unrefused, Stint.goOn]⟩
  | askFailed hp he => exact ⟨site_of_goes he (by simp), by simp [Unrefused, Stint.goOn]⟩
  | refused hp he =>
    obtain ⟨c, -, hanswer⟩ := answered_of_goes he
    obtain ⟨-, hdone, -⟩ := (h.asking hp).answered hanswer
    cases hdone
  | succeed hp hr he =>
    obtain ⟨c, rfl, hanswer⟩ := answered_of_goes he
    obtain ⟨hsame, -, hid⟩ := (h.asking hp).answered hanswer
    refine ⟨?_, by simp [Unrefused, Stint.goOn]⟩
    rw [hsame, hid]
    simp only [changeRecord, withStore, List.modify_id]
  | withdrawWaits hp => exact absurd hp (hu _ _ _ _)
  | withdrawMoves hp => exact absurd hp (hu _ _ _ _)
  | withdrawn hp => exact absurd hp (hu _ _ _ _)

theorem carries_idle_run (t : Topology) {steps : List TopologyStep} (h : Idle steps w)
    {moves : List Stint.Move} (hg : Growing t.record moves) :
    Carries t Idle (Stint.run w ⟨t, steps, .ready⟩ moves) :=
  carries_run (upheld_idle _) h fun f hf _ _ hi => hi.grows (hg f hf)

/-- Nothing is refused to an arrangement that restores what is there. -/
theorem unrefused_run {steps : List TopologyStep} (h : Idle steps w) {moves : List Stint.Move}
    (hg : Growing t.record moves) : Unrefused (Stint.run w ⟨t, steps, .ready⟩ moves) := by
  -- on the last move, and from what the moves before it leave still to be made
  induction moves using List.reverseRecOn with
  | nil => exact nofun
  | append_singleton front m ih =>
    have hfront : Growing t.record front := fun f hf => hg f (List.mem_append_left _ hf)
    have hunrefused := ih hfront
    have hcarried := carries_idle_run t h hfront
    rw [Stint.run, List.foldl_append, ← Stint.run]
    generalize Stint.run w ⟨t, steps, .ready⟩ front = y at hunrefused hcarried ⊢
    obtain ⟨w₁, a | res⟩ := y
    · cases m with
      | work opens => exact (idle_work hcarried hunrefused opens).2
      | drift f => exact hunrefused
    · cases m <;> exact hunrefused

/-- What it is to declare a topology again without effect. -/
structure Unchanged (t : Topology) (w : HubWorld) (bound : Nat) (moves : List Stint.Move) :
    Prop where
  /-- None of its steps changes the site, whatever happens between them. -/
  spares : ∀ front opens rest, moves = front ++ .work opens :: rest →
    (redeclare t w (front ++ [.work opens])).world.site = (redeclare t w front).world.site
  /-- No binding is refused. -/
  unrefused : Unrefused (redeclare t w moves)
  /-- If requests are answered, it comes to its end within so many steps and one more. -/
  ends : Serving t w → (∀ f, .drift f ∈ moves → Peaceful f) → bound < Stint.works moves →
    (redeclare t w moves).call = .inr (.ok ())
  /-- If requests are answered, it ends in no other way. -/
  succeeds : Serving t w → (∀ f, .drift f ∈ moves → Peaceful f) →
    ∀ res, (redeclare t w moves).call = .inr res → res = .ok ()

variable {r : Record} {moves : List Stint.Move}

theorem bounded_redeclare (hr : w.site.records[t.record]? = some r)
    (hhas : ∀ d ∈ r, w.site.store.layout.Has d) (hw : Serving t w)
    (hg : Growing t.record moves) (hm : ∀ f, .drift f ∈ moves → Peaceful f) :
    Bounded t (4 * r.length) moves (redeclare t w moves) := by
  have hbound := bounded_of_upheld (upheld_idle _) Idle.allows hw (Idle.restore hhas) moves
    fun f hf => ⟨fun _ _ hi => hi.grows (hg f hf), hm f hf⟩
  rwa [List.length_map, ← restore_of_get? hr] at hbound

/-- At a broker that has all that is remembered, declaring again has no effect. -/
theorem unchanged_of_has (hr : w.site.records[t.record]? = some r)
    (hhas : ∀ d ∈ r, w.site.store.layout.Has d) (hg : Growing t.record moves) :
    Unchanged t w (4 * r.length) moves := by
  have hidle := Idle.restore hhas
  have hrestore := restore_of_get? hr
  constructor
  case spares =>
    rintro front opens rest rfl
    have hfront : Growing t.record front := fun f hf => hg f (List.mem_append_left _ hf)
    have hunrefused := unrefused_run hidle hfront
    have hcarried := carries_idle_run t hidle hfront
    rw [redeclare, redeclare, hrestore, Stint.run, List.foldl_append, ← Stint.run]
    generalize Stint.run w ⟨t, r.map .restore, .ready⟩ front = y at hunrefused hcarried ⊢
    obtain ⟨w₁, a | res⟩ := y
    · exact (idle_work hcarried hunrefused opens).1
    · rfl
  case unrefused =>
    rw [redeclare, hrestore]
    exact unrefused_run hidle hg
  case ends =>
    intro hw hm hworks
    exact (bounded_redeclare hr hhas hw hg hm).ends hworks
  case succeeds =>
    intro hw hm res he
    have hbound := bounded_redeclare hr hhas hw hg hm
    rwa [Bounded, he] at hbound

/-- After successful calls of which none deletes an exchange while a remembered queue is bound to
it, at a broker at which nobody else deletes anything, declaring again has no effect. -/
theorem intact_run {steps : List TopologyStep} (h : Tended t w steps) (hs : LeavesFrom [] steps)
    (hg : Growing t.record moves) : Unchanged t w (4 * steps.length) moves := by
  obtain ⟨hr, hhas⟩ := h.has hs
  have hu := unchanged_of_has hr hhas hg
  have hlen := length_foldl_update steps []
  simp only [List.length_nil, Nat.zero_add] at hlen
  exact { hu with
    ends := fun hw hm hworks => hu.ends hw hm (by omega) }

/-- A topology that has been declared again left the layout as it was, without an error, exactly if
the broker had all that is remembered. -/
theorem unchanged_iff (hr : w.site.records[t.record]? = some r) (hw : Serving t w)
    (hm : Undisturbed t moves) {res : Except (MessagingError Fault) Unit}
    (he : (redeclare t w moves).call = .inr res) :
    res = .ok () ∧ (redeclare t w moves).world.site.store.layout = w.site.store.layout ↔
      ∀ d ∈ r, w.site.store.layout.Has d := by
  have hspared : Spared t.record moves := fun f hf => (hm f hf).1
  have hgrowing : Growing t.record moves := fun f hf w₁ =>
    ⟨.of_eq (hspared f hf w₁).1.symm, (hspared f hf w₁).2⟩
  have hmade : res = .ok () → w.site.store.layout.Passes (r.map .restore) ∧
      (redeclare t w moves).world.site.store.layout =
        (r.map .restore).foldl Layout.after w.site.store.layout := by
    rintro rfl
    rw [redeclare, restore_of_get? hr] at he ⊢
    obtain ⟨hp, hl, -⟩ := made_of_ok rfl hr hspared (congrArg (Stint.mk _) he)
    exact ⟨hp, hl⟩
  constructor
  · rintro ⟨hres, hl⟩ d hd
    obtain ⟨hp, hl'⟩ := hmade hres
    rw [← hl, hl']
    exact Layout.has_of_passes hp hd
  · intro hhas
    have hres := (unchanged_of_has hr hhas hgrowing).succeeds hw (fun f hf => (hm f hf).2) res he
    exact ⟨hres, (hmade hres).2.trans (Layout.foldl_restore_of_has hhas)⟩

end Stint

/-! ## A queue with a message, and an exchange that is deleted -/

section Examples

variable {t : Topology} {w : HubWorld} {steps : List TopologyStep}

theorem growing_works (i n : Nat) (opens : Bool) :
    Growing i (List.replicate n (.work opens)) := by
  intro f hf
  exact absurd (List.eq_of_mem_replicate hf) nofun

theorem Tended.called (h : Tended t w steps) {s : TopologyStep} (hc : IsCall s)
    (he : (Stint.run w ⟨t, [s], .ready⟩ (List.replicate 5 (.work false))).call = .inr (.ok ())) :
    Tended t (called t w s) (steps ++ [s]) :=
  h.call hc (growing_works _ 5 false) (congrArg (Stint.mk _) he)

/-- A world with a new topology, at a broker where a message waits in a queue. -/
def waitingWorld : HubWorld :=
  let m : Message := { body := [109], headers := .empty }
  let q : Queue := { durable := true, exclusive := false, messages := [m] }
  { freshWorld with
    site := { freshWorld.site with store := { channels := 1, queues := .ofList [("q", q)] } } }

/-- That queue is bound and all is declared again: the message is still waiting. -/
theorem unchanged_with_waiting_message :
    let x : TopologyStep := .declare (.exchange ⟨"x", .topic, true, false⟩)
    let q : TopologyStep := .declare (.queue ⟨"q", true, false, false⟩ [⟨"k", "x"⟩])
    let w := called freshTopology (called freshTopology waitingWorld x) q
    let moves := List.replicate 9 (Stint.Move.work false)
    Unchanged freshTopology w 8 moves ∧
      (redeclare freshTopology w moves).call = .inr (.ok ()) ∧
      ((redeclare freshTopology w moves).world.site.store.waiting "q").length = 1 := by
  intro x q w moves
  have hk : Tended freshTopology w [x, q] :=
    ((Tended.start (w := waitingWorld) (by decide +kernel)).called (s := x) trivial
      (by decide +kernel)).called (s := q) trivial (by decide +kernel)
  have hs : LeavesFrom [] [x, q] := ⟨trivial, trivial, trivial⟩
  have hw : Serving freshTopology w :=
    ⟨by decide +kernel, ⟨1, by decide +kernel, by decide +kernel⟩, by decide +kernel,
      by decide +kernel⟩
  have hu := intact_run hk hs (growing_works _ 9 false)
  have hends := hu.ends hw (fun f hf => absurd (List.eq_of_mem_replicate hf) nofun) (by decide)
  exact ⟨hu, hends, by decide +kernel⟩

/-- A queue loses its binding with the exchange, and is itself deleted when all is declared
again. -/
theorem queue_lost_after_its_exchange :
    ∃ (t : Topology) (w : HubWorld) (steps : List TopologyStep) (moves : List Stint.Move)
      (f : Fault), Tended t w steps ∧ Serving t w ∧ Growing t.record moves ∧
        w.site.store.queues.contains "q" = true ∧
        (redeclare t w moves).call = .inr (.error (.queueBind "q" "x" "k" f)) ∧
        (redeclare t w moves).world.site.store.queues.contains "q" = false := by
  let x : TopologyStep := .declare (.exchange ⟨"x", .direct, true, false⟩)
  let q : TopologyStep := .declare (.queue ⟨"q", true, false, false⟩ [⟨"k", "x"⟩])
  let gone : TopologyStep := .delete false "x"
  let w := called freshTopology (called freshTopology (called freshTopology freshWorld x) q) gone
  have hk : Tended freshTopology w [x, q, gone] :=
    (((Tended.start (w := freshWorld) rfl).called (s := x) trivial (by decide +kernel)).called
      (s := q) trivial (by decide +kernel)).called (s := gone) trivial (by decide +kernel)
  have hw : Serving freshTopology w :=
    ⟨by decide +kernel, ⟨1, by decide +kernel, by decide +kernel⟩, by decide +kernel,
      by decide +kernel⟩
  have he : (redeclare freshTopology w (List.replicate 8 (.work false))).call =
      .inr (.error (.queueBind "q" "x" "k" (Hub.notFound "exchange" "x"))) := by
    decide +kernel
  exact ⟨_, w, _, _, _, hk, hw, growing_works _ 8 false, by decide +kernel, he,
    by decide +kernel⟩

end Examples

end Reconnect.Rehearsal
