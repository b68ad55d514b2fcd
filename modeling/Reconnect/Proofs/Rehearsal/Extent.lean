import Reconnect.Proofs.Rehearsal.Coherence

/-!
# How far a change of a layout goes

Most of what is asked of a broker takes away at most one exchange or one queue, with its bindings,
and adds at most some bindings of one queue. The extent of a move or of a step of a topology bounds
what it can take away and add, whether it succeeds or not (`Hub.Move.reaches`, `request_reaches`); a
reset of the broker may take away everything.
-/

namespace Reconnect.Rehearsal

open Broker

/-- The exchanges and the queues that a change may take away, and the bindings that it may add. A
binding may go with its exchange or its queue. -/
structure Extent where
  exchanges : String → Prop := fun _ => False
  queues : String → Prop := fun _ => False
  bindings : Binding → Prop := fun _ => False

/-- The extent of a step of a topology. -/
def extentOf : TopologyStep → Extent
  | .declare d | .restore d => { bindings := Binds d }
  | .delete false name => { exchanges := (· = name) }
  | .delete true name => { queues := (· = name) }

/-- The extent of a move. -/
def Hub.Move.extent : Hub.Move → Extent
  | .deleteExchange _ name => { exchanges := (· = name) }
  | .bindQueue _ queue b => { bindings := (· = ⟨queue, b.exchange, b.routingKey⟩) }
  | .deleteQueue _ name _ _ => { queues := (· = name) }
  | .resetTransient => { exchanges := fun _ => True, queues := fun _ => True }
  | _ => {}

/-- Whether a layout becomes another one by a change of some extent. -/
structure Layout.Reaches (x : Extent) (ℓ ℓ' : Layout) : Prop where
  exchange : ∀ name, (ℓ.exchange? name).isSome = true →
    x.exchanges name ∨ (ℓ'.exchange? name).isSome = true
  queue : ∀ name, (ℓ.queue? name).isSome = true →
    x.queues name ∨ (ℓ'.queue? name).isSome = true
  kept : ∀ b, ℓ.bound b → x.exchanges b.exchange ∨ x.queues b.queue ∨ ℓ'.bound b
  added : ∀ b, ℓ'.bound b → ℓ.bound b ∨ x.bindings b

namespace Layout.Reaches

variable {x : Extent} {ℓ ℓ' ℓ'' : Layout}

theorem of_eq (h : ℓ' = ℓ) : ℓ.Reaches x ℓ' where
  exchange _ hx := .inr (h ▸ hx)
  queue _ hq := .inr (h ▸ hq)
  kept _ hb := .inr (.inr (h ▸ hb))
  added _ hb := .inl (h ▸ hb)

theorem trans (h : ℓ.Reaches x ℓ') (h' : ℓ'.Reaches x ℓ'') : ℓ.Reaches x ℓ'' where
  exchange name hx := (h.exchange name hx).elim .inl (h'.exchange name)
  queue name hq := (h.queue name hq).elim .inl (h'.queue name)
  kept b hb := by
    rcases h.kept b hb with hx | hq | hb
    · exact .inl hx
    · exact .inr (.inl hq)
    · exact h'.kept b hb
  added b hb := (h'.added b hb).elim (h.added b) .inr

/-- A change of some extent has every greater extent. -/
theorem mono {y : Extent} (h : ℓ.Reaches x ℓ') (hx : ∀ name, x.exchanges name → y.exchanges name)
    (hq : ∀ name, x.queues name → y.queues name) (hb : ∀ b, x.bindings b → y.bindings b) :
    ℓ.Reaches y ℓ' where
  exchange name hs := (h.exchange name hs).imp_left (hx name)
  queue name hs := (h.queue name hs).imp_left (hq name)
  kept b hs := (h.kept b hs).imp (hx _) (Or.imp_left (hq _))
  added b hs := (h.added b hs).imp_right (hb b)

theorem declare (ℓ : Layout) (d : Declaration) :
    ℓ.Reaches { bindings := Binds d } (ℓ.declare d) where
  exchange name hx := .inr (by simp [Layout.declare, hx])
  queue name hq := .inr (by simp [Layout.declare, hq])
  kept _ hb := .inr (.inr (.inl hb))
  added _ hb := hb

theorem deleteExchange (ℓ : Layout) (name : String) :
    ℓ.Reaches { exchanges := (· = name) } (ℓ.deleteExchange name) where
  exchange other hx := by
    by_cases he : other = name
    · exact .inl he
    · exact .inr (by simpa [Layout.deleteExchange, he] using hx)
  queue _ hq := .inr hq
  kept b hb := by
    by_cases he : b.exchange = name
    · exact .inl he
    · exact .inr (.inr ⟨hb, he⟩)
  added _ hb := .inl hb.1

theorem deleteQueue (ℓ : Layout) (name : String) :
    ℓ.Reaches { queues := (· = name) } (ℓ.deleteQueue name) where
  exchange _ hx := .inr hx
  queue other hq := by
    by_cases he : other = name
    · exact .inl he
    · exact .inr (by simpa [Layout.deleteQueue, he] using hq)
  kept b hb := by
    by_cases he : b.queue = name
    · exact .inr (.inl he)
    · exact .inr (.inr ⟨hb, he⟩)
  added _ hb := .inl hb.1

end Layout.Reaches

/-! ## Moves -/

namespace Hub

variable {h : Hub} {x : Extent}

theorem layout_modify (h : Hub) (name : String) {put : Queue → Queue}
    (hs : ∀ q, (put q).shape = q.shape) :
    layout { h with queues := h.queues.modify name put } = h.layout := by
  refine Layout.ext rfl (funext fun other => ?_) rfl
  simp only [layout, Table.get?_modify]
  split
  · simp only [Option.map_map, Function.comp_def, hs]
  · rfl

theorem layout_dropFeeds (h : Hub) (p : Feed → Bool) : (h.dropFeeds p).layout = h.layout := by
  refine Layout.ext rfl (funext fun name => ?_) rfl
  simp only [layout, dropFeeds, Table.get?_mapValues, Option.map_map]
  rfl

theorem layout_close (h : Hub) (c : Nat) : (h.close c).layout = h.layout :=
  h.layout_dropFeeds (·.channel == c)

theorem layout_dispatch (h : Hub) (name : String) : (h.dispatch name).layout = h.layout :=
  (Confined.dispatch h name).layout

theorem layout_requeue (h : Hub) (d : Delivery) : (h.requeue d).layout = h.layout :=
  (layout_dispatch _ _).trans (h.layout_modify d.queue fun _ => rfl)

theorem layout_publish (h : Hub) (exchange key : String) (body : Bytes) (headers : Headers) :
    (h.publish exchange key body headers).1.layout = h.layout := by
  rw [publish]
  split
  · rfl
  · rfl
  · rename_i targets _ hr
    exact (receives_foldl h _ (nodup_route hr)).layout

theorem layout_consume (h : Hub) (c : Nat) (queue : String) :
    (h.consume c queue).1.layout = h.layout := by
  rw [consume]
  split
  · exact (layout_dispatch _ _).trans (h.layout_modify queue fun _ => rfl)
  · rfl

theorem layout_take (h : Hub) (stream : Nat) : (h.take stream).1.layout = h.layout := by
  rw [take]
  split <;> rfl

theorem layout_settle (h : Hub) (d : Delivery) (v : Verdict) :
    (h.settle d v).1.layout = h.layout := by
  rw [settle]
  split
  · rfl
  · split
    · exact layout_requeue _ d
    · dsimp only
      split
      · exact layout_requeue _ d
      · rfl

theorem reaches_declareQueue (h : Hub) (q : QueueOptions) :
    h.layout.Reaches {} (h.declareQueue q).layout where
  exchange _ hx := .inr hx
  queue name hq := by
    right
    obtain ⟨s, hs⟩ := Option.isSome_iff_exists.1 hq
    obtain ⟨q', hq', -⟩ := Option.map_eq_some_iff.1 hs
    simp [layout, declareQueue, get?_insertNew, hq']
  kept _ hb := .inr (.inr hb)
  added _ hb := .inl hb

theorem reaches_bind (h : Hub) (queue : String) (b : QueueBinding) :
    h.layout.Reaches { bindings := (· = ⟨queue, b.exchange, b.routingKey⟩) }
      (h.bind queue b).1.layout := by
  rw [bind]
  split
  · exact .of_eq rfl
  · split
    · exact .of_eq rfl
    · dsimp only
      split
      · exact .of_eq rfl
      · exact ⟨fun _ hx => .inr hx, fun _ hq => .inr hq,
          fun _ hb => .inr (.inr (List.mem_append_left _ hb)),
          fun b' hb' => (List.mem_append.1 hb').imp_right List.mem_singleton.1⟩

theorem reaches_deleteQueue (h : Hub) (name : String) (ifUnused ifEmpty : Bool) :
    h.layout.Reaches { queues := (· = name) } (h.deleteQueue name ifUnused ifEmpty).1.layout := by
  rw [deleteQueue]
  split
  · exact .of_eq rfl
  · split
    · exact .of_eq rfl
    · split
      · exact .of_eq rfl
      · rw [layout_removeQueue]
        exact .deleteQueue _ _

/-- What is reset loses bindings and gains none. -/
theorem reaches_resetTransient (h : Hub) :
    h.layout.Reaches { exchanges := fun _ => True, queues := fun _ => True }
      h.resetTransient.layout where
  exchange _ _ := .inl trivial
  queue _ _ := .inl trivial
  kept _ _ := .inl trivial
  added b hb := by
    -- both loops only filter the bindings
    have hfold : ∀ {remove : Hub → String → Hub}, (∀ h name, b ∈ (remove h name).bindings →
        b ∈ h.bindings) → ∀ (names : List String) (h : Hub),
        b ∈ (names.foldl remove h).bindings → b ∈ h.bindings := by
      intro remove hr names
      induction names with
      | nil => exact fun _ hb => hb
      | cons name rest ih => exact fun h hb => hr h name (ih _ hb)
    exact .inl (hfold (fun _ _ hb => (List.mem_filter.1 hb).1) _ _
      (hfold (fun _ _ hb => (List.mem_filter.1 hb).1) _ _ hb))

theorem reaches_serve {α : Type} (c : Nat) {r : Hub × Except Fault α}
    (hr : h.layout.Reaches x r.1.layout) : h.layout.Reaches x (h.serve c r).1.layout := by
  rw [serve]
  split
  · exact .of_eq rfl
  · exact hr

/-- A move goes no further than its extent. -/
theorem Move.reaches (h : Hub) (m : Move) : h.layout.Reaches m.extent (m.step h).layout := by
  cases m with
  | connect => exact .of_eq rfl
  | hangUp c => exact .of_eq (layout_close { h with network := h.network.countClosed } c)
  | closeChannel c => exact .of_eq (h.layout_close c)
  | declareExchange c x =>
    refine reaches_serve c ?_
    rw [layout_declareExchange]
    exact (Layout.Reaches.declare h.layout (.exchange x)).mono (fun _ => id) (fun _ => id)
      fun _ hb => List.not_mem_nil hb.2
  | deleteExchange c name =>
    refine reaches_serve c ?_
    rw [layout_removeExchange]
    exact .deleteExchange _ _
  | declareQueue c q => exact reaches_serve c (h.reaches_declareQueue q)
  | bindQueue c queue b => exact reaches_serve c (h.reaches_bind queue b)
  | deleteQueue c name ifUnused ifEmpty =>
    exact reaches_serve c (h.reaches_deleteQueue name ifUnused ifEmpty)
  | publish c exchange key body headers =>
    exact reaches_serve c (.of_eq (h.layout_publish exchange key body headers))
  | consume c queue => exact reaches_serve c (.of_eq (h.layout_consume c queue))
  | take stream => exact .of_eq (h.layout_take stream)
  | leave stream => exact .of_eq rfl
  | settle d v => exact .of_eq (h.layout_settle d v)
  | inject queue body id? => exact .of_eq (receives_enqueue h queue _).layout
  | failSettlements n => exact .of_eq rfl
  | dropConsumers => exact .of_eq (h.layout_dropFeeds _)
  | resetTransient => exact h.reaches_resetTransient
  | network n => exact .of_eq rfl

end Hub

/-! ## Requests of a topology -/

/-- However many of the bindings are made before one is refused. -/
theorem bindAll_reaches (h : Hub) (c : Nat) (d : Declaration) (bs : List QueueBinding)
    (hbs : bs ⊆ d.bindings) :
    h.layout.Reaches { bindings := Binds d } (bindAll h c d.name bs).1.layout := by
  induction bs generalizing h with
  | nil => exact .of_eq rfl
  | cons b rest ih =>
    have hfirst : h.layout.Reaches { bindings := Binds d }
        (Channels.bindQueue h c d.name b).1.layout := by
      refine (Hub.Move.reaches h (.bindQueue c d.name b)).mono (fun _ => id) (fun _ => id) ?_
      rintro b' rfl
      exact ⟨rfl, hbs List.mem_cons_self⟩
    rw [bindAll]
    split
    · exact hfirst.trans (ih _ (List.subset_of_cons_subset hbs))
    · exact hfirst

theorem declaration_reaches (h : Hub) (c : Nat) (d : Declaration) :
    h.layout.Reaches { bindings := Binds d } (request h c d.request).1.layout := by
  cases d with
  | exchange x =>
    exact (Hub.Move.reaches h (.declareExchange c x)).mono (fun _ => id) (fun _ => id)
      fun _ => False.elim
  | queue q bs =>
    have hfirst : h.layout.Reaches { bindings := Binds (.queue q bs) }
        (Channels.declareQueue h c q).1.layout :=
      (Hub.Move.reaches h (.declareQueue c q)).mono (fun _ => id) (fun _ => id)
        fun _ => False.elim
    rw [Declaration.request, request]
    split
    · exact hfirst.trans (bindAll_reaches _ c (.queue q bs) bs (List.Subset.refl bs))
    · exact hfirst

/-- A request of a topology goes no further than the extent of its step, however it is answered. -/
theorem request_reaches (h : Hub) (c : Nat) (s : TopologyStep) :
    h.layout.Reaches (extentOf s) (request h c s.request).1.layout := by
  cases s with
  | declare d => exact declaration_reaches h c d
  | restore d => exact declaration_reaches h c d
  | delete queue name =>
    cases queue with
    | false => exact Hub.Move.reaches h (.deleteExchange c name)
    | true => exact Hub.Move.reaches h (.deleteQueue c name false false)

end Reconnect.Rehearsal
