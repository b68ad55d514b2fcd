import Reconnect.Proofs.Rehearsal.Layout

/-!
# What the record of a topology is worth

A topology remembers one declaration for each name, the last one, in the order in which they were
made. That is not all a broker goes by: there a declaration of a name that is taken changes nothing
but adds its bindings, and an exchange may be declared again, or deleted, while queues are bound to
it. A record is `Faithful` to a layout if its declarations can be made one after the other at an
empty broker and make that layout. A step that the broker allows keeps it so exactly if the step is
`Tidy` (`faithful_step_iff`).
-/

namespace Reconnect.Rehearsal

open Broker

/-! ## Records and layouts -/

section Records

variable {ℓ ℓ' : Layout} {r : Record} {d : Declaration} {n name : String}

/-- The layout that the declarations of a record make of an empty broker. -/
def layoutOf (r : Record) : Layout where
  exchange? name := r.findSome? (exchangeOf? · name)
  queue? name := r.findSome? (shapeOf? · name)
  bound b := ∃ d ∈ r, Binds d b

theorem foldl_restore (ℓ : Layout) (r : Record) :
    (r.map .restore).foldl Layout.after ℓ =
      { exchange? := fun name => (ℓ.exchange? name).or ((layoutOf r).exchange? name)
        queue? := fun name => (ℓ.queue? name).or ((layoutOf r).queue? name)
        bound := fun b => ℓ.bound b ∨ (layoutOf r).bound b } := by
  induction r generalizing ℓ with
  | nil =>
    refine Layout.ext (funext fun name => ?_) (funext fun name => ?_) (funext fun b => ?_)
    · exact Option.or_none.symm
    · exact Option.or_none.symm
    · simp [layoutOf]
  | cons d rest ih =>
    rw [List.map_cons, List.foldl_cons, ih]
    have hcons : ∀ {α : Type} (f : Declaration → Option α),
        (d :: rest).findSome? f = (f d).or (rest.findSome? f) := by
      intro α f
      rw [List.findSome?_cons]
      cases f d <;> rfl
    refine Layout.ext (funext fun name => ?_) (funext fun name => ?_) (funext fun b => ?_)
    · simp only [layoutOf, hcons, Layout.after, Layout.declare, Option.or_assoc]
    · simp only [layoutOf, hcons, Layout.after, Layout.declare, Option.or_assoc]
    · simp [layoutOf, Layout.after, Layout.declare, or_assoc]

/-- Declared again at an empty broker, a record makes its layout. -/
theorem foldl_restore_empty (r : Record) :
    (r.map .restore).foldl Layout.after .empty = layoutOf r := by
  rw [foldl_restore]
  refine Layout.ext (funext fun name => ?_) (funext fun name => ?_) (funext fun b => ?_)
  · exact Option.none_or
  · exact Option.none_or
  · exact propext ⟨fun h => h.resolve_left id, .inr⟩

theorem exchangeOf?_of_concerns (h : d.concerns false n = true) (hne : name ≠ n) :
    exchangeOf? d name = none := by
  cases d with
  | exchange x =>
    obtain rfl : x.name = n := by
      simpa [Declaration.concerns, Declaration.isQueue, Declaration.name] using h
    exact if_neg hne
  | queue => rfl

theorem exchangeOf?_of_not_concerns (h : d.concerns false n = false) :
    exchangeOf? d n = none := by
  cases d with
  | exchange x =>
    have hne : n ≠ x.name := by
      rintro rfl
      simp [Declaration.concerns, Declaration.isQueue, Declaration.name] at h
    exact if_neg hne
  | queue => rfl

theorem shapeOf?_of_concerns (h : d.concerns true n = true) (hne : name ≠ n) :
    shapeOf? d name = none := by
  cases d with
  | exchange => rfl
  | queue q bs =>
    obtain rfl : q.name = n := by
      simpa [Declaration.concerns, Declaration.isQueue, Declaration.name] using h
    exact if_neg hne

theorem shapeOf?_of_not_concerns (h : d.concerns true n = false) : shapeOf? d n = none := by
  cases d with
  | exchange => rfl
  | queue q bs =>
    have hne : n ≠ q.name := by
      rintro rfl
      simp [Declaration.concerns, Declaration.isQueue, Declaration.name] at h
    exact if_neg hne

theorem exchangeOf?_of_isQueue (h : d.concerns true n = true) : exchangeOf? d name = none := by
  cases d with
  | exchange => simp [Declaration.concerns, Declaration.isQueue] at h
  | queue => rfl

theorem shapeOf?_of_isExchange (h : d.concerns false n = true) : shapeOf? d name = none := by
  cases d with
  | exchange => rfl
  | queue => simp [Declaration.concerns, Declaration.isQueue] at h

/-- A queue is what makes a binding, so the binding is that of a queue. -/
theorem Binds.concerns {b : Binding} (h : Binds d b) (queue : Bool) (n : String) :
    d.concerns queue n = (queue && decide (b.queue = n)) := by
  cases d with
  | exchange => exact absurd h.2 nofun
  | queue q bs =>
    rw [h.1]
    cases queue <;> rfl

theorem findSome?_filter {α β : Type} {f : α → Option β} {p : α → Bool} {xs : List α}
    (h : ∀ a ∈ xs, p a = false → f a = none) : (xs.filter p).findSome? f = xs.findSome? f := by
  induction xs with
  | nil => rfl
  | cons a rest ih =>
    have ih := ih fun b hb => h b (List.mem_cons_of_mem a hb)
    cases hp : p a with
    | true => rw [List.filter_cons_of_pos hp, List.findSome?_cons, List.findSome?_cons, ih]
    | false =>
      rw [List.filter_cons_of_neg (by simp [hp]), List.findSome?_cons, h a List.mem_cons_self hp,
        ih]

theorem findSome?_forget {α : Type} {f : Declaration → Option α} {queue : Bool}
    (h : ∀ d, d.concerns queue n = true → f d = none) :
    (Record.forget r queue n).findSome? f = r.findSome? f :=
  findSome?_filter fun d _ hd => h d (by simpa using hd)

theorem findSome?_forget_eq_none {α : Type} {f : Declaration → Option α} {queue : Bool}
    (h : ∀ d, d.concerns queue n = false → f d = none) :
    (Record.forget r queue n).findSome? f = none := by
  rw [List.findSome?_eq_none_iff]
  intro d hd
  exact h d (by simpa using (List.mem_filter.1 hd).2)

/-- A record without an exchange keeps the bindings to it. -/
theorem layoutOf_forget_exchange (r : Record) (n : String) :
    layoutOf (Record.forget r false n) =
      { layoutOf r with
        exchange? := fun name => if name = n then none else (layoutOf r).exchange? name } := by
  refine Layout.ext (funext fun name => ?_) (funext fun name => ?_) (funext fun b => ?_)
  · by_cases hn : name = n
    · subst hn
      exact (findSome?_forget_eq_none fun d => exchangeOf?_of_not_concerns).trans (if_pos rfl).symm
    · exact (findSome?_forget fun d hd => exchangeOf?_of_concerns hd hn).trans (if_neg hn).symm
  · exact findSome?_forget fun d => shapeOf?_of_isExchange
  · refine propext (exists_congr fun d => and_congr_left fun hb => ?_)
    simp [Record.forget, hb.concerns]

/-- A record without a queue has lost its bindings too. -/
theorem layoutOf_forget_queue (r : Record) (n : String) :
    layoutOf (Record.forget r true n) = (layoutOf r).deleteQueue n := by
  refine Layout.ext (funext fun name => ?_) (funext fun name => ?_) (funext fun b => ?_)
  · exact findSome?_forget fun d => exchangeOf?_of_isQueue
  · by_cases hn : name = n
    · subst hn
      simp only [Layout.deleteQueue, if_pos]
      exact findSome?_forget_eq_none fun d => shapeOf?_of_not_concerns
    · simp only [Layout.deleteQueue, if_neg hn]
      exact findSome?_forget fun d hd => shapeOf?_of_concerns hd hn
  · refine propext ⟨?_, ?_⟩
    · rintro ⟨d, hd, hb⟩
      rw [Record.forget, List.mem_filter, hb.concerns] at hd
      exact ⟨⟨d, hd.1, hb⟩, by simpa using hd.2⟩
    · rintro ⟨⟨d, hd, hb⟩, hne⟩
      refine ⟨d, List.mem_filter.2 ⟨hd, ?_⟩, hb⟩
      simp [hb.concerns, hne]

/-- A declaration at the end of a record comes last. -/
theorem layoutOf_append (r : Record) (d : Declaration) :
    layoutOf (r ++ [d]) = (layoutOf r).declare d := by
  rw [← foldl_restore_empty, ← foldl_restore_empty, List.map_append, List.foldl_append]
  rfl

/-! ## Replaying a record -/

/-- A part of a record can be replayed if it keeps the exchanges to which it binds queues. -/
theorem passes_filter {p : Declaration → Bool} (needed : String → Prop)
    (h : ℓ.Passes (r.map .restore))
    (hℓ : ∀ n, needed n → (ℓ.exchange? n).isSome = true → (ℓ'.exchange? n).isSome = true)
    (hneeds : ∀ d ∈ r, p d = true → ∀ b ∈ d.bindings, needed b.exchange)
    (hkeeps : ∀ d ∈ r, p d = false → ∀ n, needed n → exchangeOf? d n = none) :
    ℓ'.Passes ((r.filter p).map .restore) := by
  induction r generalizing ℓ ℓ' with
  | nil => trivial
  | cons d rest ih =>
    obtain ⟨hd, hrest⟩ := h
    have hneeds' := fun d' hd' => hneeds d' (List.mem_cons_of_mem d hd')
    have hkeeps' := fun d' hd' => hkeeps d' (List.mem_cons_of_mem d hd')
    cases hp : p d with
    | true =>
      rw [List.filter_cons_of_pos hp]
      refine ⟨fun b hb => hℓ _ (hneeds d List.mem_cons_self hp b hb) (hd b hb),
        ih hrest ?_ hneeds' hkeeps'⟩
      intro n hn hs
      simp only [Layout.after, Layout.declare, Option.isSome_or, Bool.or_eq_true] at hs ⊢
      exact hs.imp_left (hℓ n hn)
    | false =>
      rw [List.filter_cons_of_neg (by simp [hp])]
      refine ih hrest ?_ hneeds' hkeeps'
      intro n hn hs
      simp only [Layout.after, Layout.declare, hkeeps d List.mem_cons_self hp n hn,
        Option.or_none] at hs
      exact hℓ n hn hs

/-- A record that can be replayed has the exchanges to which it binds queues. -/
theorem isSome_exchange?_of_passes (h : ℓ.Passes (r.map .restore)) (hd : d ∈ r)
    {b : QueueBinding} (hb : b ∈ d.bindings) :
    ((ℓ.exchange? b.exchange).or ((layoutOf r).exchange? b.exchange)).isSome = true := by
  obtain ⟨before, behind, rfl⟩ := List.append_of_mem hd
  rw [List.map_append, Layout.passes_append] at h
  have hs := h.2.1 b hb
  rw [foldl_restore, Option.isSome_or, Bool.or_eq_true] at hs
  rw [Option.isSome_or, Bool.or_eq_true]
  refine hs.imp_right fun hx => ?_
  have happend : (layoutOf (before ++ d :: behind)).exchange? b.exchange =
      ((layoutOf before).exchange? b.exchange).or
        ((d :: behind).findSome? (exchangeOf? · b.exchange)) := List.findSome?_append
  rw [happend, Option.isSome_or, hx, Bool.true_or]

end Records

/-- The declarations of a record can be made one after the other, and make a layout. -/
structure Faithful (r : Record) (ℓ : Layout) : Prop where
  passes : Layout.empty.Passes (r.map .restore)
  layout : layoutOf r = ℓ

/-- Whether a step of a topology gives the record and the broker the same: what is declared again
is declared as it was, a queue with all its bindings, and no exchange is declared again or deleted
while a queue is bound to it. -/
def Layout.Tidy (ℓ : Layout) : TopologyStep → Prop
  | .declare (.exchange x) =>
    (∀ x', ℓ.exchange? x.name = some x' → x' = ⟨x.kind, x.durable⟩) ∧
      ∀ b, ℓ.bound b → b.exchange ≠ x.name
  | .declare (.queue q bs) =>
    (∀ s, ℓ.queue? q.name = some s → s = ⟨q.durable, q.exclusive⟩) ∧
      ∀ b, ℓ.bound b → b.queue = q.name → ⟨b.routingKey, b.exchange⟩ ∈ bs
  | .delete false name => ∀ b, ℓ.bound b → b.exchange ≠ name
  | .delete true _ => True
  | .restore _ => True

/-- Whether a step is a call of its own. -/
def IsCall : TopologyStep → Prop
  | .declare _ | .delete _ _ => True
  | .restore _ => False

section Faithful

variable {r : Record} {ℓ : Layout}

theorem Faithful.empty : Faithful [] .empty := by
  refine ⟨trivial, Layout.ext rfl rfl (funext fun b => ?_)⟩
  simp [layoutOf, Layout.empty]

/-- Every binding of a layout to which a record is faithful is that of a queue declared there. -/
theorem Faithful.exists_binds (h : Faithful r ℓ) {b : Binding} (hb : ℓ.bound b) :
    ∃ d ∈ r, Binds d b := by
  rw [← h.layout] at hb
  exact hb

/-- Exchanges to which nothing is bound can be forgotten. -/
theorem Faithful.passes_forget_exchange (h : Faithful r ℓ) {n : String}
    (hfree : ∀ b, ℓ.bound b → b.exchange ≠ n) :
    Layout.empty.Passes ((Record.forget r false n).map .restore) := by
  refine passes_filter (· ≠ n) h.passes (fun _ _ => id) ?_ ?_
  · intro d hd _ b hb
    refine hfree ⟨d.name, b.exchange, b.routingKey⟩ ?_
    rw [← h.layout]
    exact ⟨d, hd, rfl, hb⟩
  · intro d _ hp n' hne
    exact exchangeOf?_of_concerns (by simpa using hp) hne

/-- Queues can always be forgotten. -/
theorem Faithful.passes_forget_queue (h : Faithful r ℓ) (n : String) :
    Layout.empty.Passes ((Record.forget r true n).map .restore) := by
  refine passes_filter (fun _ => True) h.passes (fun _ _ => id)
    (fun _ _ _ _ _ => trivial) ?_
  intro d _ hp n' _
  exact exchangeOf?_of_isQueue (n := n) (by simpa using hp)

theorem Faithful.declareExchange (h : Faithful r ℓ) {x : ExchangeOptions}
    (ht : ℓ.Tidy (.declare (.exchange x))) :
    Faithful (r.remember (.exchange x)) (ℓ.declare (.exchange x)) := by
  have hpasses := h.passes_forget_exchange ht.2
  constructor
  · show Layout.empty.Passes
      ((Record.forget r false x.name ++ [Declaration.exchange x]).map .restore)
    rw [List.map_append, Layout.passes_append]
    exact ⟨hpasses, nofun, trivial⟩
  · show layoutOf (Record.forget r false x.name ++ [Declaration.exchange x]) = _
    rw [layoutOf_append, layoutOf_forget_exchange, h.layout]
    refine Layout.ext (funext fun name => ?_) rfl rfl
    by_cases hn : name = x.name
    · subst hn
      simp only [Layout.declare, exchangeOf?, if_pos]
      cases hx : ℓ.exchange? x.name with
      | none => rfl
      | some x' => rw [ht.1 x' hx]; rfl
    · simp [Layout.declare, hn]

theorem Faithful.declareQueue (h : Faithful r ℓ) {q : QueueOptions} {bs : List QueueBinding}
    (ha : ℓ.Admits (.queue q bs)) (ht : ℓ.Tidy (.declare (.queue q bs))) :
    Faithful (r.remember (.queue q bs)) (ℓ.declare (.queue q bs)) := by
  have hpasses := h.passes_forget_queue q.name
  constructor
  · show Layout.empty.Passes
      ((Record.forget r true q.name ++ [Declaration.queue q bs]).map .restore)
    rw [List.map_append, Layout.passes_append, foldl_restore_empty, layoutOf_forget_queue,
      h.layout]
    exact ⟨hpasses, ha, trivial⟩
  · show layoutOf (Record.forget r true q.name ++ [Declaration.queue q bs]) = _
    rw [layoutOf_append, layoutOf_forget_queue, h.layout]
    refine Layout.ext rfl (funext fun name => ?_) (funext fun b => propext ?_)
    · by_cases hn : name = q.name
      · subst hn
        simp only [Layout.declare, Layout.deleteQueue, shapeOf?, if_pos]
        cases hs : ℓ.queue? q.name with
        | none => rfl
        | some s => rw [ht.1 s hs]; rfl
      · simp [Layout.declare, Layout.deleteQueue, hn]
    · -- the bindings that the queue had are declared with it again
      constructor
      · rintro (⟨hb, -⟩ | hb)
        · exact .inl hb
        · exact .inr hb
      · rintro (hb | hb)
        · by_cases hn : b.queue = q.name
          · exact .inr ⟨hn, ht.2 b hb hn⟩
          · exact .inl ⟨hb, hn⟩
        · exact .inr hb

theorem Faithful.deleteExchange (h : Faithful r ℓ) {n : String}
    (ht : ℓ.Tidy (.delete false n)) : Faithful (r.forget false n) (ℓ.deleteExchange n) := by
  refine ⟨h.passes_forget_exchange ht, ?_⟩
  rw [layoutOf_forget_exchange, h.layout]
  refine Layout.ext rfl rfl (funext fun b => propext ?_)
  exact ⟨fun hb => ⟨hb, ht b hb⟩, And.left⟩

theorem Faithful.deleteQueue (h : Faithful r ℓ) (n : String) :
    Faithful (r.forget true n) (ℓ.after (.delete true n)) := by
  refine ⟨h.passes_forget_queue n, ?_⟩
  rw [layoutOf_forget_queue, h.layout, Layout.after]
  split
  case isTrue => rfl
  case isFalse hq =>
    rw [Option.not_isSome_iff_eq_none] at hq
    -- a queue that is not there has no bindings
    refine Layout.ext rfl (funext fun name => ?_) (funext fun b => propext ?_)
    · simp only [Layout.deleteQueue]
      split
      case isTrue hn => rw [hn, hq]
      case isFalse => rfl
    · refine ⟨And.left, fun hb => ⟨hb, ?_⟩⟩
      rintro rfl
      obtain ⟨d, hd, hbinds⟩ := h.exists_binds hb
      rw [← h.layout] at hq
      have hnone := List.findSome?_eq_none_iff.1 hq d hd
      cases d with
      | exchange => exact absurd hbinds.2 List.not_mem_nil
      | queue q bs =>
        have hname : b.queue = q.name := hbinds.1
        rw [shapeOf?, if_pos hname] at hnone
        cases hnone

/-- A step that the broker allows and that is tidy keeps the record faithful. -/
theorem Faithful.step (h : Faithful r ℓ) {s : TopologyStep} (hs : IsCall s) (ha : ℓ.Allows s)
    (ht : ℓ.Tidy s) : Faithful (s.update r) (ℓ.after s) := by
  cases s with
  | declare d =>
    cases d with
    | exchange x => exact h.declareExchange ht
    | queue q bs => exact h.declareQueue ha ht
  | restore d => cases hs
  | delete queue n =>
    cases queue with
    | false => exact h.deleteExchange ht
    | true => exact h.deleteQueue n

theorem Faithful.tidy_declareExchange (h : Faithful r ℓ) {x : ExchangeOptions}
    (h' : Faithful (r.remember (.exchange x)) (ℓ.declare (.exchange x))) :
    ℓ.Tidy (.declare (.exchange x)) := by
  have hrecord : r.remember (.exchange x) =
      Record.forget r false x.name ++ [Declaration.exchange x] := rfl
  obtain ⟨hpasses, hlayout⟩ := h'
  rw [hrecord] at hpasses hlayout
  rw [layoutOf_append, layoutOf_forget_exchange] at hlayout
  constructor
  · intro x' hx
    have hsame := congrFun (congrArg Layout.exchange? hlayout) x.name
    simp only [Layout.declare, exchangeOf?, if_pos, hx] at hsame
    exact (Option.some.inj hsame).symm
  · -- a queue that stays in the record would be declared before its exchange
    intro b hb hx
    obtain ⟨d, hd, hbinds⟩ := h.exists_binds hb
    rw [List.map_append, Layout.passes_append] at hpasses
    have hmem : d ∈ Record.forget r false x.name :=
      List.mem_filter.2 ⟨hd, by simp [hbinds.concerns]⟩
    have hsome := isSome_exchange?_of_passes hpasses.1 hmem hbinds.2
    simp [Layout.empty, layoutOf_forget_exchange, hx] at hsome

theorem Faithful.tidy_declareQueue {q : QueueOptions} {bs : List QueueBinding}
    (h' : Faithful (r.remember (.queue q bs)) (ℓ.declare (.queue q bs))) :
    ℓ.Tidy (.declare (.queue q bs)) := by
  have hrecord : r.remember (.queue q bs) =
      Record.forget r true q.name ++ [Declaration.queue q bs] := rfl
  have hlayout := h'.layout
  rw [hrecord, layoutOf_append, layoutOf_forget_queue] at hlayout
  constructor
  · intro s hs
    have hsame := congrFun (congrArg Layout.queue? hlayout) q.name
    simp only [Layout.declare, Layout.deleteQueue, shapeOf?, if_pos, hs] at hsame
    exact (Option.some.inj hsame).symm
  · intro b hb hq
    have hbound : ((layoutOf r).deleteQueue q.name |>.declare (.queue q bs)).bound b := by
      rw [hlayout]
      exact .inl hb
    rcases hbound with ⟨-, hne⟩ | hbinds
    · exact absurd hq hne
    · exact hbinds.2

theorem Faithful.tidy_deleteExchange (h : Faithful r ℓ) {n : String}
    (h' : Faithful (r.forget false n) (ℓ.deleteExchange n)) : ℓ.Tidy (.delete false n) := by
  rintro b hb rfl
  obtain ⟨d, hd, hbinds⟩ := h.exists_binds hb
  have hbound : (layoutOf (r.forget false b.exchange)).bound b :=
    ⟨d, List.mem_filter.2 ⟨hd, by simp [hbinds.concerns]⟩, hbinds⟩
  rw [h'.layout] at hbound
  exact hbound.2 rfl

/-- A step after which the record is still faithful was tidy. -/
theorem Faithful.tidy (h : Faithful r ℓ) {s : TopologyStep} (hs : IsCall s)
    (h' : Faithful (s.update r) (ℓ.after s)) : ℓ.Tidy s := by
  cases s with
  | restore d => cases hs
  | declare d =>
    cases d with
    | exchange x => exact h.tidy_declareExchange h'
    | queue q bs => exact tidy_declareQueue h'
  | delete queue n =>
    cases queue with
    | true => trivial
    | false => exact h.tidy_deleteExchange h'

/-- A successful step keeps a record faithful exactly if it is tidy. -/
theorem faithful_step_iff (h : Faithful r ℓ) {s : TopologyStep} (hs : IsCall s)
    (ha : ℓ.Allows s) : Faithful (s.update r) (ℓ.after s) ↔ ℓ.Tidy s :=
  ⟨h.tidy hs, h.step hs ha⟩

end Faithful

end Reconnect.Rehearsal
