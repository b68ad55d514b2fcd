import Mathlib.Data.List.Basic
import Reconnect.Proofs.Broker.Failures
import Reconnect.Proofs.Rehearsal.Hub

/-!
# The balance of messages

Messages with names of their own go through a consumer whose settlements may fail. At every moment
each of them has its place (`Balance`): it has not been handled, or it has been handled once and has
been settled, or is being settled, or waits for its settlement with its verdict on record.
-/

namespace Reconnect.Rehearsal

open Broker

/-- Messages that have names, no two of them the same. -/
structure Distinct (messages : List Message) : Prop where
  named : ∀ m ∈ messages, m.id?.isSome = true
  nodup : (messages.map Message.id?).Nodup

theorem Distinct.of_append {messages more : List Message} (h : Distinct (messages ++ more)) :
    Distinct messages := by
  have hnodup := h.nodup
  rw [List.map_append, List.nodup_append] at hnodup
  exact ⟨fun m hm => h.named m (List.mem_append_left more hm), hnodup.1⟩

/-- A message and the verdict on it. -/
abbrev Judged := Message × Verdict

namespace Judged

/-- A message without the mark of a redelivery, and the verdict on it. -/
def plain (e : Judged) : Judged := (e.1.plain, e.2)

theorem map_plain_id? (es : List Judged) :
    (es.map plain).map (·.1.id?) = es.map (·.1.id?) := by
  rw [List.map_map]
  rfl

/-- A message that is put back may be settled later than others. -/
theorem perm_again (log es : List Judged) (m : Message) (v : Verdict) :
    ((log ++ (es ++ [(m.again, v)])).map plain).Perm ((log ++ ((m, v) :: es)).map plain) := by
  have hmark : (log ++ (es ++ [(m.again, v)])).map plain = (log ++ (es ++ [(m, v)])).map plain := by
    simp [plain]
  rw [hmark]
  exact ((List.perm_append_singleton (m, v) es).append_left log).map plain

end Judged

end Reconnect.Rehearsal

namespace Reconnect.Broker.Failures

open Rehearsal

variable {f f' : Failures} {m : Message} {v : Verdict} {buffer : List Message}

/-- The verdict on record for a message. -/
def kept? (f : Failures) (m : Message) : Option Verdict := m.id?.bind f.verdict?

/-- The messages without a verdict on record. -/
def fresh (f : Failures) (messages : List Message) : List Message :=
  messages.filter fun m => (f.kept? m).isNone

/-- The messages with a verdict on record. -/
def kept (f : Failures) (messages : List Message) : List Judged :=
  messages.filterMap fun m => (f.kept? m).map (m, ·)

theorem kept?_of_records (h : f'.records = f.records) : f'.kept? m = f.kept? m := by
  unfold kept? verdict?
  rw [h]

theorem fresh_cons_of_none (h : f.kept? m = none) : f.fresh (m :: buffer) = m :: f.fresh buffer :=
  List.filter_cons_of_pos (by rw [h]; rfl)

theorem fresh_cons_of_some (h : f.kept? m = some v) : f.fresh (m :: buffer) = f.fresh buffer :=
  List.filter_cons_of_neg (by rw [h]; exact Bool.false_ne_true)

theorem kept_cons_of_none (h : f.kept? m = none) : f.kept (m :: buffer) = f.kept buffer :=
  List.filterMap_cons_none (by rw [h]; rfl)

theorem kept_cons_of_some (h : f.kept? m = some v) :
    f.kept (m :: buffer) = (m, v) :: f.kept buffer :=
  List.filterMap_cons_some (by rw [h]; rfl)

theorem fresh_append (messages : List Message) :
    f.fresh (buffer ++ messages) = f.fresh buffer ++ f.fresh messages :=
  List.filter_append ..

theorem kept_append (messages : List Message) :
    f.kept (buffer ++ messages) = f.kept buffer ++ f.kept messages :=
  List.filterMap_append

theorem fresh_congr (h : ∀ m ∈ buffer, f'.kept? m = f.kept? m) :
    f'.fresh buffer = f.fresh buffer :=
  List.filter_congr fun m hm => by rw [h m hm]

theorem kept_congr (h : ∀ m ∈ buffer, f'.kept? m = f.kept? m) :
    f'.kept buffer = f.kept buffer :=
  List.filterMap_congr fun m hm => by rw [h m hm]

/-- A message waits with or without a verdict on record. -/
theorem length_fresh_add_length_kept (f : Failures) (buffer : List Message) :
    (f.fresh buffer).length + (f.kept buffer).length = buffer.length := by
  -- each message counts on one side only
  induction buffer with
  | nil => rfl
  | cons m rest ih =>
    cases h : f.kept? m with
    | none =>
      rw [fresh_cons_of_none h, kept_cons_of_none h, List.length_cons, List.length_cons]
      omega
    | some v =>
      rw [fresh_cons_of_some h, kept_cons_of_some h, List.length_cons, List.length_cons]
      omega

theorem mem_kept_or_mem_fresh (h : m ∈ buffer) :
    (∃ v, (m, v) ∈ f.kept buffer) ∨ m ∈ f.fresh buffer := by
  cases hk : f.kept? m with
  | none => exact .inr (List.mem_filter.2 ⟨h, by rw [hk]; rfl⟩)
  | some v => exact .inl ⟨v, List.mem_filterMap.2 ⟨m, h, by rw [hk]; rfl⟩⟩

/-- The record of one message is that of no other one. -/
theorem kept?_of_insert {name : String} {r : FailureRecord}
    (hr : f'.records = f.records.insert name r) :
    f'.kept? m = if m.id? = some name then some r.verdict else f.kept? m := by
  unfold kept?
  cases hm : m.id? with
  | none => rfl
  | some name' =>
    simp only [Option.bind_some, verdict?, hr, Table.get?_insert, Option.some.injEq]
    split <;> rfl

theorem kept?_remove {name : String} :
    (f.remove name).kept? m = if m.id? = some name then none else f.kept? m := by
  unfold kept?
  cases hm : m.id? with
  | none => rfl
  | some name' =>
    simp only [Option.bind_some, verdict?, remove, Table.get?_erase, Option.some.injEq]
    split <;> rfl

end Reconnect.Broker.Failures

namespace Reconnect.Rehearsal

open Broker

/-- The balance of the messages `all` in their order, with failed settlements `f`: the calls of the
handler so far, what has been settled, what is being settled, and what is yet to be delivered. -/
structure Balance (all : List Message) (f : Failures) (calls log current : List Judged)
    (buffer : List Message) : Prop where
  /-- What has not been handled waits in order. -/
  order : calls.map Prod.fst ++ f.fresh buffer = all
  /-- What has been handled has been settled, is being settled, or waits for its settlement. -/
  settled : ((log ++ (current ++ f.kept buffer)).map Judged.plain).Perm (calls.map Judged.plain)
  /-- Every record is of use. -/
  size : f.size ≤ (f.kept buffer).length
  known : ∀ name v, f.verdict? name = some v → v ≠ .requeue ∧ some name ∈ calls.map (·.1.id?)
  verdict : ∀ e ∈ current, e.2 ≠ .requeue

namespace Balance

variable {all : List Message} {f f' : Failures} {calls log current : List Judged}
  {buffer : List Message} {m : Message} {v : Verdict} {name : String}

/-- Nothing has been handled yet. -/
theorem start (all : List Message) (hf : f.records = .empty) : Balance all f [] [] [] all := by
  have hverdict : ∀ name, f.verdict? name = none := by
    intro name
    rw [Failures.verdict?, hf]
    rfl
  have hkept : ∀ m, f.kept? m = none := by
    intro m
    cases hm : m.id? with
    | none => rw [Failures.kept?, hm]; rfl
    | some name => rw [Failures.kept?, hm]; exact hverdict name
  have hfresh : f.fresh all = all := List.filter_eq_self.2 fun m _ => by rw [hkept m]; rfl
  have hnone : f.kept all = [] :=
    List.filterMap_eq_nil_iff.2 fun m _ => by rw [hkept m]; rfl
  refine ⟨hfresh, ?_, ?_, ?_, List.forall_mem_nil _⟩
  · rw [hnone]
    exact .refl _
  · rw [hnone, Failures.size, hf]
    exact Nat.le_refl 0
  · intro name v h
    rw [hverdict name] at h
    cases h

theorem of_records (h : Balance all f calls log current buffer) (hr : f'.records = f.records) :
    Balance all f' calls log current buffer := by
  have hk : ∀ m ∈ buffer, f'.kept? m = f.kept? m := fun m _ => Failures.kept?_of_records hr
  refine ⟨?_, ?_, ?_, ?_, h.verdict⟩
  · rw [Failures.fresh_congr hk]
    exact h.order
  · rw [Failures.kept_congr hk]
    exact h.settled
  · rw [Failures.kept_congr hk, Failures.size, hr]
    exact h.size
  · intro name v hv
    apply h.known name v
    rw [Failures.verdict?, ← hr]
    exact hv

theorem ids (h : Balance all f calls log current buffer) :
    ((log ++ (current ++ f.kept buffer)).map (·.1.id?)).Perm (calls.map (·.1.id?)) := by
  have hp := h.settled.map (·.1.id?)
  rwa [Judged.map_plain_id?, Judged.map_plain_id?] at hp

theorem length_order (h : Balance all f calls log current buffer) :
    calls.length + (f.fresh buffer).length = all.length := by
  rw [← h.order, List.length_append, List.length_map]

theorem length_settled (h : Balance all f calls log current buffer) :
    log.length + current.length + (f.kept buffer).length = calls.length := by
  have hs := h.settled.length_eq
  simp only [List.length_map, List.length_append] at hs
  omega

/-- No more messages are yet to be delivered than there are. -/
theorem length_buffer_le (h : Balance all f calls log current buffer) :
    buffer.length ≤ all.length := by
  have ho := h.length_order
  have hs := h.length_settled
  have hb := Failures.length_fresh_add_length_kept f buffer
  omega

/-- There is room for the record of a message that is being settled. -/
theorem size_lt (h : Balance all f calls log [(m, v)] buffer) : f.size < all.length := by
  have ho := h.length_order
  have hs := h.length_settled
  have hsize := h.size
  rw [List.length_singleton] at hs
  omega

theorem mem_all (h : Balance all f calls log current buffer) {name? : Option String}
    (hn : name? ∈ calls.map (·.1.id?)) : name? ∈ all.map Message.id? := by
  rw [← h.order, List.map_append, List.map_map]
  exact List.mem_append_left _ hn

/-- A message that is being settled has a name. -/
theorem named_current (h : Balance all f calls log [(m, v)] buffer) (hd : Distinct all) :
    ∃ name, m.id? = some name := by
  have hmem : m.id? ∈ (log ++ ([(m, v)] ++ f.kept buffer)).map (·.1.id?) :=
    List.mem_map_of_mem (f := fun e : Judged => e.1.id?)
      (List.mem_append_right log List.mem_cons_self)
  obtain ⟨m', hm', he⟩ := List.mem_map.1 (h.mem_all (h.ids.mem_iff.1 hmem))
  rw [← he]
  exact Option.isSome_iff_exists.1 (hd.named m' hm')

/-- The next message that is delivered has a name. -/
theorem named_next (h : Balance all f calls log current (m :: buffer)) (hd : Distinct all) :
    ∃ name, m.id? = some name := by
  cases hk : f.kept? m with
  | none =>
    have ho := h.order
    rw [Failures.fresh_cons_of_none hk] at ho
    refine Option.isSome_iff_exists.1 (hd.named m ?_)
    rw [← ho]
    exact List.mem_append_right _ List.mem_cons_self
  | some v =>
    cases hm : m.id? with
    | none =>
      rw [Failures.kept?, hm] at hk
      cases hk
    | some name => exact ⟨name, rfl⟩

/-- A message that is being settled, or whose settlement is tried again, is none of those that are
yet to be delivered. -/
theorem apart (hd : Distinct all) (ho : calls.map Prod.fst ++ f.fresh buffer = all)
    (hs : ((log ++ ((m, v) :: f.kept buffer)).map Judged.plain).Perm (calls.map Judged.plain)) :
    ∀ m' ∈ buffer, m'.id? ≠ m.id? := by
  have hp := hs.map (·.1.id?)
  rw [Judged.map_plain_id?, Judged.map_plain_id?, List.map_append, List.map_cons] at hp
  -- no name is there twice, neither among the handled messages nor among the others
  have hnodup := hd.nodup
  rw [← ho, List.map_append, List.map_map, List.nodup_append] at hnodup
  obtain ⟨hcalls, -, hdisjoint⟩ := hnodup
  have hkept := (List.nodup_append.1 (hp.nodup_iff.2 hcalls)).2.1
  rw [List.nodup_cons] at hkept
  intro m' hm' he
  obtain ⟨v', hv'⟩ | hf := Failures.mem_kept_or_mem_fresh (f := f) hm'
  · -- a message with a verdict on record was handled, as `m` was
    apply hkept.1
    rw [← he]
    exact List.mem_map_of_mem (f := fun e : Judged => e.1.id?) hv'
  · -- a message without one was not handled, but `m` was
    have hmem : m.id? ∈ calls.map (Message.id? ∘ Prod.fst) :=
      hp.mem_iff.1 (List.mem_append_right _ List.mem_cons_self)
    exact hdisjoint _ hmem _ (List.mem_map_of_mem hf) he.symm

/-! ## What keeps the balance -/

/-- A message without a verdict on record is handled. -/
theorem handle (h : Balance all f calls log [] (m :: buffer)) (hk : f.kept? m = none)
    (hv : v ≠ .requeue) : Balance all f (calls ++ [(m, v)]) log [(m, v)] buffer := by
  have hs := h.settled
  have hsize := h.size
  rw [Failures.kept_cons_of_none hk] at hs hsize
  refine ⟨?_, ?_, hsize, ?_, ?_⟩
  · rw [← h.order, Failures.fresh_cons_of_none hk, List.map_append, List.append_assoc]
    rfl
  · -- the new call stands last among the calls and in the middle of what is settled or waits
    have hlast : (log ++ (m, v) :: f.kept buffer).Perm (log ++ f.kept buffer ++ [(m, v)]) :=
      List.perm_middle.trans (List.perm_append_singleton _ _).symm
    refine (hlast.map Judged.plain).trans ?_
    have hboth := hs.append_right ([(m, v)].map Judged.plain)
    rwa [← List.map_append, ← List.map_append] at hboth
  · intro name v' hname
    obtain ⟨hv', hmem⟩ := h.known name v' hname
    rw [List.map_append]
    exact ⟨hv', List.mem_append_left _ hmem⟩
  · intro e he
    rw [List.mem_singleton.1 he]
    exact hv

/-- The settlement of a handled message takes effect. -/
theorem settle (h : Balance all f calls log [(m, v)] buffer) :
    Balance all f calls (log ++ [(m, v)]) [] buffer := by
  refine ⟨h.order, ?_, h.size, h.known, List.forall_mem_nil _⟩
  rw [List.append_assoc]
  exact h.settled

/-- The settlement of a handled message fails; its verdict goes on record. -/
theorem keep (h : Balance all f calls log [(m, v)] buffer) (hd : Distinct all)
    (hm : m.id? = some name) {r : FailureRecord} (hr : f'.records = f.records.insert name r)
    (hv : r.verdict = v) : Balance all f' calls log [] (buffer ++ [m.again]) := by
  -- the new record changes nothing for the messages that are yet to be delivered
  have hapart := apart hd h.order h.settled
  have hsame : ∀ m' ∈ buffer, f'.kept? m' = f.kept? m' := by
    intro m' hm'
    rw [Failures.kept?_of_insert hr, if_neg]
    rw [← hm]
    exact hapart m' hm'
  have hk : f'.kept? m.again = some v := by
    rw [Failures.kept?_of_insert hr, Message.again_id?, hm, if_pos rfl, hv]
  have hfresh : f'.fresh (buffer ++ [m.again]) = f.fresh buffer := by
    rw [Failures.fresh_append, Failures.fresh_congr hsame, Failures.fresh_cons_of_some hk]
    exact List.append_nil _
  have hkept : f'.kept (buffer ++ [m.again]) = f.kept buffer ++ [(m.again, v)] := by
    rw [Failures.kept_append, Failures.kept_congr hsame, Failures.kept_cons_of_some hk]
    rfl
  refine ⟨?_, ?_, ?_, ?_, List.forall_mem_nil _⟩
  · rw [hfresh]
    exact h.order
  · rw [hkept]
    exact (Judged.perm_again log (f.kept buffer) m v).trans h.settled
  · have hle := Table.size_insert_le f.records name r
    have hsize := h.size
    rw [hkept, List.length_append, Failures.size, hr]
    rw [Failures.size] at hsize
    exact Nat.le_trans hle (Nat.succ_le_succ hsize)
  · intro name' v' hname
    rw [Failures.verdict?, hr, Table.get?_insert] at hname
    split at hname
    -- the new record is that of a message that has been handled
    case isTrue he =>
      rw [Option.map_some, Option.some.injEq, hv] at hname
      subst he hname
      refine ⟨h.verdict (m, v) List.mem_cons_self, h.ids.mem_iff.1 ?_⟩
      rw [← hm]
      exact List.mem_map_of_mem (f := fun e : Judged => e.1.id?)
        (List.mem_append_right log List.mem_cons_self)
    case isFalse => exact h.known name' v' hname

/-- The settlement of a message with a verdict on record takes effect. -/
theorem retry (h : Balance all f calls log [] (m :: buffer)) (hd : Distinct all)
    (hm : m.id? = some name) (hk : f.kept? m = some v) :
    Balance all (f.remove name) calls (log ++ [(m, v)]) [] buffer := by
  have ho := h.order
  have hs := h.settled
  have hsize := h.size
  rw [Failures.fresh_cons_of_some hk] at ho
  rw [Failures.kept_cons_of_some hk] at hs hsize
  -- the record that is removed is of no use to the messages that are yet to be delivered
  have hapart := apart hd ho hs
  have hsame : ∀ m' ∈ buffer, (f.remove name).kept? m' = f.kept? m' := by
    intro m' hm'
    rw [Failures.kept?_remove, if_neg]
    rw [← hm]
    exact hapart m' hm'
  refine ⟨?_, ?_, ?_, ?_, List.forall_mem_nil _⟩
  · rw [Failures.fresh_congr hsame]
    exact ho
  · rw [Failures.kept_congr hsame, List.append_assoc]
    exact hs
  · rw [Failures.kept_congr hsame]
    rw [Failures.kept?, hm, Option.bind_some, Failures.verdict?, Option.map_eq_some_iff] at hk
    obtain ⟨r, hr, -⟩ := hk
    have hlt := Table.size_erase_lt hr
    rw [List.length_cons, Failures.size] at hsize
    exact Nat.le_of_lt_succ (Nat.lt_of_lt_of_le hlt hsize)
  · intro name' v' hname
    rw [Failures.verdict?, Failures.remove, Table.get?_erase] at hname
    split at hname
    · cases hname
    · exact h.known name' v' hname

/-- The settlement of a message with a verdict on record fails. -/
theorem postpone (h : Balance all f calls log [] (m :: buffer)) (hk : f.kept? m = some v) :
    Balance all f calls log [] (buffer ++ [m.again]) := by
  -- the message goes to the end and keeps its verdict there
  have hk' : f.kept? m.again = some v := hk
  have hfresh : f.fresh (buffer ++ [m.again]) = f.fresh (m :: buffer) := by
    rw [Failures.fresh_append, Failures.fresh_cons_of_some hk, Failures.fresh_cons_of_some hk']
    exact List.append_nil _
  have hkept : f.kept (buffer ++ [m.again]) = f.kept buffer ++ [(m.again, v)] := by
    rw [Failures.kept_append, Failures.kept_cons_of_some hk']
    rfl
  refine ⟨?_, ?_, ?_, h.known, List.forall_mem_nil _⟩
  · rw [hfresh]
    exact h.order
  · have hs := h.settled
    rw [Failures.kept_cons_of_some hk] at hs
    rw [hkept]
    exact (Judged.perm_again log (f.kept buffer) m v).trans hs
  · have hsize := h.size
    rw [Failures.kept_cons_of_some hk] at hsize
    rw [hkept, List.length_append]
    exact hsize

/-- Another message is enqueued. -/
theorem enqueue (h : Balance all f calls log current buffer) (hd : Distinct (all ++ [m])) :
    Balance (all ++ [m]) f calls log current (buffer ++ [m]) := by
  -- no record is that of the new message, because its name is new
  have hk : f.kept? m = none := by
    rw [Failures.kept?]
    cases hm : m.id? with
    | none => rfl
    | some name =>
      rw [Option.bind_some, Option.eq_none_iff_forall_ne_some]
      intro v hv
      have hmem := (h.known name v hv).2
      have hnodup := hd.nodup
      rw [List.map_append, List.nodup_append] at hnodup
      exact hnodup.2.2 (some name) (h.mem_all hmem) m.id? List.mem_cons_self hm.symm
  have hkept : f.kept (buffer ++ [m]) = f.kept buffer := by
    rw [Failures.kept_append, Failures.kept_cons_of_none hk]
    exact List.append_nil _
  refine ⟨?_, ?_, ?_, h.known, h.verdict⟩
  · rw [Failures.fresh_append, Failures.fresh_cons_of_none hk, ← List.append_assoc, h.order]
    rfl
  · rw [hkept]
    exact h.settled
  · rw [hkept]
    exact h.size

/-- When nothing waits, every message has been handled and settled. -/
theorem finished (h : Balance all f calls log [] []) :
    calls.map Prod.fst = all ∧ (log.map Judged.plain).Perm (calls.map Judged.plain) := by
  have ho := h.order
  have hs := h.settled
  rw [Failures.fresh, List.filter_nil, List.append_nil] at ho
  rw [Failures.kept, List.filterMap_nil, List.append_nil, List.append_nil] at hs
  exact ⟨ho, hs⟩

end Balance

end Reconnect.Rehearsal
