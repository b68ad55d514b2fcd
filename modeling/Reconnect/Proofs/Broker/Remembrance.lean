import Reconnect.Proofs.Broker.Failures
import Reconnect.Proofs.Lists

/-!
# What is remembered of failed settlements

A history notes when the records were looked at, and which settlements have failed, have been made
up for, or had to give way. The records say of each name what the history says of it: a record is
that of the last failure, and as long as that is neither made up for nor has given way, nor is too
old, it is on record (`Recalls`). Each operation keeps this up (`Recalls.purge`, `Recalls.record`,
`Recalls.remove`).

A record gives way only when there is no room, and then all others on record have failed after it
(`Recalls.evictions`).
-/

namespace Reconnect.Broker.Failures

/-- What is noted of failed settlements. -/
inductive Note where
  /-- The records were looked at. -/
  | looked (now : Millis)
  /-- A settlement has failed. -/
  | failed (now : Millis) (name : String) (verdict : Verdict)
  /-- A settlement that had failed has been made up for. -/
  | settled (name : String)
  /-- A record had to give way to another one. -/
  | evicted (name : String)
  deriving DecidableEq, Repr

namespace Note

/-- When it was noted. -/
def time? : Note → Option Millis
  | .looked now | .failed now _ _ => some now
  | .settled _ | .evicted _ => none

/-- Whether a note is about the record of a name. -/
def concerns (name : String) : Note → Bool
  | .looked _ => false
  | .failed _ n _ | .settled n | .evicted n => n == name

def isFailed : Note → Bool
  | .failed _ _ _ => true
  | _ => false

end Note

/-! ## The last failure of a name -/

/-- Where a history can be split so that the last note about a name is that of a failure. -/
structure LastFailed (log : List Note) (name : String) (now : Millis) (v : Verdict)
    (before between : List Note) : Prop where
  split : log = before ++ .failed now name v :: between
  quiet : ∀ n ∈ between, n.concerns name = false

namespace LastFailed

variable {log before between before' between' : List Note} {name : String} {now now' : Millis}
  {v v' : Verdict}

theorem eq_of_prefix (h : LastFailed log name now v before between)
    (h' : LastFailed log name now' v' before' between') (hb : before <+: before') :
    before = before' ∧ now = now' ∧ v = v' := by
  obtain ⟨front, rfl⟩ := hb
  have hsplit := h.split.symm.trans h'.split
  rw [List.append_assoc, List.append_cancel_left_eq] at hsplit
  cases front with
  | nil =>
    cases hsplit
    exact ⟨(List.append_nil _).symm, rfl, rfl⟩
  | cons n front =>
    -- the later one of two failures is a note about the name
    have hmem : Note.failed now' name v' ∈ between := by
      rw [(List.cons.inj hsplit).2]
      exact List.mem_append_right _ List.mem_cons_self
    have hself : (Note.failed now' name v').concerns name = true := beq_self_eq_true name
    rw [h.quiet _ hmem] at hself
    cases hself

/-- There is one last failure. -/
theorem unique (h : LastFailed log name now v before between)
    (h' : LastFailed log name now' v' before' between') :
    before = before' ∧ now = now' ∧ v = v' := by
  have hp : before <+: log := ⟨_, h.split.symm⟩
  have hp' : before' <+: log := ⟨_, h'.split.symm⟩
  rcases List.prefix_or_prefix_of_prefix hp hp' with hb | hb
  · exact h.eq_of_prefix h' hb
  · obtain ⟨rfl, rfl, rfl⟩ := h'.eq_of_prefix h hb
    exact ⟨rfl, rfl, rfl⟩

/-- A note about something else does not change what the last failure is. -/
theorem concat (h : LastFailed log name now v before between) {n : Note}
    (hn : n.concerns name = false) :
    LastFailed (log ++ [n]) name now v before (between ++ [n]) where
  split := by rw [h.split, List.append_assoc, List.cons_append]
  quiet := by
    intro m hm
    rcases List.mem_append.1 hm with hm | hm
    · exact h.quiet m hm
    · rwa [List.mem_singleton.1 hm]

/-- The last failure after one more note is that note, or was the last failure before. -/
theorem of_concat {n : Note} (h : LastFailed (log ++ [n]) name now v before between) :
    (n = .failed now name v ∧ before = log) ∨ n.concerns name = false ∧
      ∃ rest, between = rest ++ [n] ∧ LastFailed log name now v before rest := by
  obtain ⟨hsplit, hquiet⟩ := h
  rcases eq_of_concat_eq hsplit with ⟨rfl, rfl, rfl⟩ | ⟨rest, rfl, hlog⟩
  · exact .inl ⟨rfl, rfl⟩
  · exact .inr ⟨hquiet n (by simp), rest, rfl, hlog, fun m hm => hquiet m (by simp [hm])⟩

/-- What has failed after more failures has failed later. -/
theorem of_countP_lt {name' : String}
    (h : LastFailed log name now v before between)
    (h' : LastFailed log name' now' v' before' between')
    (hlt : before.countP Note.isFailed < before'.countP Note.isFailed) :
    ∃ front, LastFailed between name' now' v' front between' := by
  have hsplit := h.split.symm.trans h'.split
  rcases List.append_eq_append_iff.1 hsplit with ⟨front, hb, hc⟩ | ⟨front, hb, hc⟩
  · cases front with
    | nil =>
      rw [hb, List.append_nil] at hlt
      exact absurd hlt (Nat.lt_irrefl _)
    | cons n front =>
      rw [List.cons_append] at hc
      exact ⟨front, (List.cons.inj hc).2, h'.quiet⟩
  · rw [hb, List.countP_append] at hlt
    omega

end LastFailed

/-! ## What the records say of a history -/

/-- The records agree with a history. -/
structure Recalls (f : Failures) (log : List Note) : Prop where
  next : f.nextSlot = log.countP Note.isFailed
  nodup : f.records.keys.Nodup
  ordered : f.slots.Pairwise fun a b => a.1 < b.1
  bound : ∀ e ∈ f.slots, e.1 < f.nextSlot
  /-- Every record stands in its slot. -/
  stands : ∀ name r, f.records.get? name = some r → (r.slot, name) ∈ f.slots
  /-- What is on record is the last failure of the name, in the slot of its number. -/
  noted : ∀ name r, f.records.get? name = some r → ∃ before between,
    LastFailed log name r.recordedAt r.verdict before between ∧
      r.slot = before.countP Note.isFailed
  /-- A failure that is not too old is on record, unless something else has become of it. -/
  kept : ∀ before between now name v, LastFailed log name now v before between →
    (∀ n ∈ between, ∀ t, n.time? = some t → t - now < f.timeToLive) →
    f.records.get? name = some ⟨v, now, before.countP Note.isFailed⟩
  /-- What has given way was older than all other failures that were on record, and with these there
  was no room for one more. -/
  evictions : ∀ before between after now name v,
    log = before ++ .failed now name v :: (between ++ .evicted name :: after) →
    (∀ n ∈ between, n.concerns name = false) → ∃ names : List String, names.Nodup ∧
      f.capacity ≤ names.length + 1 ∧
      ∀ k ∈ names, ∃ t w front rest, LastFailed between k t w front rest

namespace Recalls

variable {f : Failures} {log : List Note} {now : Millis} {name : String}

theorem empty (capacity : Nat) (timeToLive : Millis) : Recalls (.empty capacity timeToLive) [] where
  next := rfl
  nodup := List.nodup_nil
  ordered := .nil
  bound := nofun
  stands := nofun
  noted := nofun
  kept before between _ _ _ h := absurd h.split (by simp)
  evictions before between after _ _ _ h := absurd h (by simp)

/-- A note that is not about giving way adds no statement about giving way. -/
theorem evictions_concat (h : f.Recalls log) {n : Note} (hn : ∀ k, n ≠ .evicted k)
    (before between after : List Note) (t : Millis) (k : String) (v : Verdict)
    (hlog : log ++ [n] = before ++ .failed t k v :: (between ++ .evicted k :: after))
    (hquiet : ∀ m ∈ between, m.concerns k = false) :
    ∃ names : List String, names.Nodup ∧ f.capacity ≤ names.length + 1 ∧
      ∀ m ∈ names, ∃ t w front rest, LastFailed between m t w front rest := by
  rw [← List.cons_append, ← List.append_assoc] at hlog
  rcases eq_of_concat_eq hlog with ⟨rfl, -⟩ | ⟨rest, -, hlog'⟩
  · exact absurd rfl (hn k)
  · rw [List.append_assoc, List.cons_append] at hlog'
    exact h.evictions before between rest t k v hlog' hquiet

/-- Looking at the records changes nothing that is on record. -/
theorem looked (h : f.Recalls log) (now : Millis) : f.Recalls (log ++ [.looked now]) where
  next := by rw [List.countP_append, h.next]; rfl
  nodup := h.nodup
  ordered := h.ordered
  bound := h.bound
  stands := h.stands
  noted name r hr := by
    obtain ⟨before, between, hlast, hslot⟩ := h.noted name r hr
    exact ⟨before, between ++ [.looked now], hlast.concat rfl, hslot⟩
  kept before between t name v hlast hyoung := by
    rcases hlast.of_concat with ⟨hn, -⟩ | ⟨-, rest, rfl, hlast'⟩
    · cases hn
    · exact h.kept before rest t name v hlast' fun n hn => hyoung n (List.mem_append_left _ hn)
  evictions := h.evictions_concat (by simp)

/-- A slot in which no record stands can go. -/
theorem stale {slot : Nat} {rest : List (Nat × String)} (h : f.Recalls log)
    (hs : f.slots = (slot, name) :: rest) (hn : ¬ f.standsIn slot name) :
    Recalls { f with slots := rest } log where
  next := h.next
  nodup := h.nodup
  ordered := by
    have ho := h.ordered
    rw [hs] at ho
    exact ho.tail
  bound e he := h.bound e (by rw [hs]; exact List.mem_cons_of_mem _ he)
  stands k r hr := by
    have hmem := h.stands k r hr
    rw [hs] at hmem
    rcases List.mem_cons.1 hmem with heq | hmem
    · cases heq
      refine absurd ?_ hn
      rw [standsIn, hr]
      exact beq_self_eq_true r.slot
    · exact hmem
  noted := h.noted
  kept := h.kept
  evictions := h.evictions

/-- The records without the one in the front slot, as far as they do not depend on the history. -/
theorem front {slot : Nat} {rest : List (Nat × String)} {r : FailureRecord} (h : f.Recalls log)
    (hs : f.slots = (slot, name) :: rest) (hslot : r.slot = slot) :
    (f.records.erase name).keys.Nodup ∧ (rest.Pairwise fun a b => a.1 < b.1) ∧
      (∀ e ∈ rest, e.1 < f.nextSlot) ∧
      ∀ k r', k ≠ name → f.records.get? k = some r' → (r'.slot, k) ∈ rest ∧ r.slot < r'.slot := by
  have hordered := h.ordered
  rw [hs] at hordered
  refine ⟨?_, hordered.tail, fun e he => h.bound e (by rw [hs]; exact List.mem_cons_of_mem _ he),
    fun k r' hne hr' => ?_⟩
  · rw [Table.keys_erase]
    exact h.nodup.filter _
  · have hmem := h.stands k r' hr'
    rw [hs] at hmem
    rcases List.mem_cons.1 hmem with heq | hmem
    · cases heq
      exact absurd rfl hne
    · rw [hslot]
      exact ⟨hmem, List.rel_of_pairwise_cons hordered hmem⟩

/-- A record that is too old when the records are looked at can go. -/
theorem drop {slot : Nat} {rest : List (Nat × String)} {r : FailureRecord}
    (h : f.Recalls (log ++ [.looked now])) (hs : f.slots = (slot, name) :: rest)
    (hr : f.records.get? name = some r) (hslot : r.slot = slot)
    (hold : ¬ now - r.recordedAt < f.timeToLive) :
    Recalls { f with records := f.records.erase name, slots := rest } (log ++ [.looked now]) := by
  obtain ⟨hnodup, hordered, hbound, hothers⟩ := h.front hs hslot (r := r)
  refine ⟨h.next, hnodup, hordered, hbound, fun k r' hr' => ?_, fun k r' hr' => ?_, ?_,
    h.evictions⟩
  · rw [Table.get?_erase] at hr'
    split at hr'
    · cases hr'
    · exact (hothers k r' ‹_› hr').1
  · rw [Table.get?_erase] at hr'
    split at hr'
    · cases hr'
    · exact h.noted k r' hr'
  · intro before between t k v hlast hyoung
    have hkept := h.kept before between t k v hlast hyoung
    have hne : k ≠ name := by
      rintro rfl
      rw [hr] at hkept
      cases hkept
      -- that the records were looked at is noted after the failure
      rcases hlast.of_concat with ⟨hn, -⟩ | ⟨-, rest', rfl, -⟩
      · cases hn
      · exact absurd (hyoung (.looked now) (by simp) now rfl) hold
    rw [Table.get?_erase, if_neg hne]
    exact hkept

/-- A record can give way if there is no room. -/
theorem evict {slot : Nat} {rest : List (Nat × String)} {r : FailureRecord} (h : f.Recalls log)
    (hs : f.slots = (slot, name) :: rest) (hr : f.records.get? name = some r)
    (hslot : r.slot = slot) (hfull : f.capacity ≤ f.records.size) :
    Recalls { f with records := f.records.erase name, slots := rest } (log ++ [.evicted name]) := by
  obtain ⟨hnodup, hordered, hbound, hothers⟩ := h.front hs hslot (r := r)
  refine ⟨?_, hnodup, hordered, hbound, fun k r' hr' => ?_, fun k r' hr' => ?_, ?_, ?_⟩
  · rw [List.countP_append]
    exact h.next
  · rw [Table.get?_erase] at hr'
    split at hr'
    · cases hr'
    · exact (hothers k r' ‹_› hr').1
  · rw [Table.get?_erase] at hr'
    split at hr'
    case isTrue => cases hr'
    case isFalse hne =>
      obtain ⟨before, between, hlast, hslot'⟩ := h.noted k r' hr'
      exact ⟨before, _, hlast.concat (by simpa [Note.concerns] using Ne.symm hne), hslot'⟩
  · intro before between t k v hlast hyoung
    rcases hlast.of_concat with ⟨hn, -⟩ | ⟨hn, rest', rfl, hlast'⟩
    · cases hn
    · have hne : k ≠ name := by
        rintro rfl
        simp [Note.concerns] at hn
      rw [Table.get?_erase, if_neg hne]
      exact h.kept before rest' t k v hlast' fun n hn => hyoung n (List.mem_append_left _ hn)
  · intro before between after t k v hlog hquiet
    rw [← List.cons_append, ← List.append_assoc] at hlog
    rcases eq_of_concat_eq hlog with ⟨hn, hsplit, -⟩ | ⟨rest', -, hlog'⟩
    case inr =>
      rw [List.append_assoc, List.cons_append] at hlog'
      exact h.evictions before between rest' t k v hlog' hquiet
    cases hn
    have hlast : LastFailed log name t v before between := ⟨hsplit.symm, hquiet⟩
    obtain ⟨before₁, between₁, hlast₁, hslot₁⟩ := h.noted name r hr
    obtain ⟨rfl, -⟩ := hlast.unique hlast₁
    -- the others on record stand behind it, so they have failed after it
    have hname : name ∈ f.records.keys := by
      rw [Table.mem_keys_iff, hr]
      rfl
    refine ⟨f.records.keys.erase name, h.nodup.erase name, ?_, fun k hk => ?_⟩
    -- there was no room, and one record has gone
    · have hsize : f.records.size = f.records.keys.length := by
        rw [Table.size, Table.keys, List.length_map]
      have hpos := List.length_pos_of_mem hname
      rw [List.length_erase_of_mem hname]
      show f.capacity ≤ _
      omega
    · obtain ⟨hne, hk⟩ := h.nodup.mem_erase_iff.1 hk
      obtain ⟨r', hr'⟩ := Option.isSome_iff_exists.1 ((Table.mem_keys_iff f.records k).1 hk)
      obtain ⟨before', between', hlast', hslot'⟩ := h.noted k r' hr'
      have hlt := (hothers k r' hne hr').2
      rw [hslot₁, hslot'] at hlt
      obtain ⟨front, hfront⟩ := hlast.of_countP_lt hlast' hlt
      exact ⟨_, _, front, between', hfront⟩

/-- What has been made up for is taken off the record. -/
theorem remove (h : f.Recalls log) (name : String) :
    (f.remove name).Recalls (log ++ [.settled name]) := by
  have hget : ∀ k r, (f.remove name).records.get? k = some r →
      k ≠ name ∧ f.records.get? k = some r := by
    intro k r hr
    rw [Failures.remove, Table.get?_erase] at hr
    split at hr
    · cases hr
    · exact ⟨‹_›, hr⟩
  refine ⟨?_, ?_, h.ordered, h.bound, fun k r hr => h.stands k r (hget k r hr).2,
    fun k r hr => ?_, ?_, h.evictions_concat (by simp)⟩
  · rw [List.countP_append]
    exact h.next
  · rw [Failures.remove, Table.keys_erase]
    exact h.nodup.filter _
  · obtain ⟨hne, hr⟩ := hget k r hr
    obtain ⟨before, between, hlast, hslot⟩ := h.noted k r hr
    exact ⟨before, _, hlast.concat (by simpa [Note.concerns] using Ne.symm hne), hslot⟩
  · intro before between t k v hlast hyoung
    rcases hlast.of_concat with ⟨hn, -⟩ | ⟨hn, rest, rfl, hlast'⟩
    · cases hn
    · have hne : k ≠ name := by
        rintro rfl
        simp [Note.concerns] at hn
      rw [Failures.remove, Table.get?_erase, if_neg hne]
      exact h.kept before rest t k v hlast' fun n hn => hyoung n (List.mem_append_left _ hn)

/-- A failure is put on record in the next slot. -/
theorem insert (h : f.Recalls log) (now : Millis) (name : String) (v : Verdict) :
    Recalls { f with
      records := f.records.insert name ⟨v, now, f.nextSlot⟩
      slots := f.slots ++ [(f.nextSlot, name)]
      nextSlot := f.nextSlot + 1 } (log ++ [.failed now name v]) where
  next := by
    rw [List.countP_append, h.next]
    rfl
  nodup := Table.nodup_keys_insert h.nodup
  ordered := by
    refine List.pairwise_append.2 ⟨h.ordered, List.pairwise_singleton _ _, fun e he e' he' => ?_⟩
    rw [List.mem_singleton.1 he']
    exact h.bound e he
  bound e he := by
    rcases List.mem_append.1 he with he | he
    · exact Nat.lt_succ_of_lt (h.bound e he)
    · rw [List.mem_singleton.1 he]
      exact Nat.lt_succ_self _
  stands k r hr := by
    rw [Table.get?_insert] at hr
    split at hr
    case isTrue hk =>
      cases hr
      rw [hk]
      exact List.mem_append_right _ List.mem_cons_self
    case isFalse => exact List.mem_append_left _ (h.stands k r hr)
  noted k r hr := by
    rw [Table.get?_insert] at hr
    split at hr
    case isTrue hk =>
      cases hr
      subst hk
      exact ⟨log, [], ⟨rfl, by simp⟩, h.next⟩
    case isFalse hne =>
      obtain ⟨before, between, hlast, hslot⟩ := h.noted k r hr
      exact ⟨before, _, hlast.concat (by simpa [Note.concerns] using Ne.symm hne), hslot⟩
  kept before between t k v' hlast hyoung := by
    rcases hlast.of_concat with ⟨hn, rfl⟩ | ⟨hn, rest, rfl, hlast'⟩
    · cases hn
      rw [Table.get?_insert, if_pos rfl, h.next]
    · have hne : k ≠ name := by
        rintro rfl
        simp [Note.concerns] at hn
      rw [Table.get?_insert, if_neg hne]
      exact h.kept before rest t k v' hlast' fun n hn => hyoung n (List.mem_append_left _ hn)
  evictions := h.evictions_concat (by simp)

end Recalls

/-! ## What the operations do -/

/-- The names whose records give way when room is made for a name. -/
def evictedFrom (capacity : Nat) (name : String) :
    Table String FailureRecord → List (Nat × String) → List String
  | _, [] => []
  | records, (slot, oldest) :: rest =>
    if capacity ≤ records.size && !records.contains name then
      if (records.get? oldest).any (·.slot == slot) then
        oldest :: evictedFrom capacity name (records.erase oldest) rest
      else evictedFrom capacity name records rest
    else []

/-- The names whose records give way to that of a name. -/
def evicted (f : Failures) (now : Millis) (name : String) : List String :=
  evictedFrom f.capacity name (f.purge now).records (f.purge now).slots

namespace Recalls

variable {f : Failures} {log : List Note}

theorem purgeFrom {now : Millis} {records : Table String FailureRecord}
    {slots : List (Nat × String)}
    (h : Recalls { f with records, slots } (log ++ [.looked now])) :
    Recalls { f with
      records := (Failures.purgeFrom now f.timeToLive records slots).1
      slots := (Failures.purgeFrom now f.timeToLive records slots).2 } (log ++ [.looked now]) := by
  induction slots generalizing records with
  | nil => exact h
  | cons e rest ih =>
    obtain ⟨slot, name⟩ := e
    rw [Failures.purgeFrom]
    cases hr : records.get? name with
    | none =>
      refine ih (h.stale rfl ?_)
      simp [standsIn, hr]
    | some r =>
      by_cases hslot : r.slot = slot
      · simp only [if_pos hslot]
        split
        · exact h
        · exact ih (h.drop rfl hr hslot ‹_›)
      · simp only [if_neg hslot]
        refine ih (h.stale rfl ?_)
        simp [standsIn, hr, hslot]

/-- The records are purged when they are looked at. -/
theorem purge (h : f.Recalls log) (now : Millis) :
    (f.purge now).Recalls (log ++ [.looked now]) :=
  (h.looked now).purgeFrom

theorem makeRoom {name : String} {records : Table String FailureRecord}
    {slots : List (Nat × String)} (h : Recalls { f with records, slots } log) :
    Recalls { f with
      records := (Failures.makeRoom f.capacity name records slots).1
      slots := (Failures.makeRoom f.capacity name records slots).2 }
      (log ++ (evictedFrom f.capacity name records slots).map .evicted) := by
  induction slots generalizing records log with
  | nil =>
    rw [evictedFrom, List.map_nil, List.append_nil]
    exact h
  | cons e rest ih =>
    obtain ⟨slot, oldest⟩ := e
    rw [Failures.makeRoom, evictedFrom]
    split
    case isTrue hfull =>
      rw [Bool.and_eq_true] at hfull
      split
      case isTrue hs =>
        obtain ⟨r, hr, hslot⟩ := (Option.any_eq_true _ _).1 hs
        have hnext := ih (h.evict rfl hr (eq_of_beq hslot) (of_decide_eq_true hfull.1))
        rwa [List.append_assoc] at hnext
      case isFalse hs => exact ih (h.stale rfl hs)
    case isFalse =>
      rw [List.map_nil, List.append_nil]
      exact h

/-- A failure is put on record when the records have been looked at and there is room. -/
theorem record (h : f.Recalls log) (now : Millis) (name : String) (v : Verdict) :
    (f.record now name v).Recalls
      (log ++ [.looked now] ++ (f.evicted now name).map .evicted ++ [.failed now name v]) :=
  ((h.purge now).makeRoom).insert now name v

/-- A failure that is not too old is what the records answer for the name. -/
theorem get (h : f.Recalls log) {now t : Millis} {name : String} {v : Verdict}
    {before between : List Note} (hlast : LastFailed log name t v before between)
    (hyoung : ∀ n ∈ between, ∀ t', n.time? = some t' → t' - t < f.timeToLive)
    (hnow : now - t < f.timeToLive) : (f.get now name).2 = some v := by
  have hlast' := hlast.concat (n := .looked now) rfl
  have hkept := (h.purge now).kept _ _ t name v hlast' ?_
  · rw [Failures.get, hkept]
    rfl
  · intro n hn t' ht
    rcases List.mem_append.1 hn with hn | hn
    · exact hyoung n hn t' ht
    · rw [List.mem_singleton.1 hn] at ht
      cases ht
      exact hnow

end Recalls

end Reconnect.Broker.Failures
