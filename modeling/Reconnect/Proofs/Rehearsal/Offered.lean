import Mathlib.Data.List.Nodup
import Mathlib.Data.List.Perm.Basic
import Reconnect.Proofs.Identifier
import Reconnect.Proofs.Rehearsal.Tenancy

/-!
# Tokens that are offered

Between the draw of a token and the step that has it written, a call offers the token. At any time
the offers of all calls are apart from each other and from what is written (`Issued`), whatever
strangers write beside them (`Accrues`). A token whose call is over without having had it written is
`Spent`: no call offers it and no entry holds it, and that remains so.
-/

namespace Reconnect.Rehearsal

open Cache

/-- A world to whose store no entry has come but those of strangers, whose tokens were never drawn
as identifiers. -/
structure Accrues (w w' : VaultWorld) : Prop where
  drawn : w.drawn ≤ w'.drawn
  entries : ∀ x ∈ w'.site.store.entries.entries,
    x ∈ w.site.store.entries.entries ∨ ∀ n, x.2.token ≠ Identifier.text ⟨n⟩

namespace Accrues

variable {w w' : VaultWorld}

theorem of_subset (hd : w.drawn ≤ w'.drawn)
    (he : w'.site.store.entries.entries ⊆ w.site.store.entries.entries) : Accrues w w' :=
  ⟨hd, fun _ hx => .inl (he hx)⟩

theorem of_fades (h : Fades w w') : Accrues w w' := of_subset h.drawn h.entries

theorem of_quiet (h : Quiet w w') : Accrues w w' := of_fades (.of_quiet h)

theorem changeLock (h : Accrues w w') (i : Nat) (f : Lock → Lock) :
    Accrues w (changeLock w' i f) := ⟨h.drawn, h.entries⟩

/-- A stranger offers a token of its own. -/
theorem put (w : VaultWorld) (keys : List String) {token : String} (ttl : Millis)
    (h : ∀ n, token ≠ Identifier.text ⟨n⟩) :
    Accrues w (withStore w (w.site.store.acquire keys token ttl).1) where
  drawn := Nat.le_refl _
  entries := by
    rintro ⟨key, e⟩ hx
    rcases w.site.store.mem_entries_acquire keys token ttl hx with ⟨-, rfl⟩ | hx
    · exact .inr h
    · exact .inl hx

end Accrues

/-- The tokens that calls are about to have written. -/
def offeredBy (stances : List Stance) : List String := stances.filterMap Stance.token?

/-- What one step of a call does to the tokens that are offered and written: it brings none, an
acquisition draws one and goes on to offer it, or the one that it offered is written. -/
inductive Tenders (w : VaultWorld) (stance : Stance) (w' : VaultWorld) (next : Option Stance) : Prop
  | none (hw : Accrues w w') (hn : (offeredBy next.toList).Sublist (offeredBy [stance]))
  | draw (hw : w'.drawn = w.drawn + 1)
      (he : w'.site.store.entries.entries = w.site.store.entries.entries)
      (hs : stance.token? = .none) (hn : offeredBy next.toList = [w.draw.2.text])
  | write {token : String} (hw : w'.drawn = w.drawn)
      (he : ∀ x ∈ w'.site.store.entries.entries,
        x.2.token = token ∨ x ∈ w.site.store.entries.entries)
      (hs : stance.token? = some token) (hn : offeredBy next.toList = [])

theorem tenders_of_strides {w w' : VaultWorld} {stance : Stance} {next : Option Stance}
    {granted : List Grant} {left : List String} (h : Strides w stance w' next granted left) :
    Tenders w stance w' next := by
  cases h with
  | quiet hw hn =>
    refine .none (.of_quiet hw) ?_
    rcases hn with rfl | rfl
    · exact List.nil_sublist _
    · exact List.Sublist.refl _
  | turn hw => exact .none (.of_quiet hw) (List.nil_sublist _)
  | make => exact .none (.of_subset (Nat.le_refl _) (List.Subset.refl _)) (List.nil_sublist _)
  | begin => exact .draw rfl rfl rfl rfl
  | refuse => exact .none (.of_subset (Nat.le_succ _) (List.Subset.refl _)) (List.nil_sublist _)
  | giveUp hw => exact .none ((Accrues.of_quiet hw).changeLock _ _) (List.nil_sublist _)
  | @take lock token ttl now next hn =>
    refine @Tenders.write _ _ _ _ token rfl ?_ rfl ?_
    · rintro ⟨key, e⟩ hx
      rcases w.site.store.mem_entries_acquire _ token ttl hx with ⟨-, rfl⟩ | hx
      · exact .inl rfl
      · exact .inr hx
    · rcases hn with rfl | rfl
      · rfl
      · rfl
  | read => exact .none (.of_subset (Nat.le_refl _) (List.Subset.refl _)) (List.nil_sublist _)
  | leave => exact .none ((Accrues.of_fades (.release w _ _)).changeLock _ _) (List.nil_sublist _)

/-- Tokens that are offered are offered once, and are not written yet. -/
structure Issued (w : VaultWorld) (stances : List Stance) : Prop where
  drawn : ∀ token ∈ offeredBy stances, ∃ n ≤ w.drawn, token = Identifier.text ⟨n⟩
  unique : (offeredBy stances).Nodup
  written : ∀ x ∈ w.site.store.entries.entries, ∀ n, x.2.token = Identifier.text ⟨n⟩ → n ≤ w.drawn
  apart : ∀ x ∈ w.site.store.entries.entries, x.2.token ∉ offeredBy stances

/-- A token that was drawn is offered by no call and held by no entry. -/
structure Spent (token : String) (w : VaultWorld) (stances : List Stance) : Prop where
  drawn : ∃ n ≤ w.drawn, token = Identifier.text ⟨n⟩
  unoffered : token ∉ offeredBy stances
  unwritten : ∀ x ∈ w.site.store.entries.entries, x.2.token ≠ token

namespace Issued

variable {w w' : VaultWorld} {stances stances' others : List Stance} {stance : Stance}

theorem accrues (h : Issued w stances) (hw : Accrues w w') : Issued w' stances where
  drawn token ht := by
    obtain ⟨n, hn, he⟩ := h.drawn token ht
    exact ⟨n, Nat.le_trans hn hw.drawn, he⟩
  unique := h.unique
  written x hx n hn := by
    rcases hw.entries x hx with hx | hx
    · exact Nat.le_trans (h.written x hx n hn) hw.drawn
    · exact absurd hn (hx n)
  apart x hx ht := by
    rcases hw.entries x hx with hx | hx
    · exact h.apart x hx ht
    · obtain ⟨n, -, he⟩ := h.drawn _ ht
      exact hx n he

/-- Only the tokens that are offered count. -/
theorem sublist (h : Issued w stances) (hs : (offeredBy stances').Sublist (offeredBy stances)) :
    Issued w stances' where
  drawn token ht := h.drawn token (hs.subset ht)
  unique := h.unique.sublist hs
  written := h.written
  apart x hx ht := h.apart x hx (hs.subset ht)

theorem tail (h : Issued w (stance :: others)) : Issued w others :=
  h.sublist ((List.sublist_cons_self stance others).filterMap _)

theorem perm (h : Issued w stances) (hp : stances.Perm stances') : Issued w stances' := by
  have hperm : (offeredBy stances).Perm (offeredBy stances') := hp.filterMap _
  constructor
  · exact fun token ht => h.drawn token (hperm.mem_iff.2 ht)
  · exact hperm.nodup_iff.1 h.unique
  · exact h.written
  · exact fun x hx ht => h.apart x hx (hperm.mem_iff.2 ht)

/-- A token that is drawn is new. -/
theorem fresh (h : Issued w stances) : Spent w.draw.2.text w.draw.1 stances where
  drawn := ⟨w.drawn + 1, Nat.le_refl _, rfl⟩
  unoffered ht := by
    obtain ⟨n, hn, he⟩ := h.drawn _ ht
    have hnumber : w.drawn + 1 = n := congrArg Identifier.number (Identifier.text_injective he)
    omega
  unwritten x hx he := by
    have hn := h.written x hx (w.drawn + 1) he
    omega

/-- A token that a call no longer offers, without having it written, is spent. -/
theorem spent {token : String} (h : Issued w (stance :: others)) (hs : stance.token? = some token) :
    Spent token w others := by
  have hoffered : offeredBy (stance :: others) = token :: offeredBy others :=
    List.filterMap_cons_some hs
  have hunique := h.unique
  have hmem : token ∈ offeredBy (stance :: others) := by
    rw [hoffered]
    exact List.mem_cons_self
  rw [hoffered, List.nodup_cons] at hunique
  refine ⟨h.drawn token hmem, hunique.1, ?_⟩
  rintro x hx rfl
  exact h.apart x hx hmem

/-- A step of a call leaves the tokens that are offered apart from those that are written. -/
theorem tenders {next : Option Stance} (h : Issued w (stance :: others))
    (ht : Tenders w stance w' next) : Issued w' (next.toList ++ others) := by
  have happend : ∀ front, offeredBy (front ++ others) = offeredBy front ++ offeredBy others :=
    fun front => List.filterMap_append
  cases ht with
  | none hw hn =>
    refine (h.accrues hw).sublist ?_
    rw [happend, ← List.singleton_append, happend]
    exact hn.append_right _
  | draw hw he hs hn =>
    have hothers := h.tail
    obtain ⟨hdrawn, hunoffered, hunwritten⟩ := hothers.fresh
    rw [← show w'.drawn = w.draw.1.drawn from hw] at hdrawn
    constructor
    · intro token ht
      rw [happend, hn, List.singleton_append] at ht
      rcases List.mem_cons.1 ht with rfl | ht
      · exact hdrawn
      · obtain ⟨n, hle, htext⟩ := hothers.drawn token ht
        exact ⟨n, by omega, htext⟩
    · rw [happend, hn]
      exact List.nodup_cons.2 ⟨hunoffered, hothers.unique⟩
    · intro x hx n hx'
      rw [he] at hx
      have hle := hothers.written x hx n hx'
      omega
    · intro x hx ht
      rw [he] at hx
      rw [happend, hn, List.singleton_append] at ht
      rcases List.mem_cons.1 ht with ht | ht
      · exact hunwritten x hx ht
      · exact hothers.apart x hx ht
  | @write token hw he hs hn =>
    have hspent := h.spent hs
    have hothers := h.tail
    constructor
    · intro t ht
      rw [happend, hn] at ht
      rw [hw]
      exact hothers.drawn t ht
    · rw [happend, hn]
      exact hothers.unique
    · intro x hx n hx'
      rw [hw]
      rcases he x hx with rfl | hx
      · obtain ⟨m, hm, htext⟩ := hspent.drawn
        rw [htext] at hx'
        have hnumber : m = n := congrArg Identifier.number (Identifier.text_injective hx')
        omega
      · exact hothers.written x hx n hx'
    · intro x hx ht
      rw [happend, hn] at ht
      rcases he x hx with rfl | hx
      · exact hspent.unoffered ht
      · exact hothers.apart x hx ht

end Issued

namespace Spent

variable {token : String} {w w' : VaultWorld} {stances stances' others : List Stance}
  {stance : Stance}

theorem accrues (h : Spent token w stances) (hw : Accrues w w') : Spent token w' stances := by
  obtain ⟨n, hn, htext⟩ := h.drawn
  refine ⟨⟨n, Nat.le_trans hn hw.drawn, htext⟩, h.unoffered, ?_⟩
  intro x hx
  rcases hw.entries x hx with hx | hx
  · exact h.unwritten x hx
  · rw [htext]
    exact hx n

theorem sublist (h : Spent token w stances)
    (hs : (offeredBy stances').Sublist (offeredBy stances)) : Spent token w stances' :=
  ⟨h.drawn, fun ht => h.unoffered (hs.subset ht), h.unwritten⟩

theorem perm (h : Spent token w stances) (hp : stances.Perm stances') : Spent token w stances' :=
  ⟨h.drawn, fun ht => h.unoffered ((hp.filterMap _).mem_iff.2 ht), h.unwritten⟩

/-- A token that is spent remains so: another one is drawn, and another one is written. -/
theorem tenders {next : Option Stance} (h : Spent token w (stance :: others))
    (ht : Tenders w stance w' next) : Spent token w' (next.toList ++ others) := by
  have happend : ∀ front, offeredBy (front ++ others) = offeredBy front ++ offeredBy others :=
    fun front => List.filterMap_append
  have hothers : Spent token w others :=
    h.sublist ((List.sublist_cons_self stance others).filterMap _)
  cases ht with
  | none hw hn =>
    refine (h.accrues hw).sublist ?_
    rw [happend, ← List.singleton_append, happend]
    exact hn.append_right _
  | draw hw he hs hn =>
    obtain ⟨n, hle, htext⟩ := h.drawn
    refine ⟨⟨n, by omega, htext⟩, ?_, ?_⟩
    · rw [happend, hn, List.singleton_append, List.mem_cons, not_or]
      refine ⟨?_, hothers.unoffered⟩
      intro heq
      rw [htext] at heq
      have hnumber : n = w.drawn + 1 := congrArg Identifier.number (Identifier.text_injective heq)
      omega
    · rw [he]
      exact h.unwritten
  | @write written hw he hs hn =>
    refine ⟨by rw [hw]; exact h.drawn, ?_, ?_⟩
    · rw [happend, hn]
      exact hothers.unoffered
    · rintro x hx rfl
      rcases he x hx with heq | hx
      · -- the token that is written was offered
        apply h.unoffered
        rw [heq, offeredBy, List.filterMap_cons_some hs]
        exact List.mem_cons_self
      · exact h.unwritten x hx rfl

end Spent

/-! ## What a move of all calls keeps -/

/-- A call that begins offers no token. -/
theorem offeredBy_concat {stance : Stance} {locks : Nat} (h : stance.isFirst locks = true)
    (stances : List Stance) : offeredBy (stances ++ [stance]) = offeredBy stances := by
  have hnone : stance.token? = none := by
    cases stance with
    | offering => cases h
    | _ => rfl
  rw [offeredBy, List.filterMap_append, List.filterMap_cons_none hnone]
  exact List.append_nil _

theorem issued_moves {y y' : Tenancy} (h : Issued y.world y.stances) (hm : Tenancy.Moves y y') :
    Issued y'.world y'.stances := by
  cases hm with
  | fades hw hs => exact (h.accrues (.of_fades hw)).sublist (hs.filterMap _)
  | makes hw hs =>
    rw [hw, hs]
    exact h.accrues (.of_subset (Nat.le_refl _) (List.Subset.refl _))
  | begins hf hw hs =>
    rw [hw, hs]
    apply h.sublist
    rw [offeredBy_concat hf]
  | strides hs hs' hw => exact ((h.perm hs).tenders (tenders_of_strides hw)).perm hs'.symm

theorem spent_moves {token : String} {y y' : Tenancy} (h : Spent token y.world y.stances)
    (hm : Tenancy.Moves y y') : Spent token y'.world y'.stances := by
  cases hm with
  | fades hw hs => exact (h.accrues (.of_fades hw)).sublist (hs.filterMap _)
  | makes hw hs =>
    rw [hw, hs]
    exact h.accrues (.of_subset (Nat.le_refl _) (List.Subset.refl _))
  | begins hf hw hs =>
    rw [hw, hs]
    apply h.sublist
    rw [offeredBy_concat hf]
  | strides hs hs' hw => exact ((h.perm hs).tenders (tenders_of_strides hw)).perm hs'.symm

end Reconnect.Rehearsal
