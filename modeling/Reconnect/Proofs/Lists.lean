import Mathlib.Data.List.Nodup
import Mathlib.Data.List.Perm.Basic

/-!
# Lists

What is needed of lists in several places: where an entry stands in a list that has got one more,
lists that are sorted out by keys, and what is left of a list.
-/

namespace Reconnect

variable {κ α : Type}

/-- An entry of a list with one more at its end is that one, or one from before. -/
theorem eq_of_concat_eq {l before behind : List α} {x y : α}
    (h : l ++ [x] = before ++ y :: behind) :
    (y = x ∧ before = l ∧ behind = []) ∨
      ∃ rest, behind = rest ++ [x] ∧ l = before ++ y :: rest := by
  rcases List.eq_nil_or_concat' behind with rfl | ⟨rest, last, rfl⟩
  · obtain ⟨rfl, hx⟩ := List.append_inj' h rfl
    exact .inl ⟨(List.singleton_inj.1 hx).symm, rfl, rfl⟩
  · rw [← List.cons_append, ← List.append_assoc] at h
    obtain ⟨rfl, hx⟩ := List.append_inj' h rfl
    obtain rfl := List.singleton_inj.1 hx
    exact .inr ⟨rest, rfl, rfl⟩

theorem nodup_eraseDups [DecidableEq α] (l : List α) : l.eraseDups.Nodup := by
  cases l with
  | nil => exact List.nodup_nil
  | cons a rest =>
    rw [List.eraseDups_cons, List.nodup_cons, List.mem_eraseDups]
    exact ⟨by simp, nodup_eraseDups (rest.filter fun b => !b == a)⟩
termination_by l.length
decreasing_by exact Nat.lt_succ_of_le (List.length_filter_le _ rest)

/-- A list that is sorted out by keys is the list in another order. -/
theorem perm_flatMap_filter [DecidableEq κ] (key : α → κ) {keys : List κ} (hk : keys.Nodup)
    {l : List α} (hl : ∀ a ∈ l, key a ∈ keys) :
    (keys.flatMap fun k => l.filter (key · == k)).Perm l := by
  induction keys generalizing l with
  | nil =>
    rw [List.eq_nil_iff_forall_not_mem.2 fun a ha => List.not_mem_nil (hl a ha)]
    exact List.Perm.refl _
  | cons k rest ih =>
    rw [List.nodup_cons] at hk
    -- the other keys sort out what is left without the first key
    have hothers : (rest.flatMap fun k' => l.filter (key · == k')) =
        rest.flatMap fun k' => (l.filter (!key · == k)).filter (key · == k') := by
      rw [List.flatMap_def, List.flatMap_def]
      congr 1
      apply List.map_congr_left
      intro k' hk'
      rw [List.filter_filter]
      apply List.filter_congr
      intro a _
      have hne : k' ≠ k := fun he => hk.1 (he ▸ hk')
      by_cases ha : key a = k'
      · simp [ha, hne]
      · simp [ha]
    rw [List.flatMap_cons, hothers]
    refine (List.Perm.append_left _ (ih hk.2 ?_)).trans (List.filter_append_perm _ l)
    intro a ha
    rw [List.mem_filter] at ha
    exact (List.mem_cons.1 (hl a ha.1)).resolve_left (by simpa using ha.2)

/-- What is left of a list without repetitions, in order, is what has not been taken away. -/
theorem eq_filter_of_perm [DecidableEq α] {taken rest l : List α} (hn : l.Nodup)
    (hp : (taken ++ rest).Perm l) (hs : rest.Sublist l) : rest = l.filter (· ∉ taken) := by
  have hdisjoint : ∀ a ∈ rest, a ∉ taken := by
    intro a hrest htaken
    exact List.disjoint_of_nodup_append (hp.nodup_iff.2 hn) htaken hrest
  have hrest : rest.filter (· ∉ taken) = rest := by
    rw [List.filter_eq_self]
    simpa using hdisjoint
  have htaken : taken.filter (· ∉ taken) = [] := by simp
  have hperm := hp.filter (· ∉ taken)
  rw [List.filter_append, htaken, List.nil_append, hrest] at hperm
  have hsub := hs.filter (· ∉ taken)
  rw [hrest] at hsub
  exact hsub.eq_of_length hperm.length_eq

end Reconnect
