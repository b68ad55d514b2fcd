/-!
# Sorted tables

A sorted table maps texts to values. Its entries stand in the order of their keys, code point by
code point, so two tables with the same content are equal.
-/

namespace Reconnect

/-- A finite map from texts, its entries in the order of their keys. -/
structure SortedTable (α : Type) where
  entries : List (String × α) := []
  ascending : entries.Pairwise fun a b => a.1 < b.1 := by simp
  deriving DecidableEq

namespace SortedTable

variable {α β : Type}

instance : Repr (SortedTable α) := ⟨fun t _ => repr (t.entries.map Prod.fst)⟩

/-- The table without entries. -/
def empty : SortedTable α := {}

instance : Inhabited (SortedTable α) := ⟨empty⟩

/-- The keys, in order. -/
def keys (t : SortedTable α) : List String := t.entries.map Prod.fst

/-- The value under `k`. -/
def get? (t : SortedTable α) (k : String) : Option α :=
  (t.entries.find? fun e => e.1 == k).map Prod.snd

/-- Whether `k` has a value. -/
def contains (t : SortedTable α) (k : String) : Bool := (t.get? k).isSome

/-- Writes `a` under `k` into a list of entries. -/
def put (k : String) (a : α) : List (String × α) → List (String × α)
  | [] => [(k, a)]
  | e :: rest =>
    if k < e.1 then (k, a) :: e :: rest
    else if k = e.1 then (k, a) :: rest
    else e :: put k a rest

theorem mem_put {k : String} {a : α} {es : List (String × α)} {e : String × α}
    (h : e ∈ put k a es) : e.1 = k ∨ e ∈ es := by
  induction es with
  | nil => simp_all [put]
  | cons d rest ih => grind [put]

theorem ascending_put (k : String) (a : α) (es : List (String × α))
    (h : es.Pairwise fun a b => a.1 < b.1) : (put k a es).Pairwise fun a b => a.1 < b.1 := by
  induction es with
  | nil => simp [put]
  | cons d rest ih =>
    rw [List.pairwise_cons] at h
    unfold put
    split
    case isTrue hk =>
      refine List.pairwise_cons.2 ⟨fun e he => ?_, List.pairwise_cons.2 h⟩
      rcases List.mem_cons.1 he with rfl | he
      · exact hk
      · exact String.lt_trans hk (h.1 e he)
    case isFalse hk =>
      split
      case isTrue he =>
        exact List.pairwise_cons.2 ⟨fun e hm => by simpa [he] using h.1 e hm, h.2⟩
      case isFalse hne =>
        refine List.pairwise_cons.2 ⟨fun e hm => ?_, ih h.2⟩
        rcases mem_put hm with rfl | hm
        · exact Std.lt_of_le_of_ne (String.not_lt.1 hk) (Ne.symm hne)
        · exact h.1 e hm

/-- The table with `a` under `k`. -/
def insert (t : SortedTable α) (k : String) (a : α) : SortedTable α :=
  ⟨put k a t.entries, ascending_put k a t.entries t.ascending⟩

theorem find?_put (k k' : String) (a : α) (es : List (String × α)) :
    (put k a es).find? (·.1 == k') =
      if k' = k then some (k, a) else es.find? (·.1 == k') := by
  induction es with
  | nil => grind [put]
  | cons e rest ih => grind [put]

/-- A key that was just written reads as written; every other key reads as before. -/
@[simp] theorem get?_insert (t : SortedTable α) (k k' : String) (a : α) :
    (t.insert k a).get? k' = if k' = k then some a else t.get? k' := by
  unfold get? insert
  rw [find?_put]
  split <;> rfl

/-- The table with `a` under `k`, unless `k` already has a value. -/
def insertNew (t : SortedTable α) (k : String) (a : α) : SortedTable α :=
  if t.contains k then t else t.insert k a

/-- The table of a list of entries, a later entry replacing an earlier one of its key. -/
def ofList (es : List (String × α)) : SortedTable α :=
  es.foldl (fun t e => t.insert e.1 e.2) empty

theorem pairwise_filterMap (f : String → α → Option β) {es : List (String × α)}
    (h : es.Pairwise fun a b => a.1 < b.1) :
    (es.filterMap fun e => (f e.1 e.2).map fun b => (e.1, b)).Pairwise fun a b => a.1 < b.1 := by
  refine List.Pairwise.filterMap _ (fun a a' ha b hb b' hb' => ?_) h
  simp only [Option.map_eq_some_iff] at hb hb'
  obtain ⟨_, _, rfl⟩ := hb
  obtain ⟨_, _, rfl⟩ := hb'
  exact ha

/-- The entries for which `f` gives a value, with that value. -/
def filterMap (f : String → α → Option β) (t : SortedTable α) : SortedTable β :=
  ⟨t.entries.filterMap fun e => (f e.1 e.2).map fun b => (e.1, b),
    pairwise_filterMap f t.ascending⟩

theorem find?_filterMap (f : String → α → Option β) (k : String) {es : List (String × α)}
    (h : es.Pairwise fun a b => a.1 < b.1) :
    ((es.filterMap fun e => (f e.1 e.2).map fun b => (e.1, b)).find? (·.1 == k)).map Prod.snd =
      ((es.find? (·.1 == k)).map Prod.snd).bind (f k) := by
  induction es with
  | nil => rfl
  | cons e rest ih =>
    rw [List.pairwise_cons] at h
    by_cases hk : e.1 = k
    · -- no later entry has the key
      have hrest : rest.find? (·.1 == k) = none := by
        apply List.find?_eq_none.2
        intro e' he' hk'
        have hlt := h.1 e' he'
        rw [hk, eq_of_beq hk'] at hlt
        exact String.lt_irrefl k hlt
      have ih := ih h.2
      rw [hrest] at ih
      subst hk
      cases hf : f e.1 e.2 with
      | none => simpa [hf] using ih
      | some b => simp [hf]
    · cases hf : f e.1 e.2 with
      | none => simpa [hf, hk] using ih h.2
      | some b => simpa [hf, hk] using ih h.2

/-- A key has what `f` makes of its value. -/
@[simp] theorem get?_filterMap (f : String → α → Option β) (t : SortedTable α) (k : String) :
    (t.filterMap f).get? k = (t.get? k).bind (f k) :=
  find?_filterMap f k t.ascending

/-- The table with `f` applied to every value. -/
def map (f : α → β) (t : SortedTable α) : SortedTable β := t.filterMap fun _ a => some (f a)

theorem entries_map (f : α → β) (t : SortedTable α) :
    (t.map f).entries = t.entries.map fun e => (e.1, f e.2) := by
  simp [map, filterMap]

/-- Two tables with the same entries are equal. -/
theorem ext_entries {s t : SortedTable α} (h : s.entries = t.entries) : s = t := by
  cases s; cases t; simp_all

end SortedTable

end Reconnect
