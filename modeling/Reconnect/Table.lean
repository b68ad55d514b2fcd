/-!
# Tables

A table is a finite map kept as a list of entries in the order in which their keys were first
written. Looking a key up reads its first entry, writing a key replaces that entry or appends a
new one, and erasing a key drops every entry of it.
-/

namespace Reconnect

/-- A finite map as a list of entries. -/
structure Table (κ α : Type) where
  entries : List (κ × α) := []
  deriving DecidableEq, Repr

namespace Table

variable {κ α β : Type} [DecidableEq κ]

/-- The table without entries. -/
def empty : Table κ α := ⟨[]⟩

instance : Inhabited (Table κ α) := ⟨empty⟩

/-- The keys, in the order of their entries. -/
def keys (t : Table κ α) : List κ := t.entries.map Prod.fst

/-- The values, in the order of their entries. -/
def values (t : Table κ α) : List α := t.entries.map Prod.snd

/-- The number of entries. -/
def size (t : Table κ α) : Nat := t.entries.length

/-- The value of the first entry of `k`. -/
def find (k : κ) : List (κ × α) → Option α
  | [] => none
  | e :: rest => if e.1 = k then some e.2 else find k rest

/-- The value under `k`. -/
def get? (t : Table κ α) (k : κ) : Option α := find k t.entries

/-- Whether `k` has an entry. -/
def contains (t : Table κ α) (k : κ) : Bool := (t.get? k).isSome

/-- Writes `a` under `k` into a list of entries. -/
def put (k : κ) (a : α) : List (κ × α) → List (κ × α)
  | [] => [(k, a)]
  | e :: rest => if e.1 = k then (k, a) :: rest else e :: put k a rest

/-- The table with `a` under `k`. -/
def insert (t : Table κ α) (k : κ) (a : α) : Table κ α := ⟨put k a t.entries⟩

/-- The table with `a` under `k`, unless `k` already has an entry. -/
def insertNew (t : Table κ α) (k : κ) (a : α) : Table κ α :=
  if t.contains k then t else t.insert k a

/-- The table without `k`. -/
def erase (t : Table κ α) (k : κ) : Table κ α := ⟨t.entries.filter fun e => !decide (e.1 = k)⟩

/-- The table with `f` applied to the value under `k`, if there is one. -/
def modify (t : Table κ α) (k : κ) (f : α → α) : Table κ α :=
  ⟨t.entries.map fun e => if e.1 = k then (e.1, f e.2) else e⟩

/-- The table with `f` applied to every value. -/
def mapValues (t : Table κ α) (f : α → β) : Table κ β := ⟨t.entries.map fun e => (e.1, f e.2)⟩

/-- The entries that satisfy `p`. -/
def filter (t : Table κ α) (p : κ → α → Bool) : Table κ α := ⟨t.entries.filter fun e => p e.1 e.2⟩

/-- The table of a list of entries, a later entry replacing an earlier one of its key. -/
def ofList (es : List (κ × α)) : Table κ α := es.foldl (fun t e => t.insert e.1 e.2) empty

theorem find_put (k k' : κ) (a : α) (es : List (κ × α)) :
    find k' (put k a es) = if k' = k then some a else find k' es := by
  induction es with
  | nil => grind [put, find]
  | cons e rest ih => grind [put, find]

/-- A key that was just written reads as written; every other key reads as before. -/
@[simp] theorem get?_insert (t : Table κ α) (k k' : κ) (a : α) :
    (t.insert k a).get? k' = if k' = k then some a else t.get? k' :=
  find_put k k' a t.entries

theorem find_filter_ne (k k' : κ) (es : List (κ × α)) :
    find k' (es.filter fun e => !decide (e.1 = k)) = if k' = k then none else find k' es := by
  induction es with
  | nil => simp [find]
  | cons e rest ih => grind [find]

/-- An erased key has no value; every other key reads as before. -/
@[simp] theorem get?_erase (t : Table κ α) (k k' : κ) :
    (t.erase k).get? k' = if k' = k then none else t.get? k' :=
  find_filter_ne k k' t.entries

theorem find_map_modify (k k' : κ) (f : α → α) (es : List (κ × α)) :
    find k' (es.map fun e => if e.1 = k then (e.1, f e.2) else e) =
      if k' = k then (find k' es).map f else find k' es := by
  induction es with
  | nil => simp [find]
  | cons e rest ih => grind [find]

/-- Changing the value of one key leaves the others alone. -/
@[simp] theorem get?_modify (t : Table κ α) (k k' : κ) (f : α → α) :
    (t.modify k f).get? k' = if k' = k then (t.get? k').map f else t.get? k' :=
  find_map_modify k k' f t.entries

end Table

end Reconnect
