/-!
# Tables

Associations of keys with values that remember the order of first entry.  A key
that is put again keeps its place.
-/

namespace WidgetStyle

/-- Keys with their values, in the order of first entry. -/
structure Table (Key Value : Type) where
  entries : List (Key × Value) := []
deriving DecidableEq, Repr

namespace Table

variable {Key Value : Type} [DecidableEq Key]

/-- The value of a key. -/
def get? (table : Table Key Value) (key : Key) : Option Value :=
  table.entries.lookup key

/-- The entries with one key given a value. -/
def putIn (key : Key) (value : Value) : List (Key × Value) → List (Key × Value)
  | [] => [(key, value)]
  | entry :: rest =>
      if entry.1 = key then (key, value) :: rest else entry :: putIn key value rest

/-- The table with a value for one key. -/
def put (table : Table Key Value) (key : Key) (value : Value) : Table Key Value :=
  ⟨putIn key value table.entries⟩

/-- The table without one key. -/
def erase (table : Table Key Value) (key : Key) : Table Key Value :=
  ⟨table.entries.filter fun entry => decide (entry.1 ≠ key)⟩

/-- The table with all entries of another one put in. -/
def putAll (table other : Table Key Value) : Table Key Value :=
  other.entries.foldl (fun result entry => result.put entry.1 entry.2) table

@[simp] theorem lookup_putIn (key other : Key) (value : Value) (entries : List (Key × Value)) :
    (putIn key value entries).lookup other =
      if other = key then some value else entries.lookup other := by
  induction entries with
  | nil => grind [putIn]
  | cons entry rest ih => grind [putIn]

/-- A value that was put is found, and other keys are left alone. -/
@[simp] theorem get?_put (table : Table Key Value) (key other : Key) (value : Value) :
    (table.put key value).get? other = if other = key then some value else table.get? other :=
  lookup_putIn key other value table.entries

/-- An erased key is gone, and other keys are left alone. -/
@[simp] theorem get?_erase (table : Table Key Value) (key other : Key) :
    (table.erase key).get? other = if other = key then none else table.get? other := by
  unfold erase get?
  induction table.entries with
  | nil => simp
  | cons entry rest ih => grind

end Table

/-- Values gathered under their keys, each group in the order of entry. -/
abbrev Buckets (Key Value : Type) := Table Key (List Value)

namespace Buckets

variable {Key Value : Type} [DecidableEq Key]

/-- The values under a key. -/
def valuesAt (buckets : Buckets Key Value) (key : Key) : List Value :=
  (buckets.get? key).getD []

/-- The buckets with a value more under a key. -/
def add (buckets : Buckets Key Value) (key : Key) (value : Value) : Buckets Key Value :=
  buckets.put key (valuesAt buckets key ++ [value])

/-- The buckets with a value less under a key.  A bucket that gets empty goes. -/
def remove [DecidableEq Value] (buckets : Buckets Key Value) (key : Key) (value : Value) :
    Buckets Key Value :=
  let remaining := (valuesAt buckets key).erase value
  if remaining.isEmpty then buckets.erase key else buckets.put key remaining

/-- An added value comes last under its key. -/
@[simp] theorem valuesAt_add (buckets : Buckets Key Value) (key other : Key) (value : Value) :
    valuesAt (add buckets key value) other =
      if other = key then valuesAt buckets key ++ [value] else valuesAt buckets other := by
  simp only [add, valuesAt, Table.get?_put]
  split <;> rfl

/-- A removed value is taken out once under its key. -/
theorem valuesAt_remove [DecidableEq Value] (buckets : Buckets Key Value) (key other : Key)
    (value : Value) :
    valuesAt (remove buckets key value) other =
      if other = key then (valuesAt buckets key).erase value else valuesAt buckets other := by
  by_cases empty : (valuesAt buckets key).erase value = []
  · have emptied : ((valuesAt buckets key).erase value).isEmpty = true := by simpa using empty
    rw [empty]
    simp only [remove, emptied, if_true]
    simp only [valuesAt, Table.get?_erase]
    split <;> rfl
  · have kept : ((valuesAt buckets key).erase value).isEmpty = false := by simpa using empty
    simp only [remove, kept, Bool.false_eq_true, if_false]
    simp only [valuesAt, Table.get?_put]
    split <;> rfl

end Buckets

end WidgetStyle
