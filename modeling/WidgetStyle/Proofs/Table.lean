import Mathlib.Data.List.Basic
import Mathlib.Data.List.Induction
import WidgetStyle.Table

/-!
# Filling tables

A table that is filled by putting in one pair after the other is told by the pairs: its keys are
theirs in the order of first entry, and each key has the value that it was put with last.
-/

namespace WidgetStyle

namespace Table

variable {Key Value : Type} [DecidableEq Key]

/-- The keys that are put, in the order of first entry, each with the value it is put with
last. -/
def latest (pairs : List (Key × Value)) : Table Key Value :=
  ⟨(pairs.map Prod.fst).eraseDups.filterMap fun key =>
    (pairs.reverse.lookup key).map (Prod.mk key)⟩

theorem keys_putIn (key : Key) (value : Value) (entries : List (Key × Value)) :
    (putIn key value entries).map Prod.fst =
      if key ∈ entries.map Prod.fst then entries.map Prod.fst
      else entries.map Prod.fst ++ [key] := by
  induction entries with
  | nil => rfl
  | cons entry rest ih =>
      rw [putIn]
      split
      · rename_i same
        simp [same]
      · rename_i other
        rw [List.map_cons, ih]
        by_cases later : key ∈ rest.map Prod.fst
        · simp [later]
        · simp [later, Ne.symm other]

theorem keys_put (table : Table Key Value) (key : Key) (value : Value) :
    (table.put key value).entries.map Prod.fst =
      if key ∈ table.entries.map Prod.fst then table.entries.map Prod.fst
      else table.entries.map Prod.fst ++ [key] :=
  keys_putIn key value table.entries

theorem nodup_keys_put {table : Table Key Value} (distinct : (table.entries.map Prod.fst).Nodup)
    (key : Key) (value : Value) : ((table.put key value).entries.map Prod.fst).Nodup := by
  rw [keys_put]
  split
  · exact distinct
  · rename_i fresh
    rw [List.nodup_append]
    refine ⟨distinct, by simp, ?_⟩
    intro earlier member
    simpa using ne_of_mem_of_not_mem member fresh

/-! ## Keys -/

/-- The keys of a table, in the order of first entry. -/
def keys (table : Table Key Value) : List Key :=
  table.entries.map Prod.fst

theorem mem_keys_of_get? {table : Table Key Value} {key : Key} {value : Value}
    (found : table.get? key = some value) : key ∈ table.keys := by
  rcases List.lookup_eq_some_iff.mp found with ⟨before, after, split, -⟩
  rw [keys, split]
  simp

@[simp] theorem mem_keys_put_iff {table : Table Key Value} {key other : Key} {value : Value} :
    other ∈ (table.put key value).keys ↔ other = key ∨ other ∈ table.keys := by
  rw [keys, keys_put, keys]
  split
  · rename_i present
    constructor
    · exact .inr
    · intro member
      rcases member with rfl | member
      · exact present
      · exact member
  · rw [List.mem_append, List.mem_singleton, or_comm]

@[simp] theorem mem_keys_erase_iff {table : Table Key Value} {key other : Key} :
    other ∈ (table.erase key).keys ↔ other ≠ key ∧ other ∈ table.keys := by
  simp only [keys, erase, List.mem_map, List.mem_filter, decide_eq_true_eq]
  constructor
  · intro kept
    rcases kept with ⟨entry, ⟨member, different⟩, rfl⟩
    exact ⟨different, entry, member, rfl⟩
  · intro kept
    rcases kept with ⟨different, entry, member, rfl⟩
    exact ⟨entry, ⟨member, different⟩, rfl⟩

@[simp] theorem mem_keys_foldl_erase_iff {table : Table Key Value} {gone : List Key} {other : Key} :
    other ∈ (gone.foldl (fun table key => table.erase key) table).keys ↔
      other ∉ gone ∧ other ∈ table.keys := by
  induction gone generalizing table with
  | nil => simp
  | cons key rest ih =>
      rw [List.foldl_cons, ih, mem_keys_erase_iff, List.mem_cons, not_or, and_left_comm,
        and_assoc]

/-- A table with distinct keys is told by its keys and their values. -/
theorem entries_eq_filterMap {entries : List (Key × Value)}
    (distinct : (entries.map Prod.fst).Nodup) :
    entries = (entries.map Prod.fst).filterMap fun key =>
      (entries.lookup key).map (Prod.mk key) := by
  induction entries with
  | nil => rfl
  | cons entry rest ih =>
      obtain ⟨key, value⟩ := entry
      obtain ⟨fresh, distinct⟩ := List.nodup_cons.mp distinct
      have others : (rest.map Prod.fst).filterMap (fun other =>
          (((key, value) :: rest).lookup other).map (Prod.mk other)) = rest := by
        refine Eq.trans (List.filterMap_congr ?_) (ih distinct).symm
        intro other member
        rw [List.lookup_cons, beq_false_of_ne (ne_of_mem_of_not_mem member fresh)]
      rw [List.map_cons, List.filterMap_cons, others, List.lookup_cons, beq_self_eq_true]
      rfl

theorem putAll_append (table : Table Key Value) (pairs more : List (Key × Value)) :
    table.putAll ⟨pairs ++ more⟩ = (table.putAll ⟨pairs⟩).putAll ⟨more⟩ :=
  List.foldl_append

theorem putAll_empty (pairs : List (Key × Value)) :
    (({} : Table Key Value).putAll ⟨pairs⟩).entries.map Prod.fst =
        (pairs.map Prod.fst).eraseDups ∧
      ∀ key, (({} : Table Key Value).putAll ⟨pairs⟩).get? key = pairs.reverse.lookup key := by
  induction pairs using List.reverseRecOn with
  | nil => exact ⟨rfl, fun _ => rfl⟩
  | append_singleton pairs pair ih =>
      obtain ⟨keys, values⟩ := ih
      have step : ({} : Table Key Value).putAll ⟨pairs ++ [pair]⟩ =
          (({} : Table Key Value).putAll ⟨pairs⟩).put pair.1 pair.2 := putAll_append _ _ _
      rw [step]
      constructor
      · rw [keys_put, keys, List.map_append, List.eraseDups_append]
        by_cases earlier : pair.1 ∈ pairs.map Prod.fst
        · simp only [List.mem_eraseDups, earlier, if_true]
          simp [List.removeAll, earlier]
        · simp only [List.mem_eraseDups, earlier, if_false]
          simp [List.removeAll, earlier, List.eraseDups_cons]
      · intro key
        rw [get?_put, values, List.reverse_append, List.reverse_singleton, List.singleton_append,
          List.lookup_cons]
        by_cases same : key = pair.1
        · simp [same]
        · simp [same, beq_false_of_ne]

theorem nodup_keys_putAll {table : Table Key Value}
    (distinct : (table.entries.map Prod.fst).Nodup) (pairs : List (Key × Value)) :
    ((table.putAll ⟨pairs⟩).entries.map Prod.fst).Nodup := by
  induction pairs generalizing table with
  | nil => exact distinct
  | cons pair rest ih => exact ih (nodup_keys_put distinct pair.1 pair.2)

theorem putAll_eq_latest (pairs : List (Key × Value)) :
    ({} : Table Key Value).putAll ⟨pairs⟩ = latest pairs := by
  obtain ⟨keys, values⟩ := putAll_empty pairs
  have nothing : (({} : Table Key Value).entries.map Prod.fst).Nodup := List.nodup_nil
  have entries := entries_eq_filterMap (nodup_keys_putAll nothing pairs)
  rw [keys] at entries
  refine congrArg Table.mk (entries.trans ?_)
  exact List.filterMap_congr fun key _ => congrArg _ (values key)

/-! ## Filling in what was gathered -/

@[simp] theorem putIn_putIn (key : Key) (first second : Value) (entries : List (Key × Value)) :
    putIn key second (putIn key first entries) = putIn key second entries := by
  induction entries with
  | nil => simp [putIn]
  | cons entry rest ih =>
      by_cases same : entry.1 = key
      · simp [putIn, same]
      · simp [putIn, same, ih]

@[simp] theorem put_put (table : Table Key Value) (key : Key) (first second : Value) :
    (table.put key first).put key second = table.put key second :=
  congrArg Table.mk (putIn_putIn key first second table.entries)

theorem putIn_comm {key other : Key} {entries : List (Key × Value)}
    (present : key ∈ entries.map Prod.fst) (apart : other ≠ key) (value another : Value) :
    putIn other another (putIn key value entries) =
      putIn key value (putIn other another entries) := by
  induction entries with
  | nil => cases present
  | cons entry rest ih =>
      by_cases same : entry.1 = key
      · simp [putIn, same, Ne.symm apart]
      · have later : key ∈ rest.map Prod.fst := by
          simpa [Ne.symm same] using present
        by_cases here : entry.1 = other
        · simp [putIn, here, apart]
        · simp [putIn, same, here, ih later]

/-- A key that has its place may be put before or after a table that lacks it. -/
theorem put_putAll {table : Table Key Value} {key : Key}
    (present : key ∈ table.entries.map Prod.fst) {others : List (Key × Value)}
    (absent : key ∉ others.map Prod.fst) (value : Value) :
    (table.put key value).putAll ⟨others⟩ = (table.putAll ⟨others⟩).put key value := by
  induction others generalizing table with
  | nil => rfl
  | cons other rest ih =>
      rw [List.map_cons, List.mem_cons, not_or] at absent
      have swapped : (table.put key value).put other.1 other.2 =
          (table.put other.1 other.2).put key value :=
        congrArg Table.mk (putIn_comm present (Ne.symm absent.1) value other.2)
      have kept : key ∈ (table.put other.1 other.2).entries.map Prod.fst := by
        rw [keys_put]
        split
        · exact present
        · exact List.mem_append_left _ present
      have later := ih kept absent.2
      rw [← swapped] at later
      exact later

/-- What is put into a table last is put last into one that takes that table in. -/
theorem putAll_put (table : Table Key Value) {entries : List (Key × Value)}
    (distinct : (entries.map Prod.fst).Nodup) (key : Key) (value : Value) :
    table.putAll ((⟨entries⟩ : Table Key Value).put key value) =
      (table.putAll ⟨entries⟩).put key value := by
  induction entries generalizing table with
  | nil => rfl
  | cons entry rest ih =>
      rcases List.nodup_cons.mp distinct with ⟨fresh, distinct⟩
      -- The key stands at the front, and its later value has to wait for the other entries, or
      -- the value comes into the rest.
      by_cases same : entry.1 = key
      · have first : (⟨entry :: rest⟩ : Table Key Value).put key value =
            ⟨(key, value) :: rest⟩ := by
          simp [put, putIn, same]
        rw [same] at fresh
        have present : key ∈ (table.put key entry.2).entries.map Prod.fst := by
          rw [keys_put]
          split
          · assumption
          · simp
        have moved := put_putAll present fresh value
        rw [put_put] at moved
        rw [first]
        refine moved.trans ?_
        rw [← same]
        rfl
      · have later : (⟨entry :: rest⟩ : Table Key Value).put key value =
            ⟨entry :: putIn key value rest⟩ := by
          simp [put, putIn, same]
        rw [later]
        exact ih (table.put entry.1 entry.2) distinct

/-- Pairs may be gathered in a table of their own before they are put in. -/
@[simp] theorem putAll_putAll (table : Table Key Value) (pairs : List (Key × Value)) :
    table.putAll (({} : Table Key Value).putAll ⟨pairs⟩) = table.putAll ⟨pairs⟩ := by
  induction pairs using List.reverseRecOn with
  | nil => rfl
  | append_singleton pairs pair ih =>
      have nothing : (({} : Table Key Value).entries.map Prod.fst).Nodup := List.nodup_nil
      have distinct := nodup_keys_putAll nothing pairs
      rw [putAll_append, putAll_append, ← ih]
      exact putAll_put table distinct pair.1 pair.2

end Table

end WidgetStyle
