import Mathlib.Data.List.Induction
import RouteTrim.OrderedMap

/-!
# Entries, keys and values

What an ordered map holds is told by its keys and the value of each of them. Here it is told for
maps of some of the entries of another one, and for maps of entries that are set in turn: the last
entry of a key counts, and entries of distinct keys are kept as they are.
-/

set_option autoImplicit false

namespace RouteTrim.OrderedMap

variable {κ α : Type}

/-- Keeping entries by a test that only the key decides keeps those keys. The test may look at the
value as long as it agrees with the key's on every entry. -/
theorem keys_filter {p : κ → α → Bool} {q : κ → Bool} (map : OrderedMap κ α)
    (agree : ∀ entry ∈ map.entries, p entry.1 entry.2 = q entry.1) :
    (map.filter p).keys = map.keys.filter q := by
  have same : (map.entries.filter fun entry => p entry.1 entry.2)
      = map.entries.filter fun entry => q entry.1 := List.filter_congr agree
  show (map.entries.filter fun entry => p entry.1 entry.2).map Prod.fst = _
  rw [same, keys, List.filter_map]
  rfl

variable [DecidableEq κ]

theorem get?_filter (p : κ → α → Bool) (map : OrderedMap κ α) (key : κ) :
    (map.filter p).get? key = (map.get? key).filter (p key) := by
  refine Option.ext fun value => ?_
  rw [get?_eq_some_iff, Option.filter_eq_some_iff, get?_eq_some_iff]
  exact List.mem_filter

/-- A key has no value exactly if it is not there. -/
theorem get?_eq_none_iff (map : OrderedMap κ α) (key : κ) :
    map.get? key = none ↔ key ∉ map.keys := by
  rw [← contains_iff_mem_keys, contains]
  cases map.get? key <;> simp

/-! ## Entries that are set in turn -/

theorem insertEntry_of_not_mem {key : κ} {value : α} {entries : List (κ × α)}
    (h : key ∉ entries.map Prod.fst) :
    insertEntry key value entries = entries ++ [(key, value)] := by
  induction entries with
  | nil => rfl
  | cons entry entries ih =>
    rw [List.map_cons, List.mem_cons, not_or] at h
    rw [insertEntry, if_neg (Ne.symm h.1), ih h.2, List.cons_append]

/-- Setting new keys one after the other puts them behind the old ones. -/
theorem entries_foldl_insert {entries : List (κ × α)} {map : OrderedMap κ α}
    (fresh : ((map.entries ++ entries).map Prod.fst).Nodup) :
    (entries.foldl (fun map (key, value) => map.insert key value) map).entries
      = map.entries ++ entries := by
  induction entries generalizing map with
  | nil => rw [List.foldl_nil, List.append_nil]
  | cons entry entries ih =>
    have absent : entry.1 ∉ map.entries.map Prod.fst := by
      intro there
      rw [List.map_append, List.nodup_append] at fresh
      exact fresh.2.2 entry.1 there entry.1 (by simp) rfl
    have grown : (map.insert entry.1 entry.2).entries = map.entries ++ [entry] :=
      insertEntry_of_not_mem absent
    rw [List.foldl_cons, ih (by rw [grown, List.append_assoc]; exact fresh), grown,
      List.append_assoc]
    rfl

theorem entries_ofList {entries : List (κ × α)} (distinct : (entries.map Prod.fst).Nodup) :
    (ofList entries).entries = entries :=
  (entries_foldl_insert distinct : (entries.foldl _ empty).entries = [] ++ entries)

theorem ofList_concat (entries : List (κ × α)) (key : κ) (value : α) :
    ofList (entries ++ [(key, value)]) = (ofList entries).insert key value := by
  rw [ofList, List.foldl_append]
  rfl

/-- The last entry of a key counts. -/
theorem get?_ofList_eq (entries : List (κ × α)) (key : κ) :
    (ofList entries).get? key = entries.reverse.lookup key := by
  induction entries using List.reverseRecOn with
  | nil => rfl
  | append_singleton entries entry ih =>
    obtain ⟨other, value⟩ := entry
    rw [ofList_concat, get?_insert, ih, List.reverse_append, List.reverse_singleton,
      List.singleton_append, List.lookup_cons]
    by_cases h : key = other
    · simp [h]
    · have hne : (key == other) = false := by simpa using h
      simp [h, hne]

theorem get?_ofList_append {front back : List (κ × α)} {key : κ} {value : α}
    (last : ∀ entry ∈ back, entry.1 ≠ key) :
    (ofList (front ++ (key, value) :: back)).get? key = some value := by
  rw [get?_ofList_eq, List.lookup_eq_some_iff]
  refine ⟨back.reverse, front.reverse, by simp, fun entry h => ?_⟩
  have apart := last entry (List.mem_reverse.1 h)
  simpa [bne_iff_ne] using apart.symm

theorem mem_keys_ofList (entries : List (κ × α)) (key : κ) :
    key ∈ (ofList entries).keys ↔ ∃ entry ∈ entries, entry.1 = key := by
  rw [← not_iff_not, ← get?_eq_none_iff, get?_ofList_eq, List.lookup_eq_none_iff]
  push Not
  exact forall_congr' fun entry => by rw [List.mem_reverse, bne_iff_ne, ne_comm]

end RouteTrim.OrderedMap
