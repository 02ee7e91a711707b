/-!
# Ordered maps

A map that remembers the order in which its keys came in. A key stands once, so a map is the same
thing as a function on its list of keys; setting a key that is present keeps its place.
-/

set_option autoImplicit false

namespace RouteTrim

/-- Values under distinct keys, in the order in which the keys came in. -/
structure OrderedMap (κ α : Type) where
  entries : List (κ × α)
  nodup : (entries.map Prod.fst).Nodup

namespace OrderedMap

variable {κ α β : Type}

instance [Repr κ] [Repr α] : Repr (OrderedMap κ α) where
  reprPrec map _ := repr map.entries

/-- The map without entries. -/
def empty : OrderedMap κ α :=
  ⟨[], List.nodup_nil⟩

instance : Inhabited (OrderedMap κ α) :=
  ⟨empty⟩

/-- The keys in their order. -/
def keys (map : OrderedMap κ α) : List κ :=
  map.entries.map Prod.fst

/-- The number of keys. -/
def size (map : OrderedMap κ α) : Nat :=
  map.entries.length

/-- The entries for which a test holds. -/
def filter (p : κ → α → Bool) (map : OrderedMap κ α) : OrderedMap κ α :=
  ⟨map.entries.filter fun entry => p entry.1 entry.2,
    map.nodup.sublist (List.filter_sublist.map Prod.fst)⟩

def mapValues (f : κ → α → β) (map : OrderedMap κ α) : OrderedMap κ β :=
  ⟨map.entries.map fun entry => (entry.1, f entry.1 entry.2), by
    simpa [Function.comp_def] using map.nodup⟩

@[simp] theorem keys_mapValues (f : κ → α → β) (map : OrderedMap κ α) :
    (map.mapValues f).keys = map.keys := by
  simp [mapValues, keys, Function.comp_def]

@[simp] theorem keys_empty : (empty : OrderedMap κ α).keys = [] := rfl

/-! ## Looking up and setting -/

variable [DecidableEq κ]

/-- The value under a key. -/
def get? (map : OrderedMap κ α) (key : κ) : Option α :=
  map.entries.lookup key

def contains (map : OrderedMap κ α) (key : κ) : Bool :=
  (map.get? key).isSome

def insertEntry (key : κ) (value : α) : List (κ × α) → List (κ × α)
  | [] => [(key, value)]
  | entry :: entries =>
    if entry.1 = key then (key, value) :: entries else entry :: insertEntry key value entries

theorem keys_insertEntry (key : κ) (value : α) (entries : List (κ × α)) :
    (insertEntry key value entries).map Prod.fst =
      if key ∈ entries.map Prod.fst then entries.map Prod.fst
      else entries.map Prod.fst ++ [key] := by
  induction entries with
  | nil => simp [insertEntry]
  | cons entry entries ih =>
    by_cases h : entry.1 = key
    · simp [insertEntry, h]
    · have h' : key ≠ entry.1 := fun hk => h hk.symm
      simp only [insertEntry, h, if_false, List.map_cons, ih, List.mem_cons, h', false_or]
      split <;> simp

/-- The map with a value under a key. A key that is present keeps its place. -/
def insert (map : OrderedMap κ α) (key : κ) (value : α) : OrderedMap κ α :=
  ⟨insertEntry key value map.entries, by
    rw [keys_insertEntry]
    split
    · exact map.nodup
    · next h =>
      refine List.nodup_append.2 ⟨map.nodup, by simp, fun a ha b hb hab => ?_⟩
      rw [List.mem_singleton.1 hb] at hab
      exact h (hab ▸ ha)⟩

/-- The map of entries that are set one after the other. -/
def ofList (entries : List (κ × α)) : OrderedMap κ α :=
  entries.foldl (fun map (key, value) => map.insert key value) empty

theorem keys_insert (map : OrderedMap κ α) (key : κ) (value : α) :
    (map.insert key value).keys = if key ∈ map.keys then map.keys else map.keys ++ [key] :=
  keys_insertEntry key value map.entries

theorem lookup_insertEntry (key other : κ) (value : α) (entries : List (κ × α)) :
    (insertEntry key value entries).lookup other =
      if other = key then some value else entries.lookup other := by
  induction entries with
  | nil =>
    by_cases h : other = key <;> simp [insertEntry, h]
  | cons entry entries ih =>
    obtain ⟨k, v⟩ := entry
    by_cases hk : k = key
    · subst hk
      by_cases h : other = k
      · simp [insertEntry, h]
      · have : (other == k) = false := by simpa using h
        simp [insertEntry, h, List.lookup_cons, this]
    · simp only [insertEntry, hk, if_false, List.lookup_cons, ih]
      by_cases h : other = key
      · have : (key == k) = false := by simpa using fun hc => hk hc.symm
        simp [h, this]
      · simp [h]

theorem get?_insert (map : OrderedMap κ α) (key other : κ) (value : α) :
    (map.insert key value).get? other = if other = key then some value else map.get? other :=
  lookup_insertEntry key other value map.entries

/-- Setting a key to the value that it has changes nothing. -/
theorem insert_of_get? {map : OrderedMap κ α} {key : κ} {value : α}
    (h : map.get? key = some value) : map.insert key value = map := by
  have same (entries : List (κ × α)) (h : entries.lookup key = some value) :
      insertEntry key value entries = entries := by
    induction entries with
    | nil => exact absurd h (by simp)
    | cons entry entries ih =>
      obtain ⟨k, v⟩ := entry
      rw [List.lookup_cons] at h
      by_cases hk : k = key
      · subst hk
        simp only [beq_self_eq_true, Option.some.injEq] at h
        simp [insertEntry, h]
      · have hne : (key == k) = false := by simpa using fun hc => hk hc.symm
        rw [hne] at h
        simp [insertEntry, hk, ih h]
  obtain ⟨entries, nodup⟩ := map
  simp only [insert, same entries h]

theorem get?_eq_some_iff (map : OrderedMap κ α) (key : κ) (value : α) :
    map.get? key = some value ↔ (key, value) ∈ map.entries := by
  obtain ⟨entries, nodup⟩ := map
  simp only [get?]
  induction entries with
  | nil => simp
  | cons entry entries ih =>
    obtain ⟨k, v⟩ := entry
    rw [List.map_cons, List.nodup_cons] at nodup
    by_cases h : key = k
    · subst h
      have absent : (key, value) ∉ entries := fun hm => nodup.1 (List.mem_map.2 ⟨_, hm, rfl⟩)
      simp [absent, eq_comm]
    · have hk : (key == k) = false := by simpa using h
      simp [List.lookup_cons, hk, h, ih nodup.2]

theorem contains_iff_mem_keys (map : OrderedMap κ α) (key : κ) :
    map.contains key = true ↔ key ∈ map.keys := by
  rw [contains, Option.isSome_iff_exists, keys, List.mem_map]
  constructor
  · rintro ⟨value, h⟩
    exact ⟨_, (get?_eq_some_iff ..).1 h, rfl⟩
  · rintro ⟨⟨k, v⟩, h, rfl⟩
    exact ⟨v, (get?_eq_some_iff ..).2 h⟩

@[simp] theorem get?_mapValues (f : κ → α → β) (map : OrderedMap κ α) (key : κ) :
    (map.mapValues f).get? key = (map.get? key).map (f key) := by
  simp only [get?, mapValues]
  induction map.entries with
  | nil => rfl
  | cons entry entries ih =>
    obtain ⟨k, v⟩ := entry
    by_cases h : key = k
    · simp [h]
    · have hk : (key == k) = false := by simpa using h
      simp [List.lookup_cons, hk, ih]

@[simp] theorem get?_empty (key : κ) : (empty : OrderedMap κ α).get? key = none := rfl

end OrderedMap

end RouteTrim
