import RouteTrim.Json.Reader
import RouteTrim.Proofs.Failure

/-!
# The values that JSON texts write

A value may be a map with any values as its keys, as settings files are also read into values. A
JSON text writes texts as keys and nothing else, at any depth (`isJson_of_read`).

The three readings of the reader call each other and count down the same fuel, so the proof is one
induction on the fuel that carries a statement for each.
-/

set_option autoImplicit false

namespace RouteTrim.Json

/-- A value all of whose keys are texts. -/
inductive IsJson : Value → Prop
  | null : IsJson .null
  | bool (b : Bool) : IsJson (.bool b)
  | int (n : Int) : IsJson (.int n)
  | float (x : Decimal.Binary64) : IsJson (.float x)
  | text (s : String) : IsJson (.text s)
  | list {items : List Value} : (∀ item ∈ items, IsJson item) → IsJson (.list items)
  | map {entries : List (Value × Value)} : (∀ entry ∈ entries, ∃ key, entry.1 = .text key) →
      (∀ entry ∈ entries, IsJson entry.2) → IsJson (.map entries)

section

variable {name : String} {value : Value} {entries : List (Value × Value)}

theorem mem_of_field? (h : Value.field? name entries = some value) :
    ∃ entry ∈ entries, entry.2 = value := by
  induction entries with
  | nil => cases h
  | cons entry entries ih =>
    rw [Value.field?] at h
    split at h
    · exact ⟨entry, .head _, Option.some.inj h⟩
    · obtain ⟨found, hfound, same⟩ := ih h
      exact ⟨found, .tail _ hfound, same⟩

theorem IsJson.field? (json : IsJson (.map entries)) (h : Value.field? name entries = some value) :
    IsJson value := by
  obtain ⟨entry, hentry, rfl⟩ := mem_of_field? h
  cases json with
  | map _ values => exact values entry hentry

theorem IsJson.keys (json : IsJson (.map entries)) :
    ∀ entry ∈ entries, ∃ key, entry.1 = .text key := by
  cases json with
  | map keys _ => exact keys

theorem IsJson.items {items : List Value} (json : IsJson (.list items)) :
    ∀ item ∈ items, IsJson item := by
  cases json with
  | list each => exact each

/-- What holds of the keys and the values of a map holds after one more entry is put. -/
theorem forall_mem_put {p q : Value → Prop} {key : Value} (hkey : p key) (hvalue : q value)
    (h : ∀ entry ∈ entries, p entry.1 ∧ q entry.2) :
    ∀ entry ∈ Value.put entries key value, p entry.1 ∧ q entry.2 := by
  induction entries with
  | nil => simpa [Value.put] using ⟨hkey, hvalue⟩
  | cons entry entries ih =>
    rw [List.forall_mem_cons] at h
    rw [Value.put]
    split
    · exact List.forall_mem_cons.2 ⟨⟨h.1.1, hvalue⟩, h.2⟩
    · exact List.forall_mem_cons.2 ⟨h.1, ih h.2⟩

theorem isJson_ofEntries
    (h : ∀ entry ∈ entries, (∃ key, entry.1 = .text key) ∧ IsJson entry.2) :
    IsJson (Value.ofEntries entries) := by
  have put (map : List (Value × Value))
      (start : ∀ entry ∈ map, (∃ key, entry.1 = .text key) ∧ IsJson entry.2) :
      ∀ entry ∈ entries.foldl (fun map entry => Value.put map entry.1 entry.2) map,
        (∃ key, entry.1 = .text key) ∧ IsJson entry.2 := by
    induction entries generalizing map with
    | nil => exact start
    | cons entry entries ih =>
      rw [List.forall_mem_cons] at h
      exact ih h.2 _ (forall_mem_put (p := fun key => ∃ s, key = .text s) h.1.1 h.1.2 start)
  have whole := put [] (List.forall_mem_nil _)
  exact .map (fun entry hentry => (whole entry hentry).1) fun entry hentry => (whole entry hentry).2

end

/-! ## Readings -/

section

variable [Host]

theorem isJson_of_number {negative : Bool} {s rest : List Char} {found : Value}
    (h : number negative s = .ok (found, rest)) : IsJson found := by
  unfold number at h
  obtain ⟨⟨whole, behind⟩, -, h⟩ := bind_eq_ok.1 h
  dsimp only at h
  split at h
  · split at h
    · cases h
    · obtain ⟨rfl, -⟩ := Prod.mk.inj (Except.ok.inj h)
      exact .int _
  · obtain ⟨rfl, -⟩ := Prod.mk.inj (Except.ok.inj h)
    exact .float _

theorem isJson_of_scalar {s rest : List Char} {found : Value}
    (h : scalar s = .ok (found, rest)) : IsJson found := by
  unfold scalar at h
  dsimp only at h
  split at h
  · next _ hfound =>
    obtain ⟨⟨word, v⟩, hword, hv⟩ := List.exists_of_findSome?_eq_some hfound
    obtain ⟨behind, -, rfl⟩ := Option.map_eq_some_iff.1 hv
    obtain ⟨rfl, -⟩ := Prod.mk.inj (Except.ok.inj h)
    simp only [List.mem_cons, Prod.mk.injEq, List.not_mem_nil, or_false] at hword
    rcases hword with h | h | h | h | h | h <;> rw [h.2] <;> constructor
  · split at h
    · exact isJson_of_number h
    · exact isJson_of_number h

variable {fuel level : Nat} {s rest : List Char}

theorem isJson_of_value {found : Value}
    (lists : ∀ level s list rest, items fuel level s = .ok (list, rest) → ∀ item ∈ list, IsJson item)
    (maps : ∀ level s entries rest, members fuel level s = .ok (entries, rest) →
      ∀ entry ∈ entries, (∃ key, entry.1 = .text key) ∧ IsJson entry.2)
    (h : value (fuel + 1) level s = .ok (found, rest)) : IsJson found := by
  cases s with
  | nil => cases h
  | cons c s =>
    rw [value] at h
    split at h
    · obtain ⟨⟨text, behind⟩, -, h⟩ := bind_eq_ok.1 h
      obtain ⟨rfl, -⟩ := Prod.mk.inj (Except.ok.inj h)
      exact .text text
    split at h
    · obtain ⟨level, -, h⟩ := bind_eq_ok.1 h
      split at h
      · obtain ⟨rfl, -⟩ := Prod.mk.inj (Except.ok.inj h)
        exact .list (List.forall_mem_nil _)
      · obtain ⟨⟨list, behind⟩, hlist, h⟩ := bind_eq_ok.1 h
        obtain ⟨rfl, -⟩ := Prod.mk.inj (Except.ok.inj h)
        exact .list (lists _ _ _ _ hlist)
    split at h
    · obtain ⟨level, -, h⟩ := bind_eq_ok.1 h
      split at h
      · obtain ⟨rfl, -⟩ := Prod.mk.inj (Except.ok.inj h)
        exact .map (List.forall_mem_nil _) (List.forall_mem_nil _)
      · obtain ⟨⟨entries, behind⟩, hentries, h⟩ := bind_eq_ok.1 h
        obtain ⟨rfl, -⟩ := Prod.mk.inj (Except.ok.inj h)
        exact isJson_ofEntries (maps _ _ _ _ hentries)
    · exact isJson_of_scalar h

theorem isJson_of_items {list : List Value}
    (values : ∀ level s found rest, value fuel level s = .ok (found, rest) → IsJson found)
    (lists : ∀ level s list rest, items fuel level s = .ok (list, rest) → ∀ item ∈ list, IsJson item)
    (h : items (fuel + 1) level s = .ok (list, rest)) : ∀ item ∈ list, IsJson item := by
  rw [items] at h
  obtain ⟨⟨item, behind⟩, hitem, h⟩ := bind_eq_ok.1 h
  have first := values _ _ _ _ hitem
  dsimp only at h
  split at h
  · obtain ⟨rfl, -⟩ := Prod.mk.inj (Except.ok.inj h)
    exact List.forall_mem_singleton.2 first
  · obtain ⟨⟨more, behind⟩, hmore, h⟩ := bind_eq_ok.1 h
    obtain ⟨rfl, -⟩ := Prod.mk.inj (Except.ok.inj h)
    exact List.forall_mem_cons.2 ⟨first, lists _ _ _ _ hmore⟩
  · cases h

theorem isJson_of_members {entries : List (Value × Value)}
    (values : ∀ level s found rest, value fuel level s = .ok (found, rest) → IsJson found)
    (maps : ∀ level s entries rest, members fuel level s = .ok (entries, rest) →
      ∀ entry ∈ entries, (∃ key, entry.1 = .text key) ∧ IsJson entry.2)
    (h : members (fuel + 1) level s = .ok (entries, rest)) :
    ∀ entry ∈ entries, (∃ key, entry.1 = .text key) ∧ IsJson entry.2 := by
  cases s with
  | nil => cases h
  | cons c s =>
    rw [members] at h
    split at h
    · cases h
    obtain ⟨⟨key, behindKey⟩, -, h⟩ := bind_eq_ok.1 h
    dsimp only at h
    split at h
    · obtain ⟨⟨found, behind⟩, hfound, h⟩ := bind_eq_ok.1 h
      have first := values _ _ _ _ hfound
      dsimp only at h
      split at h
      · obtain ⟨rfl, -⟩ := Prod.mk.inj (Except.ok.inj h)
        exact List.forall_mem_singleton.2 ⟨⟨key, rfl⟩, first⟩
      · obtain ⟨⟨more, behind⟩, hmore, h⟩ := bind_eq_ok.1 h
        obtain ⟨rfl, -⟩ := Prod.mk.inj (Except.ok.inj h)
        exact List.forall_mem_cons.2 ⟨⟨⟨key, rfl⟩, first⟩, maps _ _ _ _ hmore⟩
      · cases h
    · cases h

/-- What the readings give, by the fuel that they count down together. -/
theorem isJson_of_readings (fuel : Nat) :
    (∀ level s found rest, value fuel level s = .ok (found, rest) → IsJson found) ∧
    (∀ level s list rest, items fuel level s = .ok (list, rest) → ∀ item ∈ list, IsJson item) ∧
    (∀ level s entries rest, members fuel level s = .ok (entries, rest) →
      ∀ entry ∈ entries, (∃ key, entry.1 = .text key) ∧ IsJson entry.2) := by
  induction fuel with
  | zero =>
    refine ⟨fun level s found rest h => ?_, fun level s list rest h => ?_,
      fun level s entries rest h => ?_⟩ <;> cases h
  | succ fuel ih =>
    obtain ⟨values, lists, maps⟩ := ih
    exact ⟨fun _ _ _ _ => isJson_of_value lists maps, fun _ _ _ _ => isJson_of_items values lists,
      fun _ _ _ _ => isJson_of_members values maps⟩

/-- **A JSON text writes texts as keys.** -/
theorem isJson_of_read {text : String} {found : Value} (h : read text = .ok found) :
    IsJson found := by
  unfold read at h
  obtain ⟨⟨value, rest⟩, hvalue, h⟩ := bind_eq_ok.1 h
  dsimp only at h
  split at h
  · obtain rfl := Except.ok.inj h
    exact (isJson_of_readings _).1 _ _ _ _ hvalue
  · cases h

end

end RouteTrim.Json
