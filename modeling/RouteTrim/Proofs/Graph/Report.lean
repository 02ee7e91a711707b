import RouteTrim.Graph.Load
import RouteTrim.Proofs.Failure
import RouteTrim.Proofs.Graph.Importers

/-!
# What a dependency report says

A report is read with an eye on what may be wrong with it. Said without that, a report of the
expected shape (`isDocument`) is a list of rows (`reported`): a module in its normal spelling, and
the importers that one entry gives it. Several entries can be about one module, as names part only
in their loaders or in their spelling.

Reading a document of the shape succeeds and sets one row after the other (`read_eq`). So nothing is
made up and no module is left out, but a module has the importers of its last row and no others
(`read_reported`): what the rows before that one say counts only as far as the last one repeats it.
-/

set_option autoImplicit false

namespace RouteTrim

namespace Report

/-! ## The shape of a report -/

def textOf? : Value → Option String
  | .text s => some s
  | _ => none

/-- The value of a field that is given. -/
def given? (name : String) (fields : List (Value × Value)) : Option Value :=
  (Value.field? name fields).filter Value.isTruthy

def nameGiven? (fields : List (Value × Value)) : Option Value :=
  (given? "identifier" fields).or (given? "name" fields)

def isReason : Value → Bool
  | .map fields => (given? "moduleIdentifier" fields).all fun name => (textOf? name).isSome
  | _ => false

def areReasons : Value → Bool
  | .list reasons => reasons.all isReason
  | _ => false

/-- An entry is a map. If it names a module, then by a text, and the reasons that it gives, if it
does, are a list of them. -/
def isEntry : Value → Bool
  | .map fields => (nameGiven? fields).all fun name =>
      (textOf? name).isSome && (given? "reasons" fields).all areReasons
  | _ => false

def isList : Value → Bool
  | .list _ => true
  | _ => false

/-- The list of modules, in the shape that has one. -/
def modules? : Value → Option (List Value)
  | .map entries =>
    match Value.field? "modules" entries with
    | some (.list modules) => some modules
    | _ => none
  | _ => none

/-- Whether a value has the shape of a report: its modules are a list of entries or, if it has no
list of modules, it is a map of lists. -/
def isDocument (document : Value) : Bool :=
  match modules? document with
  | some modules => modules.all isEntry
  | none =>
    match document with
    | .map entries => entries.all fun entry => isList entry.2
    | _ => false

/-! ## What it says -/

def moduleNamed (name : String) : String :=
  Path.normalize (stripLoader name)

def importerNamed? : Value → Option String
  | .map fields => ((given? "moduleIdentifier" fields).bind textOf?).map moduleNamed
  | _ => none

def importersNamed : Value → List String
  | .list reasons => reasons.filterMap importerNamed?
  | _ => []

/-- What an entry says: its module and the importers of that. -/
def row? : Value → Option (String × List String)
  | .map fields => ((nameGiven? fields).bind textOf?).map fun name =>
      (moduleNamed name, ((given? "reasons" fields).map importersNamed).getD [])
  | _ => none

def itemsIn : Value → List Value
  | .list items => items
  | _ => []

/-- What an entry of the plain shape says. A name that is no text is taken by its display. -/
def plainRow (entry : Value × Value) : String × List String :=
  (Path.normalize entry.1.display, (itemsIn entry.2).map fun item => Path.normalize item.display)

/-- What a report says, entry by entry. -/
def reported (document : Value) : List (String × List String) :=
  match modules? document with
  | some modules => modules.filterMap row?
  | none =>
    match document with
    | .map entries => entries.map plainRow
    | _ => []

/-- Some entry of a report says that a module is imported by another one. -/
def Reports (document : Value) (module importer : String) : Prop :=
  ∃ row ∈ reported document, row.1 = module ∧ importer ∈ row.2

instance (document : Value)
    (module importer : String) : Decidable (Reports document module importer) :=
  inferInstanceAs (Decidable (∃ row ∈ reported document, row.1 = module ∧ importer ∈ row.2))

/-! ## Reading -/

section

variable {fields : List (Value × Value)}

theorem fieldOf_cases (name : String) (fields : List (Value × Value)) :
    ∃ value, fieldOf name (.map fields) = .ok value ∧
      given? name fields = if value.isTruthy then some value else none := by
  refine ⟨_, rfl, ?_⟩
  unfold given?
  cases Value.field? name fields with
  | none => rfl
  | some value => rw [Option.filter_some, Option.getD_some]

theorem moduleOf_eq {value : Value} {name : String} (h : textOf? value = some name) :
    moduleOf value = .ok (moduleNamed name) := by
  cases value <;> cases h
  rfl

theorem moduleOf_fails {value : Value} (h : textOf? value = none) :
    moduleOf value = .error .noSuchField := by
  cases value <;> first | rfl | cases h

theorem importerOf_eq (reason : Value) :
    importerOf reason = if isReason reason then .ok (importerNamed? reason)
      else .error .noSuchField := by
  cases reason with
  | map fields =>
    obtain ⟨value, found, given⟩ := fieldOf_cases "moduleIdentifier" fields
    simp only [importerOf, found, isReason, importerNamed?, given]
    cases truthy : value.isTruthy with
    | false => simp [truthy, bind, Except.bind, pure, Except.pure]
    | true =>
      cases text : textOf? value with
      | none => simp [truthy, text, moduleOf_fails text, bind, Except.bind]
      | some name =>
        simp [truthy, text, moduleOf_eq text, bind, Except.bind, pure, Except.pure]
  | _ => rfl

theorem readModule_map (fields : List (Value × Value)) :
    readModule (.map fields) = match nameGiven? fields with
      | none => .ok none
      | some name => do
        let reasons ← itemsOf (← fieldOf "reasons" (.map fields))
        let importers ← reasons.mapM importerOf
        return some (← moduleOf name, (importers.filterMap id).eraseDups) := by
  obtain ⟨identifier, hidentifier, givenIdentifier⟩ := fieldOf_cases "identifier" fields
  obtain ⟨name, hname, givenName⟩ := fieldOf_cases "name" fields
  unfold readModule nameGiven?
  rw [hidentifier, hname, givenIdentifier, givenName]
  cases first : identifier.isTruthy with
  | true => simp [first, bind, Except.bind, pure, Except.pure]
  | false =>
    cases second : name.isTruthy <;> simp [first, second, bind, Except.bind, pure, Except.pure]

theorem itemsOf_reasons (shape : (given? "reasons" fields).all areReasons = true) :
    ∃ items, (fieldOf "reasons" (.map fields) >>= itemsOf) = .ok items ∧
      (∀ item ∈ items, isReason item = true) ∧
      ((given? "reasons" fields).map importersNamed).getD [] = items.filterMap importerNamed? := by
  obtain ⟨reasons, found, given⟩ := fieldOf_cases "reasons" fields
  rw [given] at shape ⊢
  rw [found]
  show ∃ items, itemsOf reasons = .ok items ∧ _
  unfold itemsOf
  cases truthy : reasons.isTruthy with
  | false => exact ⟨[], rfl, List.forall_mem_nil _, rfl⟩
  | true =>
    rw [truthy] at shape
    cases reasons <;> first
      | exact ⟨_, rfl, List.all_eq_true.1 shape, rfl⟩
      | cases shape

/-- An entry of the expected shape is read as what it says; an importer counts once. -/
theorem readModule_eq {entry : Value} (shape : isEntry entry = true) :
    readModule entry = .ok ((row? entry).map fun row => (row.1, row.2.eraseDups)) := by
  cases entry with
  | map fields =>
    simp only [isEntry] at shape
    simp only [row?]
    rw [readModule_map]
    cases given : nameGiven? fields with
    | none => rfl
    | some name =>
      rw [given, Option.all_some, Bool.and_eq_true] at shape
      obtain ⟨text, reasons⟩ := shape
      obtain ⟨name', named⟩ := Option.isSome_iff_exists.1 text
      obtain ⟨items, found, each, importers⟩ := itemsOf_reasons reasons
      have read : items.mapM importerOf = .ok (items.map importerNamed?) :=
        mapM_of_forall_ok fun item h => by rw [importerOf_eq, if_pos (each item h)]
      rw [importers, Option.bind_some, named]
      dsimp only
      rw [← bind_assoc, found]
      show (items.mapM importerOf >>= _) = _
      rw [read]
      show (moduleOf name >>= _) = _
      rw [moduleOf_eq named]
      simp [pure, Except.pure, bind, Except.bind, List.filterMap_map]
  | _ => cases shape

/-- A module and its importers, each once. -/
def distinct (row : String × List String) : String × List String :=
  (row.1, row.2.eraseDups)

theorem read_map (entries : List (Value × Value)) :
    read (.map entries) = match modules? (.map entries) with
      | some modules => readModules modules
      | none => .ofList <$> entries.mapM readImporters := by
  simp only [read, modules?]
  cases Value.field? "modules" entries with
  | none => rfl
  | some value => cases value <;> rfl

theorem readImporters_eq {entry : Value × Value} (shape : isList entry.2 = true) :
    readImporters entry = .ok (distinct (plainRow entry)) := by
  obtain ⟨key, value⟩ := entry
  cases value <;> first | rfl | cases shape

/-- **A report of the expected shape is read**: what its entries say is set in turn. -/
theorem read_eq {document : Value} (shape : isDocument document = true) :
    read document = .ok (.ofList ((reported document).map distinct)) := by
  cases document with
  | map entries =>
    rw [read_map]
    unfold isDocument at shape
    unfold reported
    cases listed : modules? (.map entries) with
    | none =>
      rw [listed] at shape
      have each : ∀ entry ∈ entries, readImporters entry = .ok (distinct (plainRow entry)) :=
        fun entry h => readImporters_eq (List.all_eq_true.1 shape entry h)
      show (entries.mapM readImporters).map _ = _
      rw [mapM_of_forall_ok each, List.map_map]
      rfl
    | some modules =>
      rw [listed] at shape
      have each : ∀ entry ∈ modules, readModule entry = .ok ((row? entry).map distinct) :=
        fun entry h => readModule_eq (List.all_eq_true.1 shape entry h)
      show (modules.mapM readModule >>= _) = _
      rw [mapM_of_forall_ok each, List.map_filterMap]
      simp [pure, Except.pure, bind, Except.bind, List.filterMap_map]
  | _ => cases shape

end

/-! ## The importers that are kept -/

/-- **A module has the importers of the last entry about it.** A report of the expected shape is
read, and the modules of the graph are those that it has entries about. The importers of a module
are those that its last entry names, so they are all that the report gives it if and only if no
entry in front of that one names another. -/
theorem read_reported {document : Value} (shape : isDocument document = true) :
    ∃ graph, read document = .ok graph ∧
      (∀ module, module ∈ graph.keys ↔ ∃ row ∈ reported document, row.1 = module) ∧
      ∀ front module importers back, reported document = front ++ (module, importers) :: back →
        (∀ row ∈ back, row.1 ≠ module) →
        (∀ importer, importer ∈ graph.importers module ↔ importer ∈ importers) ∧
        ((∀ importer, importer ∈ graph.importers module ↔ Reports document module importer) ↔
          ∀ row ∈ front, row.1 = module → row.2 ⊆ importers) := by
  refine ⟨_, read_eq shape, fun module => ?_, fun front module importers back rows last => ?_⟩
  · rw [OrderedMap.mem_keys_ofList]
    constructor
    · rintro ⟨_, h, rfl⟩
      obtain ⟨row, hrow, rfl⟩ := List.mem_map.1 h
      exact ⟨row, hrow, rfl⟩
    · rintro ⟨row, hrow, rfl⟩
      exact ⟨_, List.mem_map_of_mem hrow, rfl⟩
  have kept : ∀ importer, importer ∈ ImportGraph.importers
      (.ofList ((reported document).map distinct)) module ↔ importer ∈ importers := by
    intro importer
    rw [rows, List.map_append, List.map_cons, ImportGraph.importers, distinct,
      OrderedMap.get?_ofList_append fun row h => ?_]
    · exact List.mem_eraseDups
    · obtain ⟨row, hrow, rfl⟩ := List.mem_map.1 h
      exact last row hrow
  refine ⟨kept, ⟨fun all row hrow same importer h => ?_, fun earlier importer => ?_⟩⟩
  · exact (kept importer).1 ((all importer).2 ⟨row, by simp [rows, hrow], same, h⟩)
  · rw [kept]
    constructor
    · exact fun h => ⟨(module, importers), by simp [rows], rfl, h⟩
    · rintro ⟨row, hrow, same, h⟩
      rw [rows, List.mem_append, List.mem_cons] at hrow
      rcases hrow with hrow | rfl | hrow
      · exact earlier row hrow same h
      · exact h
      · exact absurd same (last row hrow)

/-- A report with a list of modules, from their identifiers and those of their importers. -/
def bundle (entries : List (String × List String)) : Value :=
  .map [(.text "modules", .list (entries.map fun entry =>
    .map [(.text "identifier", .text entry.1), (.text "reasons", .list (entry.2.map fun importer =>
      .map [(.text "moduleIdentifier", .text importer)]))]))]

/-- A report of the plain shape. -/
def plain (entries : List (String × List String)) : Value :=
  .map (entries.map fun entry => (.text entry.1, .list (entry.2.map .text)))

/-- Two spellings of one module, of which the last has all the importers. -/
theorem read_reported_spellings :
    ∃ graph, read (bundle [("a-loader!/a", ["/b"]), ("/./a", ["/c", "b-loader!/b"])]) = .ok graph ∧
      ∀ importer, importer ∈ graph.importers "/a" ↔
        Reports (bundle [("a-loader!/a", ["/b"]), ("/./a", ["/c", "b-loader!/b"])]) "/a" importer := by
  obtain ⟨graph, success, -, kept⟩ := read_reported
    (by decide : isDocument (bundle [("a-loader!/a", ["/b"]), ("/./a", ["/c", "b-loader!/b"])]) = true)
  refine ⟨graph, success, (kept [("/a", ["/b"])] "/a" ["/c", "/b"] [] (by decide +kernel)
    (List.forall_mem_nil _)).2.2 ?_⟩
  rintro _ (_ | ⟨_, ⟨⟩⟩) -
  exact List.subset_cons_self ..

/-- **An importer is lost where the last entry about a module does not repeat it**: here the module
is reported once with a loader, or once in another spelling, and once without importers. -/
theorem read_loses_importer :
    (isDocument (bundle [("a-loader!/a", ["/b"]), ("/a", [])]) = true ∧
      Reports (bundle [("a-loader!/a", ["/b"]), ("/a", [])]) "/a" "/b" ∧
      (read (bundle [("a-loader!/a", ["/b"]), ("/a", [])])).toOption.map
        (fun graph => graph.importers "/a") = some []) ∧
    isDocument (plain [("/a", ["/b"]), ("/./a", [])]) = true ∧
      Reports (plain [("/a", ["/b"]), ("/./a", [])]) "/a" "/b" ∧
      (read (plain [("/a", ["/b"]), ("/./a", [])])).toOption.map
        (fun graph => graph.importers "/a") = some [] := by
  decide +kernel

end Report

end RouteTrim
