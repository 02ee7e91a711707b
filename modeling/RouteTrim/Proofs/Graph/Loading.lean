import RouteTrim.Proofs.Graph.Report
import RouteTrim.Proofs.Json.Reader
import RouteTrim.Proofs.Store.Writing

/-!
# Which reports are answered

Most of what can be wrong with a report is a fault of the project that has a wording of its own:
there is no such file, it is no JSON, it holds no object, the importers of a module are no list.
Three things are not foreseen (`Unforeseen`): bytes that are no text, a text beyond the limits of
the JSON reader, and a list of modules in which something is no entry of the expected shape. The
first is not told apart from the faults of the disk, the second not from the faults of the notation,
and the third is walked into without a look at what is there.

`load_cases` says that these three are all. The keys of a JSON object are texts, and that is needed
here: reasons that are an object are walked through by their keys.
-/

set_option autoImplicit false

namespace RouteTrim

open RouteTrim.Path (WorkingFolder)

/-- A failure that no rule covers: it is neither a fault of the project nor one of the disk. -/
def Failure.isUnforeseen (failure : Failure) : Bool :=
  match failure.family with
  | .field | .iteration | .encoding => true
  | _ => false

theorem Failure.isUnforeseen_eq (failure : Failure) :
    failure.isUnforeseen = !(failure.isReported || failure.isDiskFault) := by
  cases failure <;> rfl

namespace Report

open RouteTrim.Json (IsJson isJson_of_read)

section

variable {entry reasons document : Value} {failure : Failure}

/-! ## Entries that are not read -/

theorem isJson_of_fieldOf {name : String} {fields : List (Value × Value)}
    (json : IsJson (.map fields)) {value : Value} (h : fieldOf name (.map fields) = .ok value) :
    IsJson value := by
  obtain rfl := Except.ok.inj h
  cases held : Value.field? name fields with
  | none => exact .null
  | some value => exact json.field? held

theorem areReasons_of_items (json : IsJson reasons) (truthy : reasons.isTruthy = true)
    {items : List Value} (walked : itemsOf reasons = .ok items)
    (each : ∀ item ∈ items, isReason item = true) : areReasons reasons = true := by
  unfold itemsOf at walked
  rw [if_pos truthy] at walked
  cases reasons with
  | list reasons =>
    obtain rfl := Except.ok.inj walked
    exact List.all_eq_true.2 each
  | text s =>
    -- The first character is a text, and that is no reason.
    obtain ⟨c, rest, hs⟩ := List.exists_cons_of_ne_nil (l := s.toList) (by simpa [Value.isTruthy] using truthy)
    obtain rfl := Except.ok.inj walked
    exact absurd (each (.text (String.singleton c)) (by simp [hs])) (by simp [isReason])
  | map entries =>
    obtain ⟨first, rest, rfl⟩ :=
      List.exists_cons_of_ne_nil (l := entries) (by simpa [Value.isTruthy] using truthy)
    obtain ⟨key, hkey⟩ := json.keys first (.head _)
    obtain rfl := Except.ok.inj walked
    exact absurd (each first.1 (.head _)) (by simp [hkey, isReason])
  | _ => cases walked

theorem isEntry_of_readModule (json : IsJson entry) {row : Option (String × List String)}
    (success : readModule entry = .ok row) : isEntry entry = true := by
  cases entry with
  | map fields =>
    rw [readModule_map] at success
    simp only [isEntry]
    cases given : nameGiven? fields with
    | none => rfl
    | some name =>
      rw [given] at success
      obtain ⟨reasons, found, success⟩ := bind_eq_ok.1 success
      obtain ⟨items, walked, success⟩ := bind_eq_ok.1 success
      obtain ⟨importers, read, success⟩ := bind_eq_ok.1 success
      obtain ⟨module, named, -⟩ := bind_eq_ok.1 success
      have each : ∀ item ∈ items, isReason item = true := by
        intro item h
        obtain ⟨importer, ok⟩ := forall_ok_of_mapM_eq_ok read item h
        rw [importerOf_eq] at ok
        by_contra other
        rw [if_neg other] at ok
        cases ok
      rw [Option.all_some, Bool.and_eq_true]
      refine ⟨?_, ?_⟩
      · cases text : textOf? name with
        | some _ => rfl
        | none =>
          rw [moduleOf_fails text] at named
          cases named
      · obtain ⟨value, held, given⟩ := fieldOf_cases "reasons" fields
        obtain rfl := Except.ok.inj (found.symm.trans held)
        rw [given]
        split
        · next truthy =>
          exact areReasons_of_items (isJson_of_fieldOf json held) truthy walked each
        · rfl
  | _ => cases success

theorem isUnforeseen_of_readModule (h : readModule entry = .error failure) :
    failure.isUnforeseen = true := by
  cases entry with
  | map fields =>
    rw [readModule_map] at h
    split at h
    · cases h
    obtain ⟨reasons, found, -⟩ := fieldOf_cases "reasons" fields
    rw [found] at h
    rcases bind_eq_error.1 h with h | ⟨_, -, h⟩
    · cases h
    rcases bind_eq_error.1 h with unwalked | ⟨items, -, h⟩
    · unfold itemsOf at unwalked
      split at unwalked
      · split at unwalked <;> cases unwalked
        rfl
      · cases unwalked
    rcases bind_eq_error.1 h with unread | ⟨importers, -, h⟩
    · obtain ⟨item, -, fails⟩ := exists_of_mapM_eq_error unread
      rw [importerOf_eq] at fails
      split at fails <;> cases fails
      rfl
    rcases bind_eq_error.1 h with unnamed | ⟨module, -, h⟩
    · unfold moduleOf at unnamed
      split at unnamed <;> cases unnamed
      rfl
    · cases h
  | _ =>
    cases h
    rfl

/-! ## Reports that are not read -/

theorem modules?_eq_some {modules : List Value} : modules? document = some modules ↔
    ∃ entries, document = .map entries ∧ Value.field? "modules" entries = some (.list modules) := by
  constructor
  · intro h
    unfold modules? at h
    split at h
    · split at h
      · next entries _ _ listed =>
        obtain rfl := Option.some.inj h
        exact ⟨entries, rfl, listed⟩
      · cases h
    · cases h
  · rintro ⟨entries, rfl, listed⟩
    simp only [modules?, listed]

theorem isJson_of_modules? {modules : List Value} (json : IsJson document)
    (h : modules? document = some modules) : ∀ entry ∈ modules, IsJson entry := by
  obtain ⟨entries, rfl, listed⟩ := modules?_eq_some.1 h
  exact (json.field? listed).items

/-- **A report of another shape is not read**, and if it has a list of modules, that is not
foreseen. -/
theorem read_eq_error (json : IsJson document) (shape : isDocument document = false) :
    ∃ failure, read document = .error failure ∧
      failure.isReported = (modules? document).isNone ∧
      failure.isUnforeseen = (modules? document).isSome := by
  cases document with
  | map entries =>
    rw [read_map]
    unfold isDocument at shape
    cases listed : modules? (.map entries) with
    | none =>
      rw [listed] at shape
      dsimp only at shape ⊢
      cases unread : entries.mapM readImporters with
      | ok rows =>
        refine absurd (List.all_eq_true.2 fun entry h => ?_) (Bool.eq_false_iff.1 shape)
        obtain ⟨row, ok⟩ := forall_ok_of_mapM_eq_ok unread entry h
        obtain ⟨key, value⟩ := entry
        cases value <;> first | rfl | cases ok
      | error failure =>
        obtain ⟨⟨key, value⟩, -, fails⟩ := exists_of_mapM_eq_error unread
        refine ⟨failure, rfl, ?_⟩
        cases value <;> cases fails <;> exact ⟨rfl, rfl⟩
    | some modules =>
      rw [listed] at shape
      dsimp only at shape ⊢
      cases unread : modules.mapM readModule with
      | ok rows =>
        refine absurd (List.all_eq_true.2 fun entry h => ?_) (Bool.eq_false_iff.1 shape)
        obtain ⟨row, ok⟩ := forall_ok_of_mapM_eq_ok unread entry h
        exact isEntry_of_readModule (isJson_of_modules? json listed entry h) ok
      | error failure =>
        obtain ⟨entry, -, fails⟩ := exists_of_mapM_eq_error unread
        have unforeseen := isUnforeseen_of_readModule fails
        refine ⟨failure, bind_eq_error.2 (.inl unread), ?_, unforeseen⟩
        rw [Failure.isUnforeseen_eq, Bool.not_eq_true', Bool.or_eq_false_iff] at unforeseen
        exact unforeseen.1
  | _ => exact ⟨_, rfl, rfl, rfl⟩

theorem read_plain {entries : List (Value × Value)}
    (lists : ∀ entry ∈ entries, ∃ names : List String, entry.2 = .list (names.map .text)) :
    (∃ graph, read (.map entries) = .ok graph) ↔
      ∀ modules, modules? (.map entries) = some modules → modules = [] := by
  have shape (other : modules? (.map entries) = none ∨ modules? (.map entries) = some []) :
      isDocument (.map entries) = true := by
    unfold isDocument
    rcases other with none | empty
    · rw [none]
      refine List.all_eq_true.2 fun entry h => ?_
      obtain ⟨names, list⟩ := lists entry h
      rw [list]
      rfl
    · rw [empty]
      rfl
  cases listed : modules? (.map entries) with
  | none =>
    refine ⟨fun _ modules h => ?_, fun _ => ⟨_, read_eq (shape (.inl listed))⟩⟩
    cases h
  | some modules =>
    cases modules with
    | nil =>
      exact ⟨fun _ _ h => (Option.some.inj h).symm, fun _ => ⟨_, read_eq (shape (.inr listed))⟩⟩
    | cons module modules =>
      -- What stands in the list is a name, and that has no fields.
      obtain ⟨_, ⟨⟩, held⟩ := modules?_eq_some.1 listed
      obtain ⟨entry, hentry, list⟩ := Json.mem_of_field? held
      obtain ⟨names, texts⟩ := lists entry hentry
      obtain ⟨name, names, rfl, rfl, -⟩ :=
        List.map_eq_cons_iff.1 (Value.list.inj (texts.symm.trans list))
      refine ⟨fun ⟨graph, success⟩ => ?_, fun h => by cases h _ rfl⟩
      rw [read_map, listed] at success
      cases success

end

/-! ## Files -/

/-- The bytes that a path leads to are no text. -/
def IsUndecodable [WorkingFolder] (disk : Disk) (path : String) : Prop :=
  ∃ place bytes, disk.placeOf (Path.tidy path) = .ok place ∧
    disk.itemAt? place = some (.file bytes) ∧ Text.Utf8.decode? bytes = none

/-- A list of modules has something in it that is no entry. -/
def IsMisshapen (document : Value) : Prop :=
  ∃ modules, modules? document = some modules ∧ ∃ entry ∈ modules, isEntry entry = false

theorem isMisshapen_iff {document : Value} :
    IsMisshapen document ↔ (modules? document).isSome = true ∧ isDocument document = false := by
  unfold IsMisshapen isDocument
  cases modules? document with
  | none => simp
  | some modules => simp

section

variable [WorkingFolder] [Json.Host]

/-- A path leads to a text that is read like this. -/
def Reads (disk : Disk) (path : String) (result : Except Unread Value) : Prop :=
  ∃ text, disk.readText (Path.tidy path) = .ok text ∧ Json.read text = result

/-- What is wrong with a report is not foreseen: its bytes are no text, its text is beyond the
limits of the reader, or its list of modules has something in it that is no entry. -/
def Unforeseen (disk : Disk) (path : String) : Prop :=
  IsUndecodable disk path ∨ Reads disk path (.error .beyondLimits) ∨
    ∃ document, Reads disk path (.ok document) ∧ IsMisshapen document

variable {disk : Disk} {path : String}

theorem load_result (disk : Disk) (path : String) :
    (load disk path).result.1 = readFile disk path >>= read := by
  have told {value : Except Failure Value} : (StateT.run (ExceptT.run (do
      let graph ← read (← value)
      Noted.tell (.reportLoaded graph.size path)
      return graph : Noted ImportGraph)) []).1 = value >>= read := by
    cases value with
    | error failure => rfl
    | ok document =>
      show (StateT.run (ExceptT.run (do
        let graph ← read document
        Noted.tell (.reportLoaded graph.size path)
        return graph : Noted ImportGraph)) []).1 = read document
      cases read document <;> rfl
  exact told

/-- What is not foreseen about a report whose bytes are a text is told by the text. -/
theorem unforeseen_iff {text : String} (held : disk.readText (Path.tidy path) = .ok text) :
    Unforeseen disk path ↔ Json.read text = .error .beyondLimits ∨
      ∃ document, Json.read text = .ok document ∧ IsMisshapen document := by
  have reads (result : Except Unread Value) : Reads disk path result ↔ Json.read text = result := by
    constructor
    · rintro ⟨other, held', read⟩
      obtain rfl := Except.ok.inj (held.symm.trans held')
      exact read
    · exact fun read => ⟨text, held, read⟩
  have decodable : ¬ IsUndecodable disk path := fun undecodable =>
    absurd (held.symm.trans (Disk.readText_eq_notText.2 undecodable)) (by simp)
  unfold Unforeseen
  simp only [reads, decodable, false_or]

/-- **A report is loaded, or its fault is reported, unless it is not foreseen.** -/
theorem load_cases (disk : Disk) (path : String) :
    (Unforeseen disk path ∧ ∃ failure, (load disk path).result.1 = .error failure ∧
        failure.isUnforeseen = true) ∨
      ¬ Unforeseen disk path ∧ ((∃ graph, (load disk path).result.1 = .ok graph) ∨
        ∃ failure, (load disk path).result.1 = .error failure ∧ failure.isReported = true) := by
  rw [load_result]
  unfold readFile
  cases held : disk.readText (Path.tidy path) with
  | error failure =>
    rcases Disk.readText_eq_error held with fault | ⟨rfl, undecodable⟩
    · refine .inr ⟨?_, .inr ⟨.unreadableGraph path, by simp only [fault]; rfl, rfl⟩⟩
      rintro (undecodable | ⟨_, held', _⟩ | ⟨_, ⟨_, held', _⟩, _⟩)
      · obtain rfl := Except.error.inj (held.symm.trans (Disk.readText_eq_notText.2 undecodable))
        cases fault
      · cases held.symm.trans held'
      · cases held.symm.trans held'
    · exact .inl ⟨.inl undecodable, .notText, rfl, rfl⟩
  | ok text =>
    rw [unforeseen_iff held]
    dsimp only
    cases written : Json.read text with
    | error unread =>
      cases unread with
      | malformed => exact .inr ⟨by simp, .inr ⟨.invalidGraphJson path, rfl, rfl⟩⟩
      | beyondLimits => exact .inl ⟨.inl rfl, .beyondLimits path, rfl, rfl⟩
    | ok document =>
      simp only [reduceCtorEq, false_or, Except.ok.injEq, exists_eq_left', isMisshapen_iff]
      show _ ∧ (∃ failure, read document = _ ∧ _) ∨ _ ∧ ((∃ graph, read document = _) ∨
        ∃ failure, read document = _ ∧ _)
      cases shape : isDocument document with
      | true => exact .inr ⟨by simp, .inl ⟨_, read_eq shape⟩⟩
      | false =>
        obtain ⟨failure, fails, reported, unforeseen⟩ :=
          read_eq_error (isJson_of_read written) shape
        cases listed : modules? document with
        | none =>
          rw [listed] at reported
          exact .inr ⟨by simp, .inr ⟨failure, fails, reported⟩⟩
        | some modules =>
          rw [listed] at unforeseen
          exact .inl ⟨⟨rfl, rfl⟩, failure, fails, unforeseen⟩

/-- Whether there is a result, or a failure that a command reports. -/
def isAnswered {α : Type} : Except Failure α → Bool
  | .ok _ => true
  | .error failure => failure.isReported

theorem isAnswered_load (disk : Disk) (path : String) :
    isAnswered (load disk path).result.1 = true ↔ ¬ Unforeseen disk path := by
  rcases load_cases disk path with ⟨unforeseen, failure, fails, uncovered⟩ |
    ⟨foreseen, ⟨graph, loaded⟩ | ⟨failure, fails, reported⟩⟩
  · rw [Failure.isUnforeseen_eq, Bool.not_eq_true', Bool.or_eq_false_iff] at uncovered
    rw [fails]
    exact ⟨fun reported => absurd reported (Bool.eq_false_iff.1 uncovered.1),
      fun foreseen => absurd unforeseen foreseen⟩
  · rw [loaded]
    exact iff_of_true rfl foreseen
  · rw [fails]
    exact iff_of_true reported foreseen

end

end Report

end RouteTrim
