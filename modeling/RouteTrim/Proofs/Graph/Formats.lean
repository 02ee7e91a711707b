import RouteTrim.Proofs.Graph.Report
import RouteTrim.Proofs.Path.Extension

/-!
# One graph in two formats

The same graph can be reported in two shapes. The plain one is a map of modules to lists of
importers. The bundler's own is a list of entries, with loaders in front of the names and with
entries and reasons in between that name nothing (`Tells`). Each is read by a reader of its own, and
`read_formats` says that both make the same graph of it.

What either document says, row by row, is the graph up to the order and the number of times that
importers are told in (`SameRow`). Rows of distinct modules are kept as they are told, so the graph
of a document is settled by that (`read_sameRows`), and the two shapes are never compared with each
other.
-/

set_option autoImplicit false

namespace RouteTrim.Report

/-! ## Rows -/

/-- A module as it stands in a graph: in its normal spelling and without loaders. -/
structure IsBare (module : String) : Prop where
  normal : Path.normalize module = module
  noLoader : '!' ∉ module.toList

instance (module : String) : Decidable (IsBare module) :=
  decidable_of_iff (Path.normalize module = module ∧ '!' ∉ module.toList)
    ⟨fun h => ⟨h.1, h.2⟩, fun h => ⟨h.normal, h.noLoader⟩⟩

/-- The rows of a graph that both formats have room for. In the plain one a module with the name of
the field `modules` would be taken for it. -/
structure IsGraph (rows : List (String × List String)) : Prop where
  distinct : (rows.map Prod.fst).Nodup
  bare : ∀ row ∈ rows, IsBare row.1 ∧ ∀ importer ∈ row.2, IsBare importer
  notField : ∀ row ∈ rows, row.1 ≠ "modules"

instance (rows : List (String × List String)) : Decidable (IsGraph rows) :=
  decidable_of_iff ((rows.map Prod.fst).Nodup ∧
    (∀ row ∈ rows, IsBare row.1 ∧ ∀ importer ∈ row.2, IsBare importer) ∧
    ∀ row ∈ rows, row.1 ≠ "modules")
    ⟨fun h => ⟨h.1, h.2.1, h.2.2⟩, fun h => ⟨h.distinct, h.bare, h.notField⟩⟩

/-- Two rows of one module with the same set of importers. -/
def SameRow (told row : String × List String) : Prop :=
  told.1 = row.1 ∧ ∀ importer, importer ∈ told.2 ↔ importer ∈ row.2

theorem nodup_eraseDups (importers : List String) : importers.eraseDups.Nodup := by
  match importers with
  | [] => exact List.nodup_nil
  | importer :: rest =>
    rw [List.eraseDups_cons, List.nodup_cons, List.mem_eraseDups]
    exact ⟨by simp, nodup_eraseDups _⟩
termination_by importers.length
decreasing_by exact Nat.lt_succ_of_le (List.length_filter_le ..)

/-- **A document that tells the rows of distinct modules is read as those**, whatever the order of
the importers in it and however often they are told. -/
theorem read_sameRows {document : Value} {rows : List (String × List String)}
    (modules : (rows.map Prod.fst).Nodup) (shape : isDocument document = true)
    (told : List.Forall₂ SameRow (reported document) rows) :
    ∃ graph, read document = .ok graph ∧ graph.keys = rows.map Prod.fst ∧
      ∀ row ∈ rows, (graph.importers row.1).Nodup ∧
        ∀ importer, importer ∈ graph.importers row.1 ↔ importer ∈ row.2 := by
  have names : (reported document).map Prod.fst = rows.map Prod.fst := by
    rw [← List.forall₂_eq_eq_eq, List.forall₂_map_left_iff, List.forall₂_map_right_iff]
    exact told.imp fun _ _ same => same.1
  have keys : ((reported document).map distinct).map Prod.fst = rows.map Prod.fst := by
    rw [List.map_map, ← names]
    rfl
  have entries := OrderedMap.entries_ofList (keys ▸ modules)
  refine ⟨_, read_eq shape, by rw [OrderedMap.keys, entries, keys], fun row hrow => ?_⟩
  obtain ⟨said, hsaid, same, importers⟩ := exists_of_mem_right told hrow
  have kept : (distinct said) ∈ (OrderedMap.ofList ((reported document).map distinct)).entries := by
    rw [entries]
    exact List.mem_map_of_mem hsaid
  rw [← same, ImportGraph.importers_of_mem_entries kept]
  exact ⟨nodup_eraseDups _, fun importer => List.mem_eraseDups.trans (importers importer)⟩

/-! ## The two formats -/

/-- Values tell items one after the other, with values in between that tell none. -/
inductive Tells {α : Type} (Silent : Value → Prop) (Says : Value → α → Prop) :
    List Value → List α → Prop
  | nil : Tells Silent Says [] []
  | skip {value : Value} {values : List Value} {items : List α} (silent : Silent value)
      (rest : Tells Silent Says values items) : Tells Silent Says (value :: values) items
  | say {value : Value} {item : α} {values : List Value} {items : List α} (said : Says value item)
      (rest : Tells Silent Says values items) : Tells Silent Says (value :: values) (item :: items)

/-- A chain of loaders, as it stands in front of a name. -/
def IsLoaders (loaders : String) : Prop :=
  loaders = "" ∨ loaders.toList.getLast? = some '!'

instance (loaders : String) : Decidable (IsLoaders loaders) :=
  inferInstanceAs (Decidable (_ ∨ _))

/-- A value is a module's name with loaders in front. -/
def Names (value : Value) (module : String) : Prop :=
  ∃ loaders, IsLoaders loaders ∧ value = .text (loaders ++ module)

def IsSilentReason (reason : Value) : Prop :=
  ∃ fields, reason = .map fields ∧ given? "moduleIdentifier" fields = none

def SaysImporter (reason : Value) (importer : String) : Prop :=
  ∃ fields name, reason = .map fields ∧ given? "moduleIdentifier" fields = some name ∧
    Names name importer

def IsSilentEntry (entry : Value) : Prop :=
  ∃ fields, entry = .map fields ∧ given? "identifier" fields = none ∧ given? "name" fields = none

/-- An entry names a module, by its identifier or, if that is not given, by its name, and its
reasons tell the importers of that. Without importers there may be no reasons. -/
def SaysRow (entry : Value) (row : String × List String) : Prop :=
  ∃ fields name, entry = .map fields ∧
    (given? "identifier" fields = some name ∨
      given? "identifier" fields = none ∧ given? "name" fields = some name) ∧
    Names name row.1 ∧
    ((given? "reasons" fields = none ∧ row.2 = []) ∨ ∃ reasons told,
      given? "reasons" fields = some (.list reasons) ∧
      Tells IsSilentReason SaysImporter reasons told ∧
      ∀ importer, importer ∈ told ↔ importer ∈ row.2)

/-- A document in the bundler's format tells the rows of a graph. -/
def IsStatsOf (document : Value) (rows : List (String × List String)) : Prop :=
  ∃ entries, modules? document = some entries ∧ Tells IsSilentEntry SaysRow entries rows

/-- A document in the plain format tells the rows of a graph. -/
def IsPlainOf (document : Value) (rows : List (String × List String)) : Prop :=
  ∃ told, document = plain told ∧ List.Forall₂ SameRow told rows

section

variable {α β : Type} {Silent : Value → Prop} {Says : Value → α → Prop} {values : List Value}
  {items : List α}

theorem Tells.forall_mem {P : Value → Prop} (h : Tells Silent Says values items)
    (silent : ∀ value, Silent value → P value)
    (speaking : ∀ value item, Says value item → P value) :
    ∀ value ∈ values, P value := by
  induction h with
  | nil => exact List.forall_mem_nil _
  | skip quiet _ ih => exact List.forall_mem_cons.2 ⟨silent _ quiet, ih⟩
  | say said _ ih => exact List.forall_mem_cons.2 ⟨speaking _ _ said, ih⟩

/-- A reader that gets nothing of the silent values reads one thing of each item. -/
theorem Tells.filterMap {R : β → α → Prop} {f : Value → Option β}
    (h : Tells Silent Says values items) (silent : ∀ value, Silent value → f value = none)
    (speaking : ∀ value, ∀ item ∈ items, Says value item → ∃ b, f value = some b ∧ R b item) :
    List.Forall₂ R (values.filterMap f) items := by
  induction h with
  | nil => exact .nil
  | skip quiet _ ih =>
    rw [List.filterMap_cons_none (silent _ quiet)]
    exact ih speaking
  | say said _ ih =>
    obtain ⟨b, read, related⟩ := speaking _ _ (List.mem_cons_self ..) said
    rw [List.filterMap_cons_some read]
    exact .cons related (ih fun value item hitem => speaking value item (List.mem_cons_of_mem _ hitem))

end

theorem stripLoader_append {loaders module : String} (loading : IsLoaders loaders)
    (noLoader : '!' ∉ module.toList) : stripLoader (loaders ++ module) = module := by
  unfold stripLoader
  rw [String.toList_append]
  rcases loading with rfl | last
  · rw [String.toList_empty, List.nil_append,
      Text.afterLast_of_not_mem noLoader, String.ofList_toList]
  · obtain ⟨front, hfront⟩ := List.getLast?_eq_some_iff.1 last
    rw [hfront, List.append_assoc, List.singleton_append, Text.afterLast_append noLoader,
      String.ofList_toList]

theorem Names.read {value : Value} {module : String} (h : Names value module)
    (bare : IsBare module) : (textOf? value).map moduleNamed = some module := by
  obtain ⟨loaders, loading, rfl⟩ := h
  rw [textOf?, Option.map_some, moduleNamed, stripLoader_append loading bare.noLoader, bare.normal]

theorem Names.isText {value : Value} {module : String} (h : Names value module) :
    (textOf? value).isSome = true := by
  obtain ⟨loaders, -, rfl⟩ := h
  rfl

/-! ## Reasons -/

section

variable {reason : Value} {reasons : List Value} {told : List String} {importer : String}

theorem IsSilentReason.shape (h : IsSilentReason reason) : isReason reason = true := by
  obtain ⟨fields, rfl, absent⟩ := h
  rw [isReason, absent, Option.all_none]

theorem IsSilentReason.read (h : IsSilentReason reason) : importerNamed? reason = none := by
  obtain ⟨fields, rfl, absent⟩ := h
  rw [importerNamed?, absent, Option.bind_none, Option.map_none]

theorem SaysImporter.shape (h : SaysImporter reason importer) : isReason reason = true := by
  obtain ⟨fields, name, rfl, given, names⟩ := h
  rw [isReason, given, Option.all_some, names.isText]

theorem SaysImporter.read (h : SaysImporter reason importer) (bare : IsBare importer) :
    importerNamed? reason = some importer := by
  obtain ⟨fields, name, rfl, given, names⟩ := h
  rw [importerNamed?, given, Option.bind_some, names.read bare]

theorem areReasons_of_tells (h : Tells IsSilentReason SaysImporter reasons told) :
    areReasons (.list reasons) = true :=
  List.all_eq_true.2 (h.forall_mem (fun _ => IsSilentReason.shape) fun _ _ => SaysImporter.shape)

theorem importersNamed_of_tells (h : Tells IsSilentReason SaysImporter reasons told)
    (bare : ∀ importer ∈ told, IsBare importer) : importersNamed (.list reasons) = told := by
  rw [← List.forall₂_eq_eq_eq]
  exact h.filterMap (fun _ => IsSilentReason.read)
    fun _ importer himporter said => ⟨importer, said.read (bare importer himporter), rfl⟩

end

/-! ## Entries -/

section

variable {entry document : Value} {row : String × List String} {rows : List (String × List String)}

theorem IsSilentEntry.shape (h : IsSilentEntry entry) : isEntry entry = true := by
  obtain ⟨fields, rfl, identifier, name⟩ := h
  rw [isEntry, nameGiven?, identifier, name, Option.or_none, Option.all_none]

theorem IsSilentEntry.read (h : IsSilentEntry entry) : row? entry = none := by
  obtain ⟨fields, rfl, identifier, name⟩ := h
  rw [row?, nameGiven?, identifier, name, Option.or_none, Option.bind_none, Option.map_none]

theorem nameGiven?_eq {fields : List (Value × Value)} {name : Value}
    (h : given? "identifier" fields = some name ∨
      given? "identifier" fields = none ∧ given? "name" fields = some name) :
    nameGiven? fields = some name := by
  rcases h with identifier | ⟨identifier, name⟩
  · rw [nameGiven?, identifier, Option.some_or]
  · rw [nameGiven?, identifier, Option.none_or, name]

theorem SaysRow.shape (h : SaysRow entry row) : isEntry entry = true := by
  obtain ⟨fields, name, rfl, field, names, reasons⟩ := h
  rw [isEntry, nameGiven?_eq field, Option.all_some, names.isText, Bool.true_and]
  rcases reasons with ⟨absent, -⟩ | ⟨reasons, told, given, tells, -⟩
  · rw [absent, Option.all_none]
  · rw [given, Option.all_some, areReasons_of_tells tells]

theorem SaysRow.read (h : SaysRow entry row) (module : IsBare row.1)
    (bare : ∀ importer ∈ row.2, IsBare importer) :
    ∃ told, row? entry = some told ∧ SameRow told row := by
  obtain ⟨fields, name, rfl, field, names, reasons⟩ := h
  rw [row?, nameGiven?_eq field, Option.bind_some]
  obtain ⟨text, htext, named⟩ := Option.map_eq_some_iff.1 (names.read module)
  rw [htext, Option.map_some, named]
  refine ⟨_, rfl, rfl, fun importer => ?_⟩
  rcases reasons with ⟨absent, none⟩ | ⟨reasons, told, given, tells, same⟩
  · rw [absent, Option.map_none, Option.getD_none, none]
  · rw [given, Option.map_some, Option.getD_some,
      importersNamed_of_tells tells fun importer h => bare importer ((same importer).1 h), same]

/-- What the bundler's format tells is read as such. -/
theorem IsStatsOf.reported (h : IsStatsOf document rows) (graph : IsGraph rows) :
    isDocument document = true ∧ List.Forall₂ SameRow (reported document) rows := by
  obtain ⟨entries, listed, tells⟩ := h
  unfold isDocument Report.reported
  rw [listed]
  exact ⟨List.all_eq_true.2 (tells.forall_mem (fun _ => IsSilentEntry.shape) fun _ _ => SaysRow.shape),
    tells.filterMap (fun _ => IsSilentEntry.read)
      fun _ row hrow said => said.read (graph.bare row hrow).1 (graph.bare row hrow).2⟩

/-- A map without the field is not taken for the bundler's format. -/
theorem modules?_plain (absent : ∀ row ∈ rows, row.1 ≠ "modules") :
    modules? (plain rows) = none := by
  have missing : Value.field? "modules" (rows.map fun row => (.text row.1, .list (row.2.map .text)))
      = none := by
    induction rows with
    | nil => rfl
    | cons row rows ih =>
      obtain ⟨head, rest⟩ := List.forall_mem_cons.1 absent
      have other : Value.sameKey (.text row.1) (.text "modules") = false := by
        simpa [Value.sameKey] using head
      rw [List.map_cons, Value.field?, other]
      exact ih rest
  rw [plain, modules?, missing]

theorem reported_plain (absent : ∀ row ∈ rows, row.1 ≠ "modules")
    (bare : ∀ row ∈ rows, IsBare row.1 ∧ ∀ importer ∈ row.2, IsBare importer) :
    isDocument (plain rows) = true ∧ reported (plain rows) = rows := by
  have row_eq : ∀ row ∈ rows, plainRow (.text row.1, .list (row.2.map .text)) = row := by
    intro row hrow
    obtain ⟨module, importers⟩ := bare row hrow
    have each : (row.2.map Value.text).map (fun item => Path.normalize item.display) = row.2 := by
      rw [List.map_map]
      exact (List.map_congr_left fun importer h => (importers importer h).normal).trans (List.map_id _)
    exact Prod.ext module.normal each
  unfold isDocument reported
  rw [modules?_plain absent]
  constructor
  · exact List.all_eq_true.2 fun entry h => by
      obtain ⟨row, -, rfl⟩ := List.mem_map.1 h
      rfl
  · show (rows.map fun row => (Value.text row.1, Value.list (row.2.map .text))).map plainRow = rows
    rw [List.map_map]
    exact (List.map_congr_left row_eq).trans (List.map_id _)

/-- What the plain format tells is read as such. -/
theorem IsPlainOf.reported (h : IsPlainOf document rows) (graph : IsGraph rows) :
    isDocument document = true ∧ List.Forall₂ SameRow (reported document) rows := by
  obtain ⟨told, rfl, same⟩ := h
  have bare : ∀ row ∈ told, row.1 ≠ "modules" ∧ IsBare row.1
      ∧ ∀ importer ∈ row.2, IsBare importer := by
    intro row hrow
    obtain ⟨other, hother, named, importers⟩ := exists_of_mem_right same.flip hrow
    obtain ⟨module, each⟩ := graph.bare other hother
    rw [named]
    exact ⟨graph.notField other hother, module,
      fun importer h => each importer ((importers importer).1 h)⟩
  obtain ⟨shape, read⟩ := reported_plain (fun row h => (bare row h).1) fun row h => (bare row h).2
  rw [read]
  exact ⟨shape, same⟩

end

/-! ## Both readers -/

/-- **The two formats agree.** A graph is read, with its modules in order, from every document in
the bundler's format that tells it: with any loaders in front of the names, with a module named by
its identifier or by its name, and with entries and reasons in between that name nothing. And it is
read from every plain document that tells it. Both readings have the same modules in the same order
and the same importers, each once, and all of these are in their normal spelling. -/
theorem read_formats {rows : List (String × List String)} {stats map : Value} (graph : IsGraph rows)
    (bundled : IsStatsOf stats rows) (mapped : IsPlainOf map rows) :
    ∃ ofStats ofMap, read stats = .ok ofStats ∧ read map = .ok ofMap ∧
      ofStats.keys = rows.map Prod.fst ∧ ofMap.keys = rows.map Prod.fst ∧
      (∀ module, (ofStats.importers module).Perm (ofMap.importers module)) ∧
      (∀ row ∈ rows, ∀ importer, importer ∈ ofStats.importers row.1 ↔ importer ∈ row.2) ∧
      ∀ module ∈ ofStats.keys, Path.normalize module = module ∧
        ∀ importer ∈ ofStats.importers module, Path.normalize importer = importer := by
  obtain ⟨statsShape, statsTold⟩ := bundled.reported graph
  obtain ⟨mapShape, mapTold⟩ := mapped.reported graph
  obtain ⟨ofStats, readStats, statsKeys, statsRows⟩ :=
    read_sameRows graph.distinct statsShape statsTold
  obtain ⟨ofMap, readMap, mapKeys, mapRows⟩ := read_sameRows graph.distinct mapShape mapTold
  refine ⟨ofStats, ofMap, readStats, readMap, statsKeys, mapKeys, fun module => ?_,
    fun row hrow => (statsRows row hrow).2, fun module hmodule => ?_⟩
  · by_cases hmodule : module ∈ rows.map Prod.fst
    · obtain ⟨row, hrow, rfl⟩ := List.mem_map.1 hmodule
      rw [List.perm_ext_iff_of_nodup (statsRows row hrow).1 (mapRows row hrow).1]
      exact fun importer => ((statsRows row hrow).2 importer).trans ((mapRows row hrow).2 importer).symm
    · rw [ImportGraph.importers_of_not_mem_keys (statsKeys ▸ hmodule),
        ImportGraph.importers_of_not_mem_keys (mapKeys ▸ hmodule)]
  · rw [statsKeys] at hmodule
    obtain ⟨row, hrow, rfl⟩ := List.mem_map.1 hmodule
    obtain ⟨bare, importers⟩ := graph.bare row hrow
    exact ⟨bare.normal, fun importer h =>
      (importers importer (((statsRows row hrow).2 importer).1 h)).normal⟩

/-- A module behind two loaders, told by its name as the identifier is empty, with an importer
behind a loader, one that is told twice and a reason that names none; then an entry that names no
module, and a module without importers. -/
def layeredReport : Value :=
  .map [(.text "modules", .list [
    .map [(.text "identifier", .text ""), (.text "name", .text "ts!es5!/app/a.js"),
      (.text "reasons", .list [.map [(.text "moduleIdentifier", .text "/app/c.js")], .map [],
        .map [(.text "moduleIdentifier", .text "ts!/app/b.js")],
        .map [(.text "moduleIdentifier", .text "/app/c.js")]])],
    .map [(.text "reasons", .null)],
    .map [(.text "identifier", .text "/app/b.js")]])]

/-- It is read as the plain report of its two modules. -/
theorem read_formats_layered : ∃ graph, read layeredReport = .ok graph ∧
    graph.keys = ["/app/a.js", "/app/b.js"] ∧
    ∃ same, read (plain [("/app/a.js", ["/app/b.js", "/app/c.js"]), ("/app/b.js", [])]) = .ok same ∧
      same.keys = graph.keys ∧ ∀ module, (graph.importers module).Perm (same.importers module) := by
  have graph : IsGraph [("/app/a.js", ["/app/b.js", "/app/c.js"]), ("/app/b.js", [])] := by
    decide +kernel
  have bundled : IsStatsOf layeredReport
      [("/app/a.js", ["/app/b.js", "/app/c.js"]), ("/app/b.js", [])] := by
    refine ⟨_, rfl, .say ⟨_, _, rfl, .inr ⟨rfl, rfl⟩, ⟨"ts!es5!", by decide, rfl⟩,
      .inr ⟨_, ["/app/c.js", "/app/b.js", "/app/c.js"], rfl, ?_, fun importer => ?_⟩⟩
      (.skip ⟨_, rfl, rfl, rfl⟩ (.say ⟨_, _, rfl, .inl rfl, ⟨"", .inl rfl, rfl⟩,
        .inl ⟨rfl, rfl⟩⟩ .nil))⟩
    · exact .say ⟨_, _, rfl, rfl, "", .inl rfl, rfl⟩ (.skip ⟨_, rfl, rfl⟩
        (.say ⟨_, _, rfl, rfl, "ts!", by decide, rfl⟩ (.say ⟨_, _, rfl, rfl, "",
          .inl rfl, rfl⟩ .nil)))
    · simp only [List.mem_cons, List.not_mem_nil, or_false]
      tauto
  obtain ⟨ofStats, ofMap, readStats, readMap, statsKeys, mapKeys, same, -, -⟩ :=
    read_formats graph bundled ⟨_, rfl, List.forall₂_same.2 fun _ _ => ⟨rfl, fun _ => Iff.rfl⟩⟩
  exact ⟨ofStats, readStats, statsKeys, ofMap, readMap, mapKeys.trans statsKeys.symm, same⟩

end RouteTrim.Report
