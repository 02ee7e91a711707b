import RouteTrim.Proofs.Graph.Pruning
import RouteTrim.Proofs.Route.RegistryText
import RouteTrim.Proofs.Route.Site
import RouteTrim.Proofs.Text.Utf8

/-!
# Patching the registration site

A registry is put behind the arguments of the call of the root method, or in the place of the third
one. A patched file holds the registry, patching it with the same registry changes nothing, and
patching it with another one gives what patching the first file gives.

The parser is trusted to read the edited text as the edited tree (`ReadsEdit`): a literal that is
put among arguments changes nothing else.
-/

set_option autoImplicit false

namespace RouteTrim.Route

open RouteTrim.Settings (BuildConfig)
open RouteTrim.Text.Utf8 (Spliced spliced_append)
open RouteTrim.Tree

/-! ## The place of a registry -/

/-- Where a registry goes among the arguments of a call, and what is written in front of it. -/
def registrySlot : List Node → Option (Span × List Char)
  | [app] => some (app.span.behind, ", \x7b\x7d, ".toList)
  | [_, options] => some (options.span.behind, ", ".toList)
  | [_, _, old] => some (old.span, [])
  | _ => none

/-- The empty object that is put in front of a registry, so that it comes third. -/
def placeholder : List Node → List Node
  | [app] => [.mk .object .plain ⟨app.span.stop + 2, 2⟩ []]
  | _ => []

def registryEdit (list : Node) (literal : Writing) : Option Edit :=
  (registrySlot list.children).map fun (part, lead) =>
    { span := part
      text := lead ++ literal.chars
      kind := list.kind
      role := list.role
      whole := list.span
      kept := list.children.take 2
      dropped := list.children.drop 2
      fresh := placeholder list.children ++ [literal.node (part.start + lead.length)] }

/-- The edit of a file that puts a registry into its place. -/
def siteEdit? (source : Source) (config : BuildConfig) (literal : Writing) : Option Edit :=
  match rootMethodCall source config with
  | .error _ => none
  | .ok call => do
    let list ← call.child? .arguments
    if list.kind = .arguments then registryEdit list literal else none

section

variable {source source' : Source} {config : BuildConfig} {literal : Writing} {e : Edit}

theorem callArguments_eq {call list : Node} (hlist : call.child? .arguments = some list)
    (kind : list.kind = .arguments) : call.callArguments = list.children := by
  simp [Node.callArguments, hlist, kind]

theorem exists_arguments {call : Node} (h : call.callArguments ≠ []) :
    ∃ list, call.child? .arguments = some list ∧ list.kind = .arguments := by
  unfold Node.callArguments at h
  cases hlist : call.child? .arguments with
  | none => rw [hlist] at h; exact absurd rfl h
  | some list =>
    rw [hlist] at h
    dsimp only at h
    split at h
    · next hkind => exact ⟨list, rfl, by simpa using hkind⟩
    · exact absurd rfl h

theorem putRegistry_eq_ok {registry patched : String} :
    putRegistry source registry config = .ok patched ↔ ∃ call part lead,
      rootMethodCall source config = .ok call ∧
      registrySlot call.callArguments = some (part, lead) ∧
      patched = source.replace part (String.ofList lead ++ registry) := by
  unfold putRegistry
  simp only [bind_eq_ok]
  refine exists_congr fun call => ?_
  generalize call.callArguments = arguments
  rcases arguments with _ | ⟨app, _ | ⟨options, _ | ⟨old, _ | ⟨more, rest⟩⟩⟩⟩ <;>
    simp [registrySlot, pure, Except.pure, throw, throwThe, MonadExceptOf.throw, eq_comm]

/-! ## The edit of a patch -/

theorem registryEdit_eq_some {list : Node} (h : registryEdit list literal = some e) :
    ∃ lead, registrySlot list.children = some (e.span, lead) ∧ e.text = lead ++ literal.chars ∧
      e.site = list ∧ e.Plain ∧ ∃ first second,
        e.newSite.children = [first, second, literal.node (e.span.start + lead.length)] := by
  obtain ⟨⟨part, lead⟩, hslot, rfl⟩ := Option.map_eq_some_iff.1 h
  refine ⟨lead, hslot, rfl, ?_, ?_, ?_⟩
  · cases list
    simp [Edit.site, Node.kind, Node.role, Node.span, Node.children]
  · intro tree htree
    rcases List.mem_append.1 htree with htree | htree
    · unfold placeholder at htree
      split at htree
      · obtain rfl := List.mem_singleton.1 htree
        exact .of_children (by simp [Node.kind, plainKinds]) (by simp [Node.children])
      · exact absurd htree (by simp)
    · obtain rfl := List.mem_singleton.1 htree
      exact Writing.isPlain_node _ literal
  · rw [Edit.children_newSite]
    dsimp only
    generalize list.children = arguments at hslot
    rcases arguments with _ | ⟨app, _ | ⟨options, _ | ⟨old, _ | ⟨more, rest⟩⟩⟩⟩ <;>
      simp [registrySlot, placeholder] at hslot ⊢

theorem siteEdit?_eq_some : siteEdit? source config literal = some e ↔
    ∃ call list, rootMethodCall source config = .ok call ∧ call.child? .arguments = some list ∧
      list.kind = .arguments ∧ registryEdit list literal = some e := by
  unfold siteEdit?
  cases rootMethodCall source config with
  | error failure => simp
  | ok call =>
    simp only [Except.ok.injEq, exists_and_left, exists_eq_left']
    rw [Option.bind_eq_bind, Option.bind_eq_some_iff]
    refine exists_congr fun list => and_congr_right fun _ => ?_
    split <;> simp [*]

theorem siteEdit?_of_slot {call : Node} {part : Span} {lead : List Char}
    (hcall : rootMethodCall source config = .ok call)
    (hslot : registrySlot call.callArguments = some (part, lead)) :
    ∃ e, siteEdit? source config literal = some e ∧ e.span = part ∧
      e.text = lead ++ literal.chars := by
  obtain ⟨list, hlist, kind⟩ : ∃ list, call.child? .arguments = some list ∧
      list.kind = .arguments := by
    refine exists_arguments fun empty => ?_
    rw [empty] at hslot
    exact absurd hslot (by simp [registrySlot])
  rw [callArguments_eq hlist kind] at hslot
  have edit : registryEdit list literal = some _ := Option.map_eq_some_iff.2 ⟨_, hslot, rfl⟩
  exact ⟨_, siteEdit?_eq_some.2 ⟨call, list, hcall, hlist, kind, edit⟩, rfl, rfl⟩

theorem registrar_apart_siteEdit (edit : siteEdit? source config literal = some e) :
    ∀ c ∈ annotatedClasses source config.registrarDecorator, ∀ decoration ∈ c.decorations,
      decoration.node ∉ Node.preorders e.dropped := by
  obtain ⟨call, list, hcall, hlist, -, hedit⟩ := siteEdit?_eq_some.1 edit
  obtain ⟨-, -, -, rfl, -⟩ := registryEdit_eq_some hedit
  obtain ⟨options, hoptions, hsite⟩ := arguments_mem_options hcall hlist
  exact registrar_not_mem_dropped hoptions hsite

theorem plain_siteEdit (edit : siteEdit? source config literal = some e) : e.Plain := by
  obtain ⟨_, list, -, -, -, hedit⟩ := siteEdit?_eq_some.1 edit
  obtain ⟨-, -, -, -, plain, -⟩ := registryEdit_eq_some hedit
  exact plain

/-- **The root method is called with the registry in the edited file.** -/
theorem rootMethodCall_siteEdit (edit : siteEdit? source config literal = some e)
    (revises : e.Revises source source') :
    ∃ lead call' first second, e.text = lead ++ literal.chars ∧
      rootMethodCall source' config = .ok call' ∧
      call'.callArguments = [first, second, literal.node (e.span.start + lead.length)] := by
  obtain ⟨call, list, hcall, hlist, kind, hedit⟩ := siteEdit?_eq_some.1 edit
  obtain ⟨lead, -, htext, hsite, plain, first, second, hchildren⟩ := registryEdit_eq_some hedit
  obtain ⟨call', hcall', hnew⟩ := rootMethodCall_edited revises plain hcall (hsite ▸ hlist)
  have newKind : e.newSite.kind = .arguments := by
    rw [← hsite] at kind
    exact kind
  exact ⟨lead, call', first, second, htext, hcall', (callArguments_eq hnew newKind).trans hchildren⟩

theorem registryIn_eq {call first second third : Node}
    (hcall : rootMethodCall source config = .ok call)
    (harguments : call.callArguments = [first, second, third]) (kind : third.kind = .object) :
    registryIn source config = .ok (some (source.textOf third)) := by
  unfold registryIn
  refine bind_eq_ok.2 ⟨call, hcall, ?_⟩
  rw [harguments]
  simp [kind, pure, Except.pure]

theorem putRegistry_eq {call first second third : Node}
    (hcall : rootMethodCall source config = .ok call)
    (harguments : call.callArguments = [first, second, third]) (registry : String) :
    putRegistry source registry config = .ok (source.replace third.span registry) := by
  refine putRegistry_eq_ok.2 ⟨call, third.span, [], hcall, ?_, ?_⟩
  · rw [harguments]
    rfl
  · rw [String.ofList_nil, String.empty_append]

end

/-! ## Patched files -/

/-- What a patch with a registry does to a text. -/
structure Patched [Parser] (config : BuildConfig)
    (path content patched registry : String) : Prop where
  /-- One part of the text changes, between two characters: nothing becomes the registry behind some
  further text, or the third argument becomes the registry. -/
  splice : ∃ call front old new back,
    rootMethodCall (.ofText content path) config = .ok call ∧
    Spliced content patched front old new back ∧
    ((call.callArguments.length = 1 ∨ call.callArguments.length = 2) ∧ old = "" ∧
        (∃ lead, new = lead ++ registry) ∨
      ∃ first second third, call.callArguments = [first, second, third] ∧
        old = (Source.ofText content path).textOf third ∧ new = registry)
  /-- The registry is found in the patched text. -/
  found : existingRegistry patched config path = .ok (some registry)
  /-- Patching it again changes nothing. -/
  again : patchSite patched registry config path = .ok patched
  /-- Patching it with another registry is patching the first text with that one. -/
  other : ∀ other, patchSite patched other config path = patchSite content other config path

theorem registrySlot_cases {arguments : List Node} {part : Span} {lead : List Char}
    (h : registrySlot arguments = some (part, lead)) :
    (arguments.length = 1 ∨ arguments.length = 2) ∧ part.length = 0 ∨
      ∃ first second third, arguments = [first, second, third] ∧ part = third.span ∧ lead = [] := by
  rcases arguments with _ | ⟨app, _ | ⟨options, _ | ⟨old, _ | ⟨more, rest⟩⟩⟩⟩
  · exact absurd h (by simp [registrySlot])
  · obtain ⟨rfl, -⟩ := Prod.mk.inj (Option.some.inj h)
    exact .inl ⟨.inl rfl, rfl⟩
  · obtain ⟨rfl, -⟩ := Prod.mk.inj (Option.some.inj h)
    exact .inl ⟨.inr rfl, rfl⟩
  · obtain ⟨rfl, rfl⟩ := Prod.mk.inj (Option.some.inj h)
    exact .inr ⟨app, options, old, rfl, rfl, rfl⟩
  · exact absurd h (by simp [registrySlot])

theorem spliced_replace (source : Source) (part : Span) (new : String) :
    ∃ front back, Spliced (String.ofList source.text) (source.replace part new) front
      (String.ofList (part.slice source.text)) new back := by
  have spliced := spliced_append (String.ofList (source.text.take part.start))
    (String.ofList (part.slice source.text)) new (String.ofList (source.text.drop part.stop))
  rw [← String.ofList_append, ← String.ofList_append, Span.take_slice_drop] at spliced
  have patched : source.replace part new = String.ofList (source.text.take part.start) ++ new
      ++ String.ofList (source.text.drop part.stop) := by
    rw [Source.replace, Span.replace, String.ofList_append, String.ofList_append,
      String.ofList_toList]
  rw [← patched] at spliced
  exact ⟨_, _, spliced⟩

theorem patchSite_edit [Parser] {config : BuildConfig} {path content patched : String}
    {links : List Link}
    (success : patchSite content (registryText links) config path = .ok patched) :
    ∃ call lead e, rootMethodCall (.ofText content path) config = .ok call ∧
      registrySlot call.callArguments = some (e.span, lead) ∧
      siteEdit? (.ofText content path) config (registryWriting links) = some e ∧
      e.text = lead ++ (registryWriting links).chars ∧
      patched = (Source.ofText content path).replace e.span (String.ofList e.text) := by
  obtain ⟨call, part, lead, hcall, hslot, hpatched⟩ := putRegistry_eq_ok.1 success
  obtain ⟨e, edit, rfl, htext⟩ : ∃ e, siteEdit? _ config (registryWriting links) = some e ∧
      e.span = part ∧ e.text = lead ++ (registryWriting links).chars :=
    siteEdit?_of_slot hcall hslot
  refine ⟨call, lead, e, hcall, hslot, edit, htext, ?_⟩
  rw [hpatched, htext, String.ofList_append, chars_registryWriting]
  rfl

section

variable {config : BuildConfig} {path content patched : String} {links : List Link} {e : Edit}

/-- **The registry is found in the edited text.** -/
theorem existingRegistry_edited [Parser]
    (edit : siteEdit? (.ofText content path) config (registryWriting links) = some e)
    (revises : e.Revises (.ofText content path) (.ofText patched path)) :
    existingRegistry patched config path = .ok (some (registryText links)) := by
  obtain ⟨lead, call, first, second, htext, hcall, harguments⟩ :=
    rootMethodCall_siteEdit edit revises
  have text : (Source.ofText patched path).text
      = e.span.replace (Source.ofText content path).text (lead ++ (registryWriting links).chars) := by
    rw [← htext]
    exact revises.text
  rw [existingRegistry, registryIn_eq hcall harguments rfl, Source.textOf, text, Writing.span_node,
    Span.slice_of_replace revises.within, chars_registryWriting]
  rfl

/-- **A patch of the edited text is a patch of the first one**: a registry is put in the place of
the registry, which is where the first one was put. -/
theorem patchSite_edited [Parser]
    (edit : siteEdit? (.ofText content path) config (registryWriting links) = some e)
    (revises : e.Revises (.ofText content path) (.ofText patched path)) (other : String) :
    patchSite patched other config path = patchSite content other config path := by
  obtain ⟨lead, call', first, second, htext, hcall', harguments⟩ :=
    rootMethodCall_siteEdit edit revises
  obtain ⟨call, list, hcall, hlist, kind, hedit⟩ := siteEdit?_eq_some.1 edit
  obtain ⟨lead', hslot, htext', -⟩ := registryEdit_eq_some hedit
  obtain rfl := List.append_cancel_right (htext'.symm.trans htext)
  rw [← callArguments_eq hlist kind] at hslot
  have text : (Source.ofText patched path).text
      = e.span.replace (Source.ofText content path).text (lead' ++ (registryWriting links).chars) := by
    rw [← htext]
    exact revises.text
  have old : patchSite content other config path
      = .ok ((Source.ofText content path).replace e.span (String.ofList lead' ++ other)) :=
    putRegistry_eq_ok.2 ⟨call, e.span, lead', hcall, hslot, rfl⟩
  rw [old]
  refine (putRegistry_eq hcall' harguments other).trans (congrArg _ ?_)
  rw [Source.replace, text, Writing.span_node, Span.replace_of_replace revises.within,
    Source.replace, String.toList_append, String.toList_ofList]

end

/-- **A registry is patched in once and for all.** If the texts of its links have no line ends and
the parser reads the edited text as the edit of the tree, then a patch that succeeds changes one
part of the text and no other byte, the registry is found where it was put, and a further patch
takes its place. -/
theorem patchSite_registryText [Parser] {config : BuildConfig} {path content patched : String}
    {links : List Link} (oneLine : ∀ link ∈ links, link.OneLine)
    (parser : ∀ e ∈ siteEdit? (.ofText content path) config (registryWriting links),
      (registryWriting links).Valid → ReadsEdit content.toList e)
    (success : patchSite content (registryText links) config path = .ok patched) :
    Patched config path content patched (registryText links) := by
  obtain ⟨call, lead, e, hcall, hslot, edit, htext, hpatched⟩ := patchSite_edit success
  have revises := (parser e edit (valid_registryWriting oneLine)).revises path
  rw [← hpatched] at revises
  refine ⟨?_, existingRegistry_edited edit revises, (patchSite_edited edit revises _).trans success,
    patchSite_edited edit revises⟩
  have written : String.ofList e.text = String.ofList lead ++ registryText links := by
    rw [htext, String.ofList_append, chars_registryWriting]
    rfl
  obtain ⟨front, back, spliced⟩ := spliced_replace (.ofText content path) e.span
    (String.ofList lead ++ registryText links)
  have whole : String.ofList (Source.ofText content path).text = content := String.ofList_toList
  rw [← written, ← hpatched, written, whole] at spliced
  refine ⟨call, front, _, _, back, hcall, spliced, ?_⟩
  rcases registrySlot_cases hslot with ⟨count, empty⟩ | ⟨first, second, third, hall, part, rfl⟩
  · refine .inl ⟨count, ?_, _, rfl⟩
    rw [Span.slice, empty, List.take_zero, String.ofList_nil]
  · refine .inr ⟨first, second, third, hall, by rw [part]; rfl, ?_⟩
    rw [String.ofList_nil, String.empty_append]

/-- A root descriptor whose root method is called with one argument. -/
def sampleDescriptor : String :=
  "@NgModule(\x7b imports: [IonicModule.forRoot(MyApp)] \x7d) class AppModule \x7b\x7d"

/-- The way from the file down to the arguments of the call. -/
def sampleWay : List Frame :=
  wayAlong [0, 0, 0, 1, 0, 0, 1, 0, 1] (parse sampleDescriptor.toList)

/-- The first awkward link brings quotes, backslashes, comment signs and brackets into the file. -/
theorem patchSite_awkwardLink :
    ∃ patched, patchSite sampleDescriptor (registryText (awkwardLinks.take 1))
        ImportGraph.sampleConfig "app.module.ts" = .ok patched ∧
      Patched ImportGraph.sampleConfig "app.module.ts" sampleDescriptor patched
        (registryText (awkwardLinks.take 1)) := by
  have oneLine : ∀ link ∈ awkwardLinks.take 1, link.OneLine := by
    intro link hlink
    obtain rfl := List.mem_singleton.1 hlink
    exact ⟨by decide, by decide, by simp; decide, by decide, by decide⟩
  -- The kernel takes long to decode a text, so its characters are named here.
  have chars : sampleDescriptor.toList = _ := String.toList_ofList
  have read : ∀ e ∈ siteEdit? (.ofText sampleDescriptor "app.module.ts") ImportGraph.sampleConfig
        (registryWriting (awkwardLinks.take 1)),
      e.ReadAlong sampleWay sampleDescriptor.toList := by
    rw [Source.ofText, sampleWay, chars]
    decide +kernel
  have parser : ∀ e ∈ siteEdit? (.ofText sampleDescriptor "app.module.ts")
        ImportGraph.sampleConfig (registryWriting (awkwardLinks.take 1)),
      (registryWriting (awkwardLinks.take 1)).Valid → ReadsEdit sampleDescriptor.toList e :=
    fun e edit _ => (read e edit).readsEdit
  have success : (patchSite sampleDescriptor (registryText (awkwardLinks.take 1))
      ImportGraph.sampleConfig "app.module.ts").toOption.isSome = true := by
    rw [patchSite, Source.ofText, chars]
    decide +kernel
  cases hpatched : patchSite sampleDescriptor (registryText (awkwardLinks.take 1))
      ImportGraph.sampleConfig "app.module.ts" with
  | error failure =>
    rw [hpatched] at success
    exact absurd success (by simp [Except.toOption])
  | ok patched => exact ⟨patched, rfl, patchSite_registryText oneLine parser hpatched⟩

end RouteTrim.Route
