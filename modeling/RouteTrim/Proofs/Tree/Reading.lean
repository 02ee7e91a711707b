import RouteTrim.Proofs.Tree.Edit
import RouteTrim.Tree.Source

/-!
# Reading an edited file

What is asked of a node, its text, its dotted name, the call that it is, has the same answer of its
counterpart in the edited file. Of nodes apart from the edit this is so because the text there is
the same; of nodes around it, because an answer never takes in the text that changed.
-/

set_option autoImplicit false

namespace RouteTrim.Tree

open Node

/-! ## Texts -/

section

variable {text lead old new : List Char} {part span : Span}

theorem Span.slice_replace_front (within : part.stop ≤ text.length)
    (front : span.stop ≤ part.start) :
    span.slice (part.replace text new) = span.slice text := by
  have short : span.start + span.length ≤ (text.take part.start).length := by
    simp only [Span.stop, List.length_take] at *
    omega
  have same : text = text.take part.start ++ text.drop part.start :=
    (List.take_append_drop ..).symm
  rw [Span.slice, Span.slice, Span.replace, List.append_assoc,
    List.drop_append_of_le_length (by omega),
    List.take_append_of_le_length (by rw [List.length_drop]; omega)]
  conv_rhs => rw [same, List.drop_append_of_le_length (by omega),
    List.take_append_of_le_length (by rw [List.length_drop]; omega)]

theorem Span.slice_replace_behind (within : part.stop ≤ text.length)
    (behind : part.stop ≤ span.start) :
    Span.slice ⟨span.start + new.length - part.length, span.length⟩ (part.replace text new)
      = span.slice text := by
  have start : span.start + new.length - part.length
      = (text.take part.start ++ new).length + (span.start - part.stop) := by
    simp only [Span.stop, List.length_append, List.length_take] at *
    omega
  rw [Span.slice, Span.slice, Span.replace, start, ← List.drop_drop, List.drop_left,
    List.drop_drop]
  congr 2
  omega

/-- What was put in is found where it was put. -/
theorem Span.slice_of_replace (within : part.stop ≤ text.length) :
    Span.slice ⟨part.start + lead.length, old.length⟩ (part.replace text (lead ++ old)) = old := by
  have start : (text.take part.start).length = part.start := by
    simp only [Span.stop, List.length_take] at *
    omega
  have front : part.start + lead.length = (text.take part.start ++ lead).length := by
    rw [List.length_append, start]
  rw [Span.slice, Span.replace, front, ← List.append_assoc, List.append_assoc, List.drop_left,
    List.take_left]

theorem Span.replace_of_replace (within : part.stop ≤ text.length) :
    Span.replace ⟨part.start + lead.length, old.length⟩ (part.replace text (lead ++ old)) new
      = part.replace text (lead ++ new) := by
  have start : (text.take part.start).length = part.start := by
    simp only [Span.stop, List.length_take] at *
    omega
  have front : part.start + lead.length = (text.take part.start ++ lead).length := by
    rw [List.length_append, start]
  have whole : part.replace text (lead ++ old)
      = (text.take part.start ++ lead) ++ (old ++ text.drop part.stop) := by
    simp [Span.replace]
  rw [Span.replace, Span.stop, whole, front, ← List.drop_drop, List.take_left, List.drop_left,
    List.drop_left]
  simp [Span.replace]

end

/-! ## Revisions -/

/-- An edit turns a file into another one, text and tree. -/
structure Edit.Revises (e : Edit) (source source' : Source) : Prop where
  path : source'.path = source.path
  text : source'.text = e.span.replace source.text e.text
  within : e.span.stop ≤ source.text.length
  turns : e.Turns source.root source'.root

section

variable [Parser]

/-- What a parser is trusted with: the edited text has the edited tree. -/
structure ReadsEdit (text : List Char) (e : Edit) : Prop where
  within : e.span.stop ≤ text.length
  turns : e.Turns (Parser.parse text) (Parser.parse (e.span.replace text e.text))

/-- What a parser is trusted with for one edit, along a given way to its site. -/
structure Edit.ReadAlong (e : Edit) (way : List Frame) (text : List Char) : Prop where
  within : e.span.stop ≤ text.length
  sound : e.Sound
  fits : e.Fits way
  old : plug way e.site = Parser.parse text
  new : plug (way.map (Frame.edited e)) e.newSite = Parser.parse (e.span.replace text e.text)

instance (e : Edit) (way : List Frame) (text : List Char) : Decidable (e.ReadAlong way text) :=
  decidable_of_iff (e.span.stop ≤ text.length ∧ e.Sound ∧ e.Fits way ∧
      plug way e.site = Parser.parse text ∧
      plug (way.map (Frame.edited e)) e.newSite = Parser.parse (e.span.replace text e.text))
    ⟨fun ⟨within, sound, fits, old, new⟩ => ⟨within, sound, fits, old, new⟩,
      fun h => ⟨h.within, h.sound, h.fits, h.old, h.new⟩⟩

theorem Edit.ReadAlong.readsEdit {e : Edit} {way : List Frame} {text : List Char}
    (h : e.ReadAlong way text) : ReadsEdit text e :=
  ⟨h.within, h.sound, way, h.fits, h.old, h.new⟩

theorem ReadsEdit.revises {content : String} {e : Edit} (h : ReadsEdit content.toList e)
    (path : String) : e.Revises (.ofText content path)
      (.ofText ((Source.ofText content path).replace e.span (String.ofList e.text)) path) := by
  have text : ((Source.ofText content path).replace e.span (String.ofList e.text)).toList
      = e.span.replace content.toList e.text := by
    rw [Source.replace, String.toList_ofList, String.toList_ofList]
    rfl
  refine ⟨rfl, text, h.within, ?_⟩
  have turns := h.turns
  rw [← text] at turns
  exact turns

end

/-- The kinds of nodes in a literal that has no expressions in it. -/
def plainKinds : List Kind :=
  [.object, .pair, .propertyIdentifier, .array, .string, .stringFragment, .escapeSequence,
    .nullLiteral]

/-- Whether a tree is that of a plain literal, or of a part of one. -/
def Node.IsPlain (tree : Node) : Prop :=
  ∀ node ∈ tree.preorder, node.kind ∈ plainKinds

def Edit.Plain (e : Edit) : Prop :=
  ∀ tree ∈ e.fresh, tree.IsPlain

theorem Node.IsPlain.of_children {tree : Node} (kind : tree.kind ∈ plainKinds)
    (children : ∀ child ∈ tree.children, child.IsPlain) : tree.IsPlain := by
  intro node hnode
  rcases mem_preorder.1 hnode with rfl | ⟨child, hchild, hnode⟩
  · exact kind
  · exact children child hchild node hnode

theorem Node.IsPlain.withRole {tree : Node} (h : tree.IsPlain) (role : Role) :
    (tree.withRole role).IsPlain := by
  refine .of_children ?_ fun child hchild node hnode => ?_
  · rw [kind_withRole]
    exact h tree (mem_preorder_self tree)
  · rw [children_withRole] at hchild
    exact h node (mem_preorder_of_child hchild hnode)

theorem Edit.Plain.kind {e : Edit} (plain : e.Plain) {node : Node}
    (h : node ∈ preorders e.fresh) : node.kind ∈ plainKinds := by
  obtain ⟨tree, htree, h⟩ := mem_preorders.1 h
  exact plain tree htree node h

section

variable {e : Edit} {source source' : Source} {old new : Node}

theorem Edit.Sound.kind_ne (sound : e.Sound) {kind : Kind}
    (other : kind ∉ [Kind.arguments, .assignmentExpression]) (h : old.kind = kind) :
    old ≠ e.site := by
  rintro rfl
  subst h
  rcases sound.kind with hkind | hkind <;> exact other (by simp [site, Node.kind, hkind])

theorem Edit.Revises.slice_apart (revises : e.Revises source source') (h : e.Apart old new) :
    new.span.slice source'.text = old.span.slice source.text := by
  obtain ⟨f, leaves, rfl⟩ := h
  rw [revises.text, span_mapSpans]
  cases leaves with
  | front h => exact Span.slice_replace_front revises.within (h old (mem_preorder_self old))
  | behind h => exact Span.slice_replace_behind revises.within (h old (mem_preorder_self old))

theorem Edit.Revises.textOf_apart (revises : e.Revises source source') (h : e.Apart old new) :
    source'.textOf new = source.textOf old :=
  congrArg String.ofList (revises.slice_apart h)

/-! ## Dotted names -/

theorem Source.objectSegments?_eq (nodes : List Node) :
    source.objectSegments? nodes
      = (nodes.find? fun node => node.role == .object) >>= source.segments? := by
  induction nodes with
  | nil => rfl
  | cons node nodes ih =>
    rw [objectSegments?, List.find?_cons, ih]
    cases node.role == .object <;> rfl

theorem Source.segments?_name (h : old.kind ∈ nameKinds) :
    source.segments? old = some [source.textOf old] := by
  obtain ⟨kind, role, span, children⟩ := old
  simp only [nameKinds, Node.kind, List.mem_cons, List.not_mem_nil, or_false] at h
  rcases h with rfl | rfl | rfl | rfl <;> rfl

theorem Source.segments?_member (h : old.kind = .memberExpression) :
    source.segments? old = (do
      let front ← old.child? .object >>= source.segments?
      let property ← old.child? .property
      return front ++ [source.textOf property]) := by
  obtain ⟨kind, role, span, children⟩ := old
  obtain rfl : kind = .memberExpression := h
  rw [segments?, objectSegments?_eq]
  rfl

theorem Source.segments?_other (hname : old.kind ∉ nameKinds)
    (hmember : old.kind ≠ .memberExpression) : source.segments? old = none := by
  obtain ⟨kind, role, span, children⟩ := old
  simp only [nameKinds, Node.kind, List.mem_cons, List.not_mem_nil, or_false, not_or] at hname
  obtain ⟨hidentifier, hproperty, htype, hthis⟩ := hname
  unfold segments?
  split <;> first | contradiction | rfl

/-- The names of an expression are read from the text of its file. -/
theorem Source.segments?_congr (text : source'.text = source.text) (node : Node) :
    source'.segments? node = source.segments? node := by
  have textOf (node : Node) : source'.textOf node = source.textOf node := by
    rw [Source.textOf, Source.textOf, text]
  induction node using Node.induction with
  | step node ih =>
    by_cases hname : node.kind ∈ nameKinds
    · rw [Source.segments?_name hname, Source.segments?_name hname, textOf]
    · by_cases hmember : node.kind = .memberExpression
      · have object : (node.child? .object >>= source'.segments?)
            = (node.child? .object >>= source.segments?) := by
          cases hobject : node.child? .object with
          | none => rfl
          | some object => exact ih object (mem_children_of_child? hobject)
        rw [Source.segments?_member hmember, Source.segments?_member hmember, object]
        simp only [textOf]
      · rw [Source.segments?_other hname hmember, Source.segments?_other hname hmember]

theorem Source.dottedName?_congr (text : source'.text = source.text) (node : Node) :
    source'.dottedName? node = source.dottedName? node := by
  rw [Source.dottedName?, Source.dottedName?, Source.segments?_congr text]

theorem Edit.Counterpart.apart_of_name (sound : e.Sound) (h : e.Counterpart old new)
    (hname : old.kind ∈ nameKinds) : e.Apart old new := by
  cases h with
  | apart h => exact h
  | around way fits hold hnew =>
    subst hold
    cases way with
    | nil =>
      change e.kind ∈ nameKinds at hname
      rcases sound.kind with hsite | hsite <;> exact absurd hname (by rw [hsite]; decide)
    | cons frame way => exact absurd hname fits.1.kind

/-- A chain of names is the same in the edited file. -/
theorem Edit.Revises.segments? (revises : e.Revises source source') (h : e.Counterpart old new) :
    source'.segments? new = source.segments? old := by
  induction old using Node.induction generalizing new with
  | step old ih =>
    by_cases hname : old.kind ∈ nameKinds
    · rw [Source.segments?_name hname, Source.segments?_name (h.kind_eq ▸ hname),
        revises.textOf_apart (h.apart_of_name revises.turns.sound hname)]
    · by_cases hmember : old.kind = .memberExpression
      · have other : old ≠ e.site := revises.turns.sound.kind_ne (by decide) hmember
        have object : (new.child? .object >>= source'.segments?)
            = (old.child? .object >>= source.segments?) := by
          rcases optionRel_cases (h.child? other .object) with
            ⟨hold, hnew⟩ | ⟨child, child', hold, hnew, hchild⟩
          · rw [hold, hnew]
            rfl
          · rw [hold, hnew]
            exact ih child (mem_children_of_child? hold) hchild
        rw [Source.segments?_member hmember, Source.segments?_member (h.kind_eq.trans hmember),
          object]
        rcases optionRel_cases (h.property_apart other hmember) with
          ⟨hold, hnew⟩ | ⟨property, property', hold, hnew, hproperty⟩
        · rw [hold, hnew]
          rfl
        · rw [hold, hnew]
          simp only [Option.bind_eq_bind, Option.bind_some, revises.textOf_apart hproperty]
      · rw [Source.segments?_other hname hmember,
          Source.segments?_other (h.kind_eq ▸ hname) (h.kind_eq ▸ hmember)]

theorem Edit.Revises.dottedName? (revises : e.Revises source source') (h : e.Counterpart old new) :
    source'.dottedName? new = source.dottedName? old := by
  rw [Source.dottedName?, Source.dottedName?, revises.segments? h]

/-! ## Calls -/

theorem Edit.Sound.call_ne (sound : e.Sound) (h : old.kind = .callExpression) : old ≠ e.site :=
  sound.kind_ne (by decide) h

theorem Edit.Revises.calleeName? (revises : e.Revises source source') (h : e.Counterpart old new)
    (call : old.kind = .callExpression) : source'.calleeName? new = source.calleeName? old := by
  unfold Source.calleeName?
  rcases optionRel_cases (h.child? (revises.turns.sound.call_ne call) .callee) with
    ⟨hold, hnew⟩ | ⟨callee, callee', hold, hnew, hcallee⟩
  · rw [hold, hnew]
    rfl
  · rw [hold, hnew]
    exact revises.dottedName? hcallee

theorem Edit.Counterpart.callArguments (sound : e.Sound) (h : e.Counterpart old new)
    (call : old.kind = .callExpression) :
    old.callArguments = e.site.children ∨
      List.Forall₂ e.Counterpart old.callArguments new.callArguments := by
  unfold Node.callArguments
  rcases optionRel_cases (h.child? (sound.call_ne call) .arguments) with
    ⟨hold, hnew⟩ | ⟨list, list', hold, hnew, hlist⟩
  · rw [hold, hnew]
    exact .inr .nil
  · rw [hold, hnew]
    simp only [hlist.kind_eq]
    by_cases hkind : list.kind == .arguments
    · rw [if_pos hkind, if_pos hkind]
      by_cases hsite : list = e.site
      · exact .inl (by rw [hsite])
      · exact .inr (hlist.children hsite)
    · rw [if_neg hkind, if_neg hkind]
      exact .inr .nil

theorem Edit.Apart.callArguments (h : e.Apart old new) :
    List.Forall₂ e.Apart old.callArguments new.callArguments := by
  unfold Node.callArguments
  rcases optionRel_cases (h.child? .arguments) with ⟨hold, hnew⟩ | ⟨list, list', hold, hnew, hlist⟩
  · rw [hold, hnew]
    exact .nil
  · rw [hold, hnew]
    simp only [hlist.kind_eq]
    split
    · exact hlist.children
    · exact .nil

end

end RouteTrim.Tree
