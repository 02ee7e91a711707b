import RouteTrim.Proofs.Route.Quote
import RouteTrim.Proofs.Route.Value
import RouteTrim.Proofs.Tree.Brackets
import RouteTrim.Proofs.Tree.Constant
import RouteTrim.Proofs.Tree.Reading

/-!
# Written literals and their trees

A `Writing` is a plain literal together with the blanks between its parts, so it has one text and,
at each place of a file, one tree: the one that the grammar of literals gives it. Whatever its
strings hold, quotes, brackets or code, its tree has the nodes of literals and no others, and it
denotes the value of the literal wherever the text stands (`Valid.stands`).

The grammar is the language's, and `FollowsLiterals` is what a parser is trusted with where these
trees are taken for its own. A registry is written so.
-/

set_option autoImplicit false

namespace RouteTrim.Route

open RouteTrim.Text (joinWith)
open RouteTrim.Tree

def memberText (key : String) (t : List Char) : List Char :=
  key.toList ++ ':' :: ' ' :: t

theorem memberText_append (name : String) (t s : List Char) :
    memberText name t ++ s = name.toList ++ ':' :: ' ' :: (t ++ s) := by
  simp [memberText]

/-- The brackets of a list. -/
inductive Bracket where
  | square
  | curly
  deriving DecidableEq

namespace Bracket

def opening : Bracket → Char
  | square => '['
  | curly => '\x7b'

def closing : Bracket → Char
  | square => ']'
  | curly => '\x7d'

def kind : Bracket → Kind
  | square => .array
  | curly => .object

end Bracket

/-- A plain literal, or a member of one, with the blanks that stand in it. -/
inductive Writing where
  | null
  | text (s : String)
  | pair (key : String) (value : Writing)
  | list (bracket : Bracket) (lead sep trail : List Char) (items : List Writing)

namespace Writing

mutual

/-- The text of a literal. -/
def chars : Writing → List Char
  | null => "null".toList
  | text s => quote s
  | pair key value => memberText key (chars value)
  | list bracket lead sep trail items =>
    bracketText bracket.opening bracket.closing lead sep trail (charsAll items)

/-- The texts of literals. -/
def charsAll : List Writing → List (List Char)
  | [] => []
  | item :: items => chars item :: charsAll items

end

mutual

/-- The tree of a literal at an offset. -/
def node : Nat → Writing → Node
  | offset, null => .mk .nullLiteral .plain ⟨offset, (chars null).length⟩ []
  | offset, text s => .mk .string .plain ⟨offset, (chars (text s)).length⟩
      (Literal.pieceNodes (offset + 1) (quotedPieces 0 s.toList))
  | offset, pair key value => .mk .pair .plain ⟨offset, (chars (pair key value)).length⟩
      [.mk .propertyIdentifier .key ⟨offset, key.toList.length⟩ [],
        (node (offset + key.toList.length + 2) value).withRole .value]
  | offset, list bracket lead sep trail items => .mk bracket.kind .plain
      ⟨offset, (chars (list bracket lead sep trail items)).length⟩
      (nodes (offset + 1 + lead.length) (1 + sep.length) items)

/-- The trees of literals from an offset on, with a gap between any two of them. -/
def nodes : Nat → Nat → List Writing → List Node
  | _, _, [] => []
  | offset, gap, item :: items =>
    node offset item :: nodes (offset + (chars item).length + gap) gap items

end

/-- Whether a literal is a member of an object. -/
def isPair : Writing → Bool
  | pair .. => true
  | _ => false

mutual

/-- What a literal stands for; of a member, what its value does. -/
def value : Writing → Value
  | null => .null
  | text s => .text s
  | pair _ v => value v
  | list .square _ _ _ items => .array (values items)
  | list .curly _ _ _ items => .object (members items)

/-- What the elements of an array stand for. -/
def values : List Writing → List Value
  | [] => []
  | item :: items => value item :: values items

def members : List Writing → List (String × Value)
  | [] => []
  | pair key v :: items => (key, value v) :: members items
  | _ :: items => members items

end

mutual

/-- The texts of the strings in a literal. -/
def texts : Writing → List String
  | null => []
  | text s => [s]
  | pair _ v => texts v
  | list _ _ _ _ items => textsAll items

def textsAll : List Writing → List String
  | [] => []
  | item :: items => texts item ++ textsAll items

end

end Writing

/-- A text without line ends. -/
def OneLine (s : String) : Prop :=
  ∀ c ∈ s.toList, c ≠ '\r' ∧ c ≠ '\n'

instance (s : String) : Decidable (OneLine s) :=
  List.decidableBAll (fun c => c ≠ '\r' ∧ c ≠ '\n') s.toList

/-- Literals of the language: strings on one line, names as keys, members in objects only. -/
inductive Writing.Valid : Writing → Prop where
  | null : Valid .null
  | text {s : String} : OneLine s → Valid (.text s)
  | pair {key : String} {value : Writing} : isWord key.toList = true → value.isPair = false →
      Valid value → Valid (.pair key value)
  | list {bracket : Bracket} {lead sep trail : List Char} {items : List Writing} :
      lead.all isSpacing = true → sep.all isSpacing = true → trail.all isSpacing = true →
      (∀ item ∈ items, item.isPair = decide (bracket = .curly)) → (∀ item ∈ items, Valid item) →
      Valid (.list bracket lead sep trail items)

namespace Writing

theorem charsAll_eq (items : List Writing) : charsAll items = items.map chars := by
  induction items with
  | nil => rfl
  | cons item items ih => rw [charsAll, ih, List.map_cons]

theorem textsAll_eq (items : List Writing) : textsAll items = items.flatMap texts := by
  induction items with
  | nil => rfl
  | cons item items ih => rw [textsAll, ih, List.flatMap_cons]

theorem nodes_eq (offset gap : Nat) (items : List Writing) :
    nodes offset gap items = nodesFrom chars (fun item start => item.node start) offset gap items := by
  induction items generalizing offset with
  | nil => rfl
  | cons item items ih => rw [nodes, nodesFrom, ih]

theorem span_node (offset : Nat) (writing : Writing) :
    (writing.node offset).span = ⟨offset, writing.chars.length⟩ := by
  cases writing <;> rw [node] <;> rfl

theorem isPlain_pieceNodes {start : Nat} {pieces : List Piece} :
    ∀ piece ∈ Literal.pieceNodes start pieces, piece.IsPlain := by
  induction pieces generalizing start with
  | nil => simp [Literal.pieceNodes]
  | cons first pieces ih =>
    unfold Literal.pieceNodes
    refine List.forall_mem_cons.2 ⟨.of_children ?_ (by simp [Node.children]), ih⟩
    cases first <;> simp [Node.kind, plainKinds]

mutual

/-- **The tree of a written literal is plain.** -/
theorem isPlain_node : ∀ (offset : Nat) (writing : Writing), (writing.node offset).IsPlain
  | _, .null => by
    rw [node]
    exact .of_children (by simp [Node.kind, plainKinds]) (by simp [Node.children])
  | _, .text _ => by
    rw [node]
    exact .of_children (by simp [Node.kind, plainKinds]) isPlain_pieceNodes
  | offset, .pair key value => by
    have name : (Node.mk .propertyIdentifier .key ⟨offset, key.toList.length⟩ []).IsPlain :=
      .of_children (by simp [Node.kind, plainKinds]) (by simp [Node.children])
    rw [node]
    refine .of_children (by simp [Node.kind, plainKinds]) (List.forall_mem_cons.2 ⟨name, ?_⟩)
    exact List.forall_mem_singleton.2 ((isPlain_node _ value).withRole .value)
  | _, .list bracket lead sep trail items => by
    rw [node]
    refine .of_children ?_ (isPlain_nodes _ _ items)
    cases bracket <;> simp [Node.kind, Bracket.kind, plainKinds]

theorem isPlain_nodes : ∀ (offset gap : Nat) (items : List Writing),
    ∀ tree ∈ nodes offset gap items, tree.IsPlain
  | _, _, [] => by
    rw [nodes]
    exact List.forall_mem_nil _
  | offset, gap, item :: items => by
    rw [nodes]
    exact List.forall_mem_cons.2 ⟨isPlain_node offset item, isPlain_nodes _ gap items⟩

end

/-! ## What a literal denotes -/

theorem drop_of_append {text t s : List Char} {offset : Nat} (h : text.drop offset = t ++ s) :
    text.drop (offset + t.length) = s := by
  rw [← List.drop_drop, h, List.drop_left]

section

variable {source : Source}

def Stands (source : Source) : Writing → Node → Prop
  | pair key v, node => DenotesMember source (key, v.value) node
  | literal, node => Denotes source literal.value node

theorem Stands.denotes {literal : Writing} {node : Node} (h : Stands source literal node)
    (single : literal.isPair = false) : Denotes source literal.value node := by
  cases literal with
  | pair key v => cases single
  | _ => exact h

theorem valueText_of_quote {s : String} {rest : List Char} {offset : Nat}
    (h : source.text.drop offset = quote s ++ rest) (span : Span) :
    valueText source (.mk .string .plain span
      (Literal.pieceNodes (offset + 1) (quotedPieces 0 s.toList))) = s := by
  have behind : source.text.drop (offset + 1)
      = s.toList.flatMap quoteChar ++ Text.singleQuote :: rest := by
    rw [quote_eq] at h
    exact drop_of_append (t := [Text.singleQuote]) h
  have decoded := decode_quotedPieces [] s.toList (Text.singleQuote :: rest)
  simp only [List.length_nil, List.nil_append] at decoded
  show String.ofList ((Literal.pieceNodes (offset + 1) _).flatMap (pieceText source)) = s
  rw [flatMap_pieceText, behind, decoded, String.ofList_toList]

/-- The trees of a list's items stand for the items if each item's tree does wherever the item
stands. -/
theorem forall₂_nodes {sep s : List Char} {items : List Writing} {offset : Nat}
    (each : ∀ item ∈ items, ∀ (start : Nat) (rest : List Char),
      source.text.drop start = item.chars ++ rest → Stands source item (item.node start))
    (h : source.text.drop offset = joinWith (',' :: sep) (items.map chars) ++ s) :
    List.Forall₂ (Stands source) items (nodes offset (1 + sep.length) items) := by
  induction items generalizing offset with
  | nil => exact .nil
  | cons first items ih =>
    rw [List.forall_mem_cons] at each
    rw [nodes]
    cases items with
    | nil => exact .cons (each.1 offset s h) .nil
    | cons second items =>
      have split : joinWith (',' :: sep) ((first :: second :: items).map chars)
          = first.chars ++ ((',' :: sep) ++ joinWith (',' :: sep) ((second :: items).map chars)) := by
        simp [joinWith]
      have gap : offset + first.chars.length + (1 + sep.length)
          = offset + first.chars.length + (',' :: sep).length := by
        rw [List.length_cons, Nat.add_comm 1]
      rw [split, List.append_assoc] at h
      have behind := drop_of_append h
      rw [List.append_assoc] at behind
      rw [gap]
      exact .cons (each.1 offset _ h) (ih each.2 (drop_of_append behind))

theorem forall₂_values {items : List Writing} {children : List Node}
    (h : List.Forall₂ (Stands source) items children)
    (singles : ∀ item ∈ items, item.isPair = false) :
    List.Forall₂ (Denotes source) (values items) children := by
  induction h with
  | nil => exact .nil
  | cons first _ ih =>
    rw [List.forall_mem_cons] at singles
    exact .cons (first.denotes singles.1) (ih singles.2)

theorem forall₂_members {items : List Writing} {children : List Node}
    (h : List.Forall₂ (Stands source) items children) (pairs : ∀ item ∈ items, item.isPair = true) :
    List.Forall₂ (DenotesMember source) (members items) children := by
  induction h with
  | nil => exact .nil
  | @cons item node items _ first _ ih =>
    rw [List.forall_mem_cons] at pairs
    cases item with
    | pair key v => exact .cons first (ih pairs.2)
    | _ => cases pairs.1

/-- **The tree of a written literal stands for it** in every file with its text at the right
place. -/
theorem Valid.stands {literal : Writing} (valid : literal.Valid) {offset : Nat} {s : List Char}
    (h : source.text.drop offset = literal.chars ++ s) :
    Stands source literal (literal.node offset) := by
  induction valid generalizing offset s with
  | null => exact Denotes.null (by rw [node]; rfl)
  | text _ =>
    rw [node]
    exact Denotes.text rfl (valueText_of_quote h _)
  | @pair key v word single _ ih =>
    rw [chars, memberText_append] at h
    have behind : source.text.drop (offset + key.toList.length + 2) = v.chars ++ s :=
      drop_of_append (t := [':', ' ']) (drop_of_append h)
    have named : source.propertyKey (.mk .propertyIdentifier .key ⟨offset, key.toList.length⟩ [])
        = key := by
      show source.textOf _ = key
      simp [Source.textOf, Span.slice, Node.span, h]
    rw [node]
    refine DenotesMember.pair rfl rfl named ?_ (((ih behind).denotes single).withRole .value)
    cases v.node (offset + key.toList.length + 2)
    rfl
  | @list bracket lead sep trail items hlead hsep htrail kinds _ ih =>
    have each : List.Forall₂ (Stands source) items
        (nodes (offset + 1 + lead.length) (1 + sep.length) items) := by
      rw [chars, charsAll_eq, bracketText_append] at h
      have inside : source.text.drop (offset + 1)
          = listText lead sep trail (items.map chars) ++ bracket.closing :: s :=
        drop_of_append (t := [bracket.opening]) h
      cases items with
      | nil => exact .nil
      | cons first items =>
        simp only [List.map_cons, listText, List.append_assoc] at inside
        exact forall₂_nodes (fun item hitem _ _ => ih item hitem) (drop_of_append inside)
    rw [node]
    cases bracket with
    | square => exact Denotes.array rfl (forall₂_values each fun item hitem => by
        simpa using kinds item hitem)
    | curly => exact Denotes.object rfl (forall₂_members each fun item hitem => by
        simpa using kinds item hitem)

end

end Writing

def segmentText : Option String → List Char
  | some segment => quote segment
  | none => "null".toList

def segmentWriting : Option String → Writing
  | some segment => .text segment
  | none => .null

def Link.writing (link : Link) : Writing :=
  .list .curly [' '] [' '] [' ']
    [.pair "loadChildren" (.text link.loadChildren),
     .pair "name" (.text link.name),
     .pair "segment" (segmentWriting link.segment),
     .pair "priority" (.text link.priority),
     .pair "defaultHistory" (.list .square [] [' '] [] (link.history.map .text))]

/-- A registry as it is written. -/
def registryWriting (links : List Link) : Writing :=
  .list .curly "\n  ".toList [] ['\n']
    [.pair "links" (.list .square "\n    ".toList "\n    ".toList "\n  ".toList
      (links.map Link.writing))]

/-- A link whose texts have no line ends. -/
structure Link.OneLine (link : Link) : Prop where
  loadChildren : Route.OneLine link.loadChildren
  name : Route.OneLine link.name
  segment : ∀ segment, link.segment = some segment → Route.OneLine segment
  priority : Route.OneLine link.priority
  history : ∀ item ∈ link.history, Route.OneLine item

theorem listText_eq_joinWith (sep : List Char) (texts : List (List Char)) :
    listText [] sep [] texts = joinWith (',' :: sep) texts := by
  cases texts with
  | nil => rfl
  | cons t texts => simp [listText]

/-- A link is written as its members in braces, with a blank between any two of them. -/
theorem Link.chars_writing (link : Link) : link.writing.chars = link.text := by
  have history : (link.history.map Writing.text).map Writing.chars = link.history.map quote := by
    rw [List.map_map]
    refine List.map_congr_left fun item _ => ?_
    simp [Writing.chars]
  simp only [Link.writing, Writing.chars, Writing.charsAll_eq, List.map_cons, List.map_nil, history,
    Bracket.opening, Bracket.closing, bracketText, listText_eq_joinWith]
  unfold Link.text
  cases link.segment <;>
    simp [listText, quoteList, joinWith, memberText, segmentWriting, Writing.chars]

theorem joinWith_singleton (sep t : List Char) : joinWith sep [t] = t := rfl

/-- Texts that start alike share their start with the separator. -/
theorem joinWith_map_append (sep lead t : List Char) (texts : List (List Char)) :
    joinWith sep ((t :: texts).map (lead ++ ·)) = lead ++ joinWith (sep ++ lead) (t :: texts) := by
  induction texts generalizing t with
  | nil => rfl
  | cons next texts ih =>
    have ih := ih next
    simp only [List.map_cons, joinWith, List.append_assoc] at ih ⊢
    rw [ih]

theorem registryChars_eq (links : List Link) :
    registryChars links = bracketText '\x7b' '\x7d' "\n  ".toList [] ['\n']
      [memberText "links" (bracketText '[' ']' "\n    ".toList "\n    ".toList "\n  ".toList
        (links.map Link.text))] := by
  cases links with
  | nil => rfl
  | cons link links =>
    have lines : (link :: links).map Link.line
        = (link.text :: links.map Link.text).map ("    ".toList ++ ·) := by
      unfold Link.line
      simp
    unfold registryChars linkLines
    rw [lines, joinWith_map_append]
    simp [bracketText, listText, memberText, joinWith_singleton]

/-- **A registry is written as its text says.** -/
theorem chars_registryWriting (links : List Link) :
    (registryWriting links).chars = registryChars links := by
  have lines : (links.map Link.writing).map Writing.chars = links.map Link.text := by
    rw [List.map_map]
    exact List.map_congr_left fun link _ => link.chars_writing
  rw [registryChars_eq]
  simp only [registryWriting, Writing.chars, Writing.charsAll_eq, List.map_cons, List.map_nil,
    lines, Bracket.opening, Bracket.closing]

theorem Link.valid_writing {link : Link} (h : link.OneLine) : link.writing.Valid := by
  have segment : (segmentWriting link.segment).Valid ∧
      (segmentWriting link.segment).isPair = false := by
    cases hsegment : link.segment with
    | none => exact ⟨.null, rfl⟩
    | some text => exact ⟨.text (h.segment text hsegment), rfl⟩
  have history : (Writing.list .square [] [' '] [] (link.history.map .text)).Valid := by
    refine .list rfl (by decide) rfl ?_ ?_
    · intro item hitem
      obtain ⟨text, -, rfl⟩ := List.mem_map.1 hitem
      rfl
    · intro item hitem
      obtain ⟨text, htext, rfl⟩ := List.mem_map.1 hitem
      exact .text (h.history text htext)
  refine .list (by decide) (by decide) (by decide) ?_ ?_
  · simp [Writing.isPair]
  · simp only [List.mem_cons, List.not_mem_nil, or_false, forall_eq_or_imp, forall_eq]
    exact ⟨.pair (by decide) rfl (.text h.loadChildren), .pair (by decide) rfl (.text h.name),
      .pair (by decide) segment.2 segment.1, .pair (by decide) rfl (.text h.priority),
      .pair (by decide) rfl history⟩

/-- A registry of texts without line ends is a literal of the language. -/
theorem valid_registryWriting {links : List Link} (h : ∀ link ∈ links, link.OneLine) :
    (registryWriting links).Valid := by
  have lines : (Writing.list .square "\n    ".toList "\n    ".toList "\n  ".toList
      (links.map Link.writing)).Valid := by
    refine .list (by decide) (by decide) (by decide) ?_ ?_
    · intro item hitem
      obtain ⟨link, -, rfl⟩ := List.mem_map.1 hitem
      rfl
    · intro item hitem
      obtain ⟨link, hlink, rfl⟩ := List.mem_map.1 hitem
      exact Link.valid_writing (h link hlink)
  refine .list (by decide) (by decide) (by decide) ?_ ?_
  · simp [Writing.isPair]
  · intro item hitem
    obtain rfl := List.mem_singleton.1 hitem
    exact .pair (by decide) rfl lines

end RouteTrim.Route
