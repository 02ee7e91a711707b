import RouteTrim.Yaml.Token

/-!
# Documents of YAML

The tokens of a text as one tree of scalars, sequences and mappings. A place where a node could
stand and none does counts as an empty plain scalar. A text holds at most one document.

Each function reads from the front of the tokens and gives what it read with the tokens behind it.
Every second call takes a token away, so twice the number of tokens is fuel enough.
-/

set_option autoImplicit false

namespace RouteTrim.Yaml

/-- A node of a document. -/
inductive Node where
  | scalar (text : String) (plain : Bool)
  | sequence (items : List Node)
  | mapping (entries : List (Node × Node))
  deriving Repr, Inhabited

namespace Node

/-- The node that stands where nothing is written. -/
def empty : Node :=
  scalar "" true

/-- Whether the next token is none of the given ones; the end of the text is never one of them. -/
def startsNode (stops : List Token) : List Token → Bool
  | [] => true
  | token :: _ => !stops.contains token

mutual

/-- A node. In a block one a block collection may begin; as a value of a mapping a sequence may
stand without indentation of its own. -/
def read (fuel : Nat) (inBlock bareSequence : Bool) (tokens : List Token) :
    Option (Node × List Token) :=
  match fuel with
  | 0 => none
  | fuel + 1 =>
    match tokens with
    | .scalar text plain :: rest => some (scalar text plain, rest)
    | .flowSequenceStart :: rest =>
      (readFlowItems fuel true rest).map fun (items, rest) => (sequence items, rest)
    | .flowMappingStart :: rest =>
      (readFlowEntries fuel true rest).map fun (entries, rest) => (mapping entries, rest)
    | .blockEntry :: _ =>
      if bareSequence then
        (readBareItems fuel tokens).map fun (items, rest) => (sequence items, rest)
      else none
    | .blockSequenceStart :: rest =>
      if inBlock then
        (readItems fuel rest).map fun (items, rest) => (sequence items, rest)
      else none
    | .blockMappingStart :: rest =>
      if inBlock then
        (readEntries fuel rest).map fun (entries, rest) => (mapping entries, rest)
      else none
    | _ => none

def readOrEmpty (fuel : Nat) (inBlock bareSequence : Bool) (stops tokens : List Token) :
    Option (Node × List Token) :=
  match fuel with
  | 0 => none
  | fuel + 1 =>
    if startsNode stops tokens then read fuel inBlock bareSequence tokens
    else some (empty, tokens)

/-- The items of a block sequence and its end. -/
def readItems (fuel : Nat) (tokens : List Token) : Option (List Node × List Token) :=
  match fuel with
  | 0 => none
  | fuel + 1 =>
    match tokens with
    | .blockEntry :: rest => do
      let (item, rest) ← readOrEmpty fuel true false [.blockEntry, .blockEnd] rest
      let (items, rest) ← readItems fuel rest
      return (item :: items, rest)
    | .blockEnd :: rest => some ([], rest)
    | _ => none

/-- The items of a sequence without indentation, which has no end of its own. -/
def readBareItems (fuel : Nat) (tokens : List Token) : Option (List Node × List Token) :=
  match fuel with
  | 0 => none
  | fuel + 1 =>
    match tokens with
    | .blockEntry :: rest => do
      let (item, rest) ← readOrEmpty fuel true false [.blockEntry, .key, .value, .blockEnd] rest
      let (items, rest) ← readBareItems fuel rest
      return (item :: items, rest)
    | _ => some ([], tokens)

/-- The entries of a block mapping and its end. -/
def readEntries (fuel : Nat) (tokens : List Token) :
    Option (List (Node × Node) × List Token) :=
  match fuel with
  | 0 => none
  | fuel + 1 =>
    match tokens with
    | .key :: rest => do
      let (key, rest) ← readOrEmpty fuel true true [.key, .value, .blockEnd] rest
      let (value, rest) ←
        match rest with
        | .value :: rest => readOrEmpty fuel true true [.key, .value, .blockEnd] rest
        | _ => some (empty, rest)
      let (entries, rest) ← readEntries fuel rest
      return ((key, value) :: entries, rest)
    | .blockEnd :: rest => some ([], rest)
    | _ => none

/-- The items of a flow sequence and its end. An item may be a single entry of a mapping. -/
def readFlowItems (fuel : Nat) (first : Bool) (tokens : List Token) :
    Option (List Node × List Token) :=
  match fuel with
  | 0 => none
  | fuel + 1 => do
    if tokens.head? = some .flowSequenceEnd then return ([], tokens.drop 1)
    let tokens ← readComma first tokens
    match tokens with
    | .flowSequenceEnd :: rest => return ([], rest)
    | .key :: rest =>
      let (key, rest) ←
        readOrEmpty fuel false false [.value, .flowEntry, .flowSequenceEnd] rest
      let (value, rest) ←
        match rest with
        | .value :: rest => readOrEmpty fuel false false [.flowEntry, .flowSequenceEnd] rest
        | _ => some (empty, rest)
      let (items, rest) ← readFlowItems fuel false rest
      return (mapping [(key, value)] :: items, rest)
    | _ =>
      let (item, rest) ← read fuel false false tokens
      let (items, rest) ← readFlowItems fuel false rest
      return (item :: items, rest)

/-- The entries of a flow mapping and its end. A node without a colon is a key of nothing. -/
def readFlowEntries (fuel : Nat) (first : Bool) (tokens : List Token) :
    Option (List (Node × Node) × List Token) :=
  match fuel with
  | 0 => none
  | fuel + 1 => do
    if tokens.head? = some .flowMappingEnd then return ([], tokens.drop 1)
    let tokens ← readComma first tokens
    match tokens with
    | .flowMappingEnd :: rest => return ([], rest)
    | .key :: rest =>
      let (key, rest) ←
        readOrEmpty fuel false false [.value, .flowEntry, .flowMappingEnd] rest
      let (value, rest) ←
        match rest with
        | .value :: rest => readOrEmpty fuel false false [.flowEntry, .flowMappingEnd] rest
        | _ => some (empty, rest)
      let (entries, rest) ← readFlowEntries fuel false rest
      return ((key, value) :: entries, rest)
    | _ =>
      let (key, rest) ← read fuel false false tokens
      let (entries, rest) ← readFlowEntries fuel false rest
      return ((key, empty) :: entries, rest)

/-- The comma in front of every item but the first. -/
def readComma (first : Bool) (tokens : List Token) : Option (List Token) :=
  if first then some tokens
  else
    match tokens with
    | .flowEntry :: rest => some rest
    | _ => none

end

/-- Whether directives may stand in front of one document: at most one tells the version, and that
is a version 1. -/
def directivesFit (directives : List Token) : Bool :=
  let versions := directives.filterMap fun token =>
    match token with
    | .directive version => version
    | _ => none
  versions.length ≤ 1 && versions.all (· == 1)

def isDirective : Token → Bool
  | .directive _ => true
  | _ => false

/-- The document at the front of the tokens, which starts with a mark. -/
def readMarked (tokens : List Token) : Option (Node × List Token) := do
  let directives := tokens.takeWhile isDirective
  if !directivesFit directives then none
  match tokens.dropWhile isDirective with
  | .documentStart :: rest =>
    let isEnd : Bool :=
      match rest with
      | [] => true
      | token :: _ => isDirective token || token == .documentStart || token == .documentEnd
    if isEnd then return (empty, rest) else read (2 * rest.length + 2) true false rest
  | _ => none

/-- The one document of a text; a text without any has none. -/
def ofTokens? (tokens : List Token) : Option (Option Node) := do
  match tokens with
  | [] => return none
  | token :: _ =>
    let marked := isDirective token || token == .documentStart
    let (node, rest) ←
      if marked then readMarked tokens else read (2 * tokens.length + 2) true false tokens
    if (rest.dropWhile (· == .documentEnd)).isEmpty then return node else none

end Node

end RouteTrim.Yaml
