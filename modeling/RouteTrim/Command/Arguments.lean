import RouteTrim.Text.Alphanumeric
import RouteTrim.Text.Search

/-!
# Command lines

A command line is read word by word. A word that starts with a dash is an option: by its full name,
by the start of a long name that no other option shares, or by a letter; a value may follow it in
the next word or behind `=`, and letters of options without values may stand together. Negative
numbers and words with a space are never options, and behind `--` nothing is.

Options of the program itself stand in front of the command's name, everything behind that name
belongs to the command. A request for help or for the version is answered as soon as it is read,
and so is an option without its value; words that nobody asked for are only complained about at
the end.
-/

set_option autoImplicit false

namespace RouteTrim.Command

open RouteTrim.Text (isDecimalDigit startsWith)

/-- An option. -/
inductive Flag where
  | help
  | version
  | root
  | config
  | verbose
  | aot
  | write
  deriving DecidableEq, Repr

namespace Flag

def long : Flag → List Char
  | help => "--help".toList
  | version => "--version".toList
  | root => "--root".toList
  | config => "--config".toList
  | verbose => "--verbose".toList
  | aot => "--aot".toList
  | write => "--write".toList

def letter? : Flag → Option Char
  | help => some 'h'
  | verbose => some 'v'
  | _ => none

def takesValue : Flag → Bool
  | root | config => true
  | _ => false

def ofLetter? (flags : List Flag) (letter : Char) : Option Flag :=
  flags.find? fun flag => flag.letter? == some letter

/-- The option that a word names in full. -/
def ofName? (flags : List Flag) (word : List Char) : Option Flag :=
  match word with
  | ['-', letter] => ofLetter? flags letter
  | _ => flags.find? fun flag => flag.long == word

end Flag

/-! ## Words -/

/-- What a word of a command line is. -/
inductive Word where
  | plain (text : List Char)
  /-- The first `--`. -/
  | dashes
  /-- An option, whether it was named by its letter, and what was written behind it. -/
  | option (flag : Flag) (byLetter : Bool) (attached : Option (List Char))
  /-- A word that looks like an option and is none. -/
  | unknown
  deriving DecidableEq, Repr

/-- Whether a word is a negative number. A line break may end it. -/
def isNegativeNumber : List Char → Bool
  | '-' :: number =>
    let number := if number.getLast? = some '\n' then number.dropLast else number
    match number.dropWhile isDecimalDigit with
    | [] => !number.isEmpty
    | '.' :: rest => !rest.isEmpty && rest.all isDecimalDigit
    | _ => false
  | _ => false

def cutValue (word : List Char) : List Char × Option (List Char) :=
  match word.dropWhile (· != '=') with
  | [] => (word, none)
  | _ :: value => (word.takeWhile (· != '='), some value)

def shortened (flags : List Flag) (word : List Char) : List Word :=
  match word with
  | '-' :: '-' :: _ =>
    let (front, value) := cutValue word
    (flags.filter fun flag => startsWith front flag.long).map fun flag => .option flag false value
  | '-' :: letter :: value =>
    (Flag.ofLetter? flags letter).toList.map fun flag => .option flag true (some value)
  | _ => []

/-- What a word with a dash in front is; nothing if it shortens several options. -/
def optionWord? (flags : List Flag) (word : List Char) : Option Word :=
  let isLetter : Bool := word.length == 2
  match Flag.ofName? flags word with
  | some flag => some (.option flag isLetter none)
  | none =>
    let (front, value) := cutValue word
    match value, Flag.ofName? flags front with
    | some value, some flag => some (.option flag (front.length == 2) (some value))
    | _, _ =>
      match shortened flags word with
      | [found] => some found
      | _ :: _ :: _ => none
      | [] => some (if isNegativeNumber word || word.contains ' ' then .plain word else .unknown)

/-- What the words of a command line are; nothing if one of them shortens several options. -/
def classify (flags : List Flag) : List (List Char) → Option (List Word)
  | [] => some []
  | word :: words =>
    if word = ['-', '-'] then some (.dashes :: words.map .plain)
    else do
      let found ←
        match word with
        | '-' :: _ :: _ => optionWord? flags word
        | _ => some (.plain word)
      return found :: (← classify flags words)

/-! ## Options -/

/-- What a command was asked for. -/
structure Options where
  root : String := "."
  config : Option String := none
  aot : Bool := false
  write : Bool := false
  /-- The dependency report, for the command that takes one. -/
  graph : Option String := none
  deriving DecidableEq, Repr

def Options.give (options : Options) (flag : Flag) (value : List Char) : Options :=
  match flag with
  | .root => { options with root := String.ofList value }
  | .config => { options with config := some (String.ofList value) }
  | .aot => { options with aot := true }
  | .write => { options with write := true }
  | _ => options

/-- Why a command line is answered without running a command. -/
inductive Stop where
  | help
  | version
  | misuse
  deriving DecidableEq, Repr

/-- What an option without a value does: it stops the reading or is given. -/
def apply (options : Options) (flag : Flag) : Except Stop Options :=
  match flag with
  | .help => .error .help
  | .version => .error .version
  | _ => .ok (options.give flag [])

/-- The options behind a letter that stands together with others. The last one may take what
follows it for its value. -/
def lettersOf (flags : List Flag) : List Char → Option (List (Flag × Option (List Char)))
  | [] => some []
  | letter :: rest =>
    match Flag.ofLetter? flags letter with
    | none => none
    | some flag =>
      if flag.takesValue then some [(flag, if rest.isEmpty then none else some rest)]
      else (lettersOf flags rest).map fun more => (flag, none) :: more

/-- The value that is written behind `=`. Two dashes there stand for no value. -/
def attachedValue (value : List Char) : List Char :=
  if value = ['-', '-'] then [] else value

/-- The options that one word gives, with their values. -/
def givenBy (flags : List Flag) (flag : Flag) (byLetter : Bool) (attached : Option (List Char)) :
    Option (List (Flag × Option (List Char))) :=
  match attached with
  | none => some [(flag, none)]
  | some value =>
    if flag.takesValue then some [(flag, some (attachedValue value))]
    else if byLetter && !value.isEmpty then
      (lettersOf flags value).map fun more => (flag, none) :: more
    else none

/-- Gives options one after the other; the last one may take its value from the words behind. -/
def giveAll (options : Options) :
    List (Flag × Option (List Char)) → List Word → Except Stop (Options × List Word)
  | [], words => .ok (options, words)
  | (flag, some value) :: more, words => giveAll (options.give flag value) more words
  | (flag, none) :: more, words =>
    if flag.takesValue then
      match words with
      | .plain value :: words => giveAll (options.give flag value) more words
      | _ => .error .misuse
    else do giveAll (← apply options flag) more words

/-! ## Commands -/

/-- The commands. -/
inductive Name where
  | deeplinks
  | treeshake
  deriving DecidableEq, Repr

def Name.ofWord? (word : List Char) : Option Name :=
  if word = "deeplinks".toList then some .deeplinks
  else if word = "treeshake".toList then some .treeshake
  else none

/-- The options of a command. -/
def Name.flags : Name → List Flag
  | deeplinks => [.help, .root, .config, .verbose, .aot, .write]
  | treeshake => [.help, .root, .config, .verbose, .write]

def Name.takesGraph : Name → Bool
  | treeshake => true
  | deeplinks => false

/-- Reads the words of a command. `surplus` tells whether a word was seen that nobody asked for.
Every round takes a word away, which the fuel counts. -/
def readWords (name : Name) : Nat → Options → Bool → List Word → Except Stop (Options × Bool)
  | 0, options, surplus, _ => .ok (options, surplus)
  | fuel + 1, options, surplus, words =>
    let needsGraph := name.takesGraph && options.graph.isNone
    match words with
    | [] => if needsGraph then .error .misuse else .ok (options, surplus)
    | .plain text :: rest =>
      if needsGraph then
        let rest := if rest.head? = some .dashes then rest.drop 1 else rest
        readWords name fuel { options with graph := some (String.ofList text) } surplus rest
      else readWords name fuel options true rest
    | .dashes :: rest =>
      if needsGraph && !rest.isEmpty then readWords name fuel options surplus rest
      else readWords name fuel options true rest
    | .unknown :: rest => readWords name fuel options true rest
    | .option flag byLetter attached :: rest =>
      match givenBy name.flags flag byLetter attached with
      | none => .error .misuse
      | some given => do
        let (options, rest) ← giveAll options given rest
        readWords name fuel options surplus rest

/-- What a command line asks for. -/
inductive Invocation where
  /-- No command at all. -/
  | nothing
  /-- An answer without running a command: that of the program, or that of a command. -/
  | stop (asked : Option Name) (reason : Stop)
  | command (name : Name) (options : Options)
  deriving DecidableEq, Repr

/-- What the words behind a command's name ask for. -/
def invoke (name : Name) (surplus : Bool) (words : List (List Char)) : Invocation :=
  match classify name.flags words with
  | none => .stop (some name) .misuse
  | some words =>
    match readWords name (words.length + 1) {} false words with
    | .error reason => .stop (some name) reason
    | .ok (options, more) =>
      if surplus || more then .stop none .misuse else .command name options

/-- The options of the program itself. -/
def programFlags : List Flag :=
  [.help, .version]

/-- Reads the words up to the command's name; `behind` holds the words behind each of them. -/
def readProgram (surplus : Bool) : List Word → List (List Char) → Invocation
  | [], _ => if surplus then .stop none .misuse else .nothing
  | word :: words, behind =>
    match word with
    | .plain text =>
      match Name.ofWord? text with
      | some name => invoke name surplus (behind.drop 1)
      | none => .stop none .misuse
    | .dashes => .stop none .misuse
    | .unknown => readProgram true words (behind.drop 1)
    | .option flag byLetter attached =>
      match givenBy programFlags flag byLetter attached with
      | none => .stop none .misuse
      | some given =>
        match giveAll {} given [] with
        | .error reason => .stop none reason
        | .ok _ => readProgram surplus words (behind.drop 1)

/-- What a command line asks for. -/
def readArguments (arguments : List String) : Invocation :=
  let words := arguments.map String.toList
  match classify programFlags words with
  | none => .stop none .misuse
  | some found => readProgram false found words

end RouteTrim.Command
