import ChainCoverage.CommandLine.Command

/-!
# Command-line arguments

The first word names a command; the words behind it are its arguments, read from the
left.  Options may stand anywhere among the other arguments, and behind a double hyphen
nothing is an option.

An argument is *pending* until the next argument is recognised or the words end; only
then its values are checked.  So an argument that nobody knows is reported before a bad
value in front of it, and a bad value is reported before a missing argument.

Main definitions:

- `Usage`: why a command line is no command, requests for help among them.
- `CommandShape`: the arguments a command takes.
- `Command.parse`: the command of a command line.
-/

namespace ChainCoverage

/-- Why a command line is no command. -/
inductive Usage where
  /-- Nothing is asked for. -/
  | nothing
  /-- Help is asked for. -/
  | help
  /-- The version is asked for. -/
  | version
  | unknownCommand
  | unknownArgument
  | missingArgument
  /-- An option stands without its value. -/
  | missingValue
  /-- A value does not parse. -/
  | badValue
  /-- An option is given twice. -/
  | repeatedOption
  /-- A value is given to an option that takes none. -/
  | surplusValue
deriving DecidableEq

/-! ## Values -/

/-- How the value of an argument is read. -/
inductive ValueShape where
  | word
  | halfWord
  | text
deriving DecidableEq

/-- The value of an argument. -/
inductive ArgumentValue where
  | word (value : UInt64)
  | halfWord (value : UInt32)
  | text (value : String)
deriving DecidableEq

/-- Reads a small count, for which a zero may have a minus sign. -/
def readCount? (text : List Char) : Option UInt32 :=
  match text with
  | '-' :: digits =>
    if digits.isEmpty || digits.any (· ≠ '0') then none else some 0
  | _ => (Unsigned.parseHalfWord text).toOption

/-- Reads the value of an argument. -/
def ValueShape.read? (shape : ValueShape) (written : String) : Option ArgumentValue :=
  match shape with
  | word => (Unsigned.word? written).map .word
  | halfWord => (readCount? written.toList).map .halfWord
  | text => some (.text written)

/-! ## Shapes -/

/-- An argument known by its place. -/
structure Positional where
  name : String
  shape : ValueShape
  /-- Whether it takes all values from its place on. -/
  repeats : Bool

/-- An argument known by its name; one without a shape for its value takes none. -/
structure NamedOption where
  long : String
  short : Option Char
  shape : Option ValueShape

/-- The values found for each argument. -/
abbrev Matches := List (String × List ArgumentValue)

namespace Matches

/-- Whether an argument was given. -/
def has (m : Matches) (name : String) : Bool :=
  (m.lookup name).isSome

/-- The word given for an argument. -/
def word? (m : Matches) (name : String) : Option UInt64 :=
  match m.lookup name with
  | some [.word value] => some value
  | _ => none

/-- The small count given for an argument. -/
def halfWord? (m : Matches) (name : String) : Option UInt32 :=
  match m.lookup name with
  | some [.halfWord value] => some value
  | _ => none

/-- The text given for an argument. -/
def text? (m : Matches) (name : String) : Option String :=
  match m.lookup name with
  | some [.text value] => some value
  | _ => none

/-- The texts given for an argument that repeats. -/
def texts? (m : Matches) (name : String) : Option (List String) :=
  (m.lookup name).map fun values => values.filterMap fun
    | .text value => some value
    | _ => none

end Matches

/-- A command by its names, the arguments it takes, and the command that their values make;
there is none when an argument without a default is missing. -/
structure CommandShape where
  name : String
  aliases : List String
  positionals : List Positional
  options : List NamedOption
  build : Matches → Option Command

namespace CommandShape

/-- The argument that names a network. -/
def networkArgument : Positional := ⟨"NETWORK", .text, false⟩

/-- The arguments that name blocks. -/
def blockArguments : Positional := ⟨"BLOCKS", .text, true⟩

/-- All commands. -/
def all : List CommandShape := [
  { name := "bucketize"
    aliases := []
    positionals := [⟨"TOTAL", .word, false⟩, ⟨"BUCKETS", .halfWord, false⟩]
    options := []
    build := fun m => do return .bucketize (← m.word? "TOTAL") (← m.halfWord? "BUCKETS") },
  { name := "plan"
    aliases := []
    positionals := [⟨"FROM", .word, false⟩, ⟨"TO", .word, false⟩,
      ⟨"WORKERS", .halfWord, false⟩]
    options := [⟨"force", none, none⟩, ⟨"log-level", none, some .text⟩]
    build := fun m => do
      let level := (m.text? "log-level").getD TaskOptions.defaultLogLevel
      return .plan (← m.word? "FROM") (← m.word? "TO") (← m.halfWord? "WORKERS")
        ⟨m.has "force", level⟩ },
  { name := "reconcile"
    aliases := ["r"]
    positionals := [networkArgument]
    options := [⟨"buckets", some 'b', some .halfWord⟩, ⟨"runs", none, none⟩]
    build := fun m => do
      return .reconcile (← m.text? "NETWORK") (m.halfWord? "buckets") (m.has "runs") },
  { name := "mark-indexed"
    aliases := []
    positionals := [networkArgument, blockArguments]
    options := []
    build := fun m => do return .markIndexed (← m.text? "NETWORK") (← m.texts? "BLOCKS") },
  { name := "unmark"
    aliases := []
    positionals := [networkArgument, blockArguments]
    options := []
    build := fun m => do return .unmark (← m.text? "NETWORK") (← m.texts? "BLOCKS") },
  { name := "set-latest"
    aliases := []
    positionals := [networkArgument, ⟨"BLOCK", .word, false⟩]
    options := []
    build := fun m => do return .setLatest (← m.text? "NETWORK") (← m.word? "BLOCK") },
  { name := "stats"
    aliases := []
    positionals := [networkArgument]
    options := []
    build := fun m => do return .stats (← m.text? "NETWORK") }]

/-- The command with a name. -/
def find? (word : String) : Option CommandShape :=
  all.find? fun shape => shape.name == word || shape.aliases.contains word

end CommandShape

/-! ## Words -/

/-- A word of the command line by its look. -/
inductive ArgumentWord where
  | doubleHyphen
  | long (name : String) (attached : Option String)
  | short (letter : Char) (attached : Option String)
  | plain (text : String)

namespace ArgumentWord

/-- The look of a word.  A single hyphen is a plain word. -/
def ofString (word : String) : ArgumentWord :=
  match word.toList with
  | ['-', '-'] => doubleHyphen
  | '-' :: '-' :: rest =>
    match rest.dropWhile (· ≠ '=') with
    | [] => long (String.ofList rest) none
    | _ :: value =>
      long (String.ofList (rest.takeWhile (· ≠ '='))) (some (String.ofList value))
  | ['-', letter] => short letter none
  | '-' :: letter :: '=' :: value => short letter (some (String.ofList value))
  | '-' :: letter :: value => short letter (some (String.ofList value))
  | _ => plain word

end ArgumentWord

/-- What the name of an option stands for. -/
inductive OptionUse where
  | help
  | version
  | named (option : NamedOption)

namespace OptionUse

/-- The option with a long name. -/
def ofLong? (options : List NamedOption) (name : String) : Option OptionUse :=
  if name = "help" then some help
  else if name = "version" then some version
  else (options.find? (·.long == name)).map named

/-- The option with a letter. -/
def ofShort? (options : List NamedOption) (letter : Char) : Option OptionUse :=
  if letter = 'h' then some help
  else if letter = 'V' then some version
  else (options.find? (·.short == some letter)).map named

end OptionUse

/-! ## The arguments of one command -/

/-- An argument whose values are not checked yet. -/
structure PendingArgument where
  name : String
  shape : ValueShape
  values : List String

/-- How far the arguments of a command have been read. -/
structure ArgumentReading where
  found : Matches
  pending : Option PendingArgument
  /-- Whether the next plain word is the value of the pending option. -/
  awaitsValue : Bool
  /-- Whether a double hyphen has been read. -/
  onlyPlain : Bool
  /-- The arguments known by their place that are still to come. -/
  rest : List Positional

namespace ArgumentReading

/-- Before the first word. -/
def start (shape : CommandShape) : ArgumentReading :=
  ⟨[], none, false, false, shape.positionals⟩

/-- Takes the values of an argument: there must be one, the argument must be new, and all values
must parse. -/
def accept (r : ArgumentReading) (argument : PendingArgument) :
    Except Usage ArgumentReading :=
  if argument.values.isEmpty then
    .error .missingValue
  else if r.found.has argument.name then
    .error .repeatedOption
  else
    match argument.values.mapM argument.shape.read? with
    | none => .error .badValue
    | some values => .ok { r with found := r.found ++ [(argument.name, values)] }

/-- Takes the pending argument, if there is one. -/
def settle (r : ArgumentReading) : Except Usage ArgumentReading :=
  match r.pending with
  | none => .ok r
  | some argument => { r with pending := none, awaitsValue := false }.accept argument

/-- Reads an option that takes no value. -/
def takeFlag (r : ArgumentReading) (name : String) : Except Usage ArgumentReading := do
  let r ← r.settle
  if r.found.has name then
    .error .repeatedOption
  else
    return { r with found := r.found ++ [(name, [])] }

/-- Reads an option that takes a value, which may be attached to it. -/
def takeOption (r : ArgumentReading) (name : String) (shape : ValueShape) :
    (attached : Option String) → Except Usage ArgumentReading
  | some value => do (← r.settle).accept ⟨name, shape, [value]⟩
  | none => do
    let r ← r.settle
    return { r with pending := some ⟨name, shape, []⟩, awaitsValue := true }

/-- Ends the reading with an answer that takes no value; the pending argument comes first. -/
def stopWith (r : ArgumentReading) (answer : Usage) : Except Usage ArgumentReading := do
  let _ ← r.settle
  .error answer

/-- Reads an option by its long name. -/
def takeLong (options : List NamedOption) (r : ArgumentReading) (name : String)
    (attached : Option String) : Except Usage ArgumentReading :=
  match OptionUse.ofLong? options name, attached with
  | none, _ => .error .unknownArgument
  | some (.named ⟨_, _, some shape⟩), _ => r.takeOption name shape attached
  | some _, some _ => .error .surplusValue
  | some .help, none => r.stopWith .help
  | some .version, none => r.stopWith .version
  | some (.named ⟨_, _, none⟩), none => r.takeFlag name

/-- Reads an option by its letter.  No option of a command without a value has a letter, so what
stands behind a letter is its value. -/
def takeShort (options : List NamedOption) (r : ArgumentReading) (letter : Char)
    (attached : Option String) : Except Usage ArgumentReading :=
  match OptionUse.ofShort? options letter with
  | none => .error .unknownArgument
  | some .help => r.stopWith .help
  | some .version => r.stopWith .version
  | some (.named ⟨name, _, some shape⟩) => r.takeOption name shape attached
  | some (.named ⟨name, _, none⟩) => r.takeFlag name

/-- Reads an argument known by its place. -/
def takePlain (r : ArgumentReading) (word : String) : Except Usage ArgumentReading :=
  match r.rest with
  | [] => .error .unknownArgument
  | argument :: rest =>
    match argument.repeats, r.pending with
    | true, some ⟨name, shape, values⟩ =>
      if name = argument.name then
        .ok { r with pending := some ⟨name, shape, values ++ [word]⟩ }
      else do
        let r ← r.settle
        return { r with pending := some ⟨argument.name, argument.shape, [word]⟩ }
    | true, none =>
      .ok { r with pending := some ⟨argument.name, argument.shape, [word]⟩ }
    | false, _ => do
      let r ← r.settle
      return { r with pending := some ⟨argument.name, argument.shape, [word]⟩, rest := rest }

/-- Reads a plain word: the value of the pending option, or an argument of its own. -/
def takeWord (r : ArgumentReading) (word : String) : Except Usage ArgumentReading :=
  match r.awaitsValue, r.pending with
  | true, some argument =>
    .ok { r with
      pending := some { argument with values := [word] }
      awaitsValue := false }
  | _, _ => r.takePlain word

/-- Reads one word. -/
def step (options : List NamedOption) (r : ArgumentReading) (word : String) :
    Except Usage ArgumentReading :=
  if r.onlyPlain then
    r.takePlain word
  else
    match ArgumentWord.ofString word with
    | .doubleHyphen => .ok { r with onlyPlain := true }
    | .long name attached => r.takeLong options name attached
    | .short letter attached => r.takeShort options letter attached
    | .plain _ => r.takeWord word

end ArgumentReading

namespace CommandShape

/-- The command with these arguments. -/
def parse (shape : CommandShape) (words : List String) : Except Usage Command := do
  let reading ← words.foldlM (ArgumentReading.step shape.options) (.start shape)
  let reading ← reading.settle
  match shape.build reading.found with
  | some command => return command
  | none => .error .missingArgument

end CommandShape

/-! ## The whole command line -/

namespace Command

/-- The word that asks for help. -/
def helpWord : String := "help"

/-- Whether a word names a command, or asks for help. -/
def isCommandWord (word : String) : Bool :=
  word == helpWord || (CommandShape.find? word).isSome

/-- The answer to a request for help on a command, if any. -/
def helpOn : List String → Usage
  | [] => .help
  | [word] => if isCommandWord word then .help else .unknownCommand
  | _ => .unknownCommand

/-- The answer to a first word that is an option. -/
def leadingOption (use : Option OptionUse) (attached : Bool) : Usage :=
  match use, attached with
  | some .help, false => .help
  | some .version, false => .version
  | some _, true => .surplusValue
  | _, _ => .unknownArgument

/-- The command of a command line. -/
def parse : List String → Except Usage Command
  | [] => .error .nothing
  | word :: words =>
    match ArgumentWord.ofString word with
    | .doubleHyphen =>
      match words with
      | [] => .error .nothing
      | next :: _ => .error (if isCommandWord next then .unknownArgument else .unknownCommand)
    | .long name attached =>
      .error (leadingOption (OptionUse.ofLong? [] name) attached.isSome)
    | .short letter _ => .error (leadingOption (OptionUse.ofShort? [] letter) false)
    | .plain _ =>
      if word = helpWord then
        .error (helpOn words)
      else
        match CommandShape.find? word with
        | some shape => shape.parse words
        | none => .error .unknownCommand

end Command
end ChainCoverage
