import TypedClient.Command.Switch
import TypedClient.Text.Split

/-!
# Reading a command line

The words of a command line are read from left to right, level by level. A value may be
part of the word that names its switch; otherwise it is the next word, and it is looked
at only when the next switch appears or the level ends. A level is checked after the
levels below it.
-/

namespace TypedClient.Command

open Text

/-- Why a command line names no command: what is wrong with it, or what the user wants
to be told. -/
inductive UsageError where
  | helpWanted (level : Level)
  | versionWanted
  | nothingGiven (level : Level)
  | missingSubcommand (level : Level)
  | unknownSubcommand (name : String)
  | unknownArgument (word : String)
  | repeatedSwitch (switch : Switch)
  | unexpectedValue (switch : Switch)
  | invalidValue (switch : Switch)
  | missingSwitch (switch : Switch)
  deriving DecidableEq, Repr

/-- The switches given at one level, with their values. The value of a switch that takes
none is empty. -/
abbrev Given : Type := List (Switch × String)

/-- How far a level has been read: what was given, a switch whose value is still to be
looked at or still to come, and whether two dashes have ended the switches. -/
structure Reading where
  given : Given
  pending : Option (Switch × Option String)
  isClosed : Bool
  deriving DecidableEq, Repr

namespace Reading

def start : Reading :=
  ⟨[], none, false⟩

/-- Adds a switch that was not given before, with a value that it accepts. -/
def add (switch : Switch) (value : String) (reading : Reading) : Except UsageError Reading :=
  if (reading.given.lookup switch).isSome then
    .error (.repeatedSwitch switch)
  else if switch.accepts value then
    .ok { reading with given := reading.given ++ [(switch, value)] }
  else
    .error (.invalidValue switch)

/-- Looks at the value of the pending switch. -/
def settle (reading : Reading) : Except UsageError Reading :=
  match reading.pending with
  | none => .ok reading
  | some (switch, none) => .error (.invalidValue switch)
  | some (switch, some value) => { reading with pending := none }.add switch value

/-- Meets a switch that takes no value. -/
def meetFlag (level : Level) (switch : Switch) (reading : Reading) :
    Except UsageError Reading := do
  let settled ← reading.settle
  match switch with
  | .help => .error (.helpWanted level)
  | .version => .error .versionWanted
  | _ => settled.add switch ""

/-- Meets a switch that takes a value, with the value if it is part of the word. -/
def meetValued (switch : Switch) (value? : Option String) (reading : Reading) :
    Except UsageError Reading := do
  let settled ← reading.settle
  match value? with
  | some value => settled.add switch value
  | none => .ok { settled with pending := some (switch, none) }

/-- Meets a word with two dashes, `text` without them. A value follows an equals sign. -/
def meetLong (level : Level) (text : List Char) (reading : Reading) :
    Except UsageError Reading :=
  let (name, value?) :=
    match cutAtChar? '=' text with
    | some (name, value) => (name, some (String.ofList value))
    | none => (text, none)
  match level.long? name, value? with
  | none, _ => .error (.unknownArgument (String.ofList ('-' :: '-' :: name)))
  | some switch, value? =>
      if switch.takesValue then
        reading.meetValued switch value?
      else if value?.isSome then
        .error (.unexpectedValue switch)
      else
        reading.meetFlag level switch

/-- Meets the letters of a word with one dash. The text after the letter of a switch
that takes a value is the value, with or without an equals sign before it. -/
def meetShort (level : Level) : (letters : List Char) → Reading → Except UsageError Reading
  | [], reading => .ok reading
  | letter :: rest, reading =>
      match level.short? letter with
      | none => .error (.unknownArgument (String.ofList ['-', letter]))
      | some switch =>
          if switch.takesValue then
            match rest with
            | [] => reading.meetValued switch none
            | '=' :: value => reading.meetValued switch (some (String.ofList value))
            | value => reading.meetValued switch (some (String.ofList value))
          else do
            meetShort level rest (← reading.meetFlag level switch)

/-- Meets a word that starts with no dash, or is only a dash: the value that a switch
waits for, or a word too many. -/
def meetPlain (level : Level) (word : String) (reading : Reading) : Except UsageError Reading :=
  match reading.pending with
  | some (switch, none) => .ok { reading with pending := some (switch, some word) }
  | _ =>
      if level.hasSubcommands then
        .error (.unknownSubcommand word)
      else
        .error (.unknownArgument word)

/-- Meets a word after two dashes. The name of a subcommand is not one there. -/
def meetClosed (level : Level) (word : String) : Except UsageError Reading :=
  if level.hasSubcommands && (level.below? word).isNone && word != "help" then
    .error (.unknownSubcommand word)
  else
    .error (.unknownArgument word)

/-- Meets any word but the name of a subcommand. -/
def meet (level : Level) (word : String) (reading : Reading) : Except UsageError Reading :=
  if reading.isClosed then
    meetClosed level word
  else
    match word.toList with
    | ['-', '-'] => .ok { reading with isClosed := true }
    | '-' :: '-' :: text => reading.meetLong level text
    | '-' :: letter :: rest => reading.meetShort level (letter :: rest)
    | _ => reading.meetPlain level word

/-- Whether a subcommand may come next. -/
def isFree (reading : Reading) : Bool :=
  !reading.isClosed &&
    match reading.pending with
    | some (_, none) => false
    | _ => true

end Reading

/-- What a request for help asks for: the names lead from one level to the next. -/
def helpFor : Level → List String → UsageError
  | level, [] => .helpWanted level
  | level, name :: rest =>
      match level.below? name with
      | some next => helpFor next rest
      | none =>
          if level.hasSubcommands && name == "help" && rest.isEmpty then
            .helpWanted level
          else
            .unknownSubcommand name

/-- Reads the words of a level and of the levels below it. The lowest level is finished
by `finish`; what was given is kept for every level, the highest first. -/
def readLevel {α : Type} (finish : Level → Given → Except UsageError α) (level : Level)
    (reading : Reading) : List String → Except UsageError (α × List Given)
  | [] => do
      let settled ← reading.settle
      return (← finish level settled.given, [settled.given])
  | word :: rest =>
      match level.below? word with
      | some next =>
          if reading.isFree then do
            let (command, given) ← readLevel finish next .start rest
            return (command, (← reading.settle).given :: given)
          else do
            readLevel finish level (← reading.meet level word) rest
      | none =>
          if reading.isFree && level.hasSubcommands && word == "help" then
            .error (helpFor level rest)
          else do
            readLevel finish level (← reading.meet level word) rest

end TypedClient.Command
