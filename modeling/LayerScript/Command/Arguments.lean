/-
`Command/Arguments.lean` -- reading a command line.

The arguments are read once, from left to right, on two levels: what stands before
the name of the command belongs to the program, what follows it to the command. On
each level an argument is an option if it begins with a dash and is more than one,
until two dashes alone end the options; all else is a name or a payload.

The value of an option may be attached with an equals sign and is then looked at
at once. A value that stands in the next argument is looked at when the next known
option or payload comes, or the level ends, so of two faults the later one may be
the one that is reported.
-/
import LayerScript.Command

set_option autoImplicit false

namespace LayerScript

/-! ## 1. Refusals -/

/-- Why a command line is not carried out: it asks for an explanation instead, or cannot be
understood. -/
inductive Refusal where
  | help
  | version
  | helpForNothing
  | unknownCommand
  | missingCommand
  | unknownArgument
  | missingPayload
  | invalidValue
  | givenTwice
  | unexpectedValue
deriving DecidableEq, Repr

/-- The exit status of a refusal: an explanation that was asked for is a success. -/
def Refusal.exit : Refusal → Nat
  | .help => 0
  | .version => 0
  | _ => 2

/-! ## 2. Options and commands -/

/-- An option. -/
inductive Flag where
  | help
  | version
  | json
  | settings
  | user
  | unreachable
  | outDir
  | interpreter
  | script
  | address
deriving DecidableEq, Repr

namespace Flag

/-- The name of an option, which two dashes stand before. -/
def name : Flag → String
  | .help => "help"
  | .version => "version"
  | .json => "json"
  | .settings => "settings"
  | .user => "user"
  | .unreachable => "unreachable"
  | .outDir => "out-dir"
  | .interpreter => "python"
  | .script => "artifact"
  | .address => "trainer-url"

/-- The letter of an option, which one dash stands before. -/
def letter? : Flag → Option Char
  | .help => some 'h'
  | .version => some 'V'
  | _ => none

/-- Whether an option has a value. -/
def takesValue : Flag → Bool
  | .help => false
  | .version => false
  | .json => false
  | _ => true

end Flag

/-- The name of a command. -/
inductive CommandName where
  | compile
  | train
  | emit
  | order
  | trainBody
  | submit
  | layers
deriving DecidableEq, Repr

namespace CommandName

/-- The commands by name. -/
def byName : List (String × CommandName) :=
  [("compile", compile), ("train", train), ("emit", emit), ("order", order),
    ("train-body", trainBody), ("submit", submit), ("layers", layers)]

/-- The options of a command, besides those that every command has. -/
def ownFlags : CommandName → List Flag
  | .compile => [.user, .unreachable, .outDir]
  | .train => [.user, .unreachable, .outDir, .interpreter]
  | .emit => [.user, .unreachable, .script]
  | .order => [.unreachable]
  | .trainBody => [.user]
  | .submit => [.user, .address]
  | .layers => []

/-- Whether a command works on a payload. -/
def takesPayload : CommandName → Bool
  | .layers => false
  | _ => true

end CommandName

/-- The word that asks for an explanation where a command could stand. -/
def helpWord : String := "help"

/-- A level of the command line: that of the program, or that of a command. -/
inductive CommandLevel where
  | program
  | command (name : CommandName)
deriving DecidableEq, Repr

namespace CommandLevel

/-- The options of a level. -/
def flags : CommandLevel → List Flag
  | .program => [.help, .version, .json, .settings]
  | .command name => [.help, .json, .settings] ++ name.ownFlags

/-- The option of a level that has a name. -/
def flag? (level : CommandLevel) (name : String) : Option Flag :=
  level.flags.find? fun f => f.name == name

/-- The option of a level that has a letter. -/
def flagOfLetter? (level : CommandLevel) (letter : Char) : Option Flag :=
  level.flags.find? fun f => f.letter? == some letter

end CommandLevel

/-! ## 3. Values -/

/-- The options that were given, with their values. -/
structure Given where
  json : Bool := false
  settings : Option String := none
  user : Option String := none
  unreachable : Option Policy := none
  outDir : Option String := none
  interpreter : Option String := none
  script : Option ScriptName := none
  address : Option String := none
deriving DecidableEq, Repr

/-- A value of an option that was not given before. That it was is noticed before the
value is looked at. -/
def once {α : Type} (old : Option α) (value : Option α) : Except Refusal (Option α) :=
  match old, value with
  | some _, _ => .error .givenTwice
  | none, none => .error .invalidValue
  | none, some a => .ok (some a)

/-- A path, which may not be empty. -/
def pathValue (value : String) : Option String :=
  if value.isEmpty then none else some value

/-- The scripts by the names that an option knows them by. -/
def ScriptName.byName : List (String × ScriptName) :=
  [(model.stem, model), (train.stem, train)]

namespace Given

/-- Takes an option with its value. -/
def take (g : Given) (f : Flag) (value : String) : Except Refusal Given :=
  match f with
  | .settings => do return { g with settings := ← once g.settings (pathValue value) }
  | .user => do return { g with user := ← once g.user (some value) }
  | .unreachable => do
    return { g with unreachable := ← once g.unreachable (Policy.byName.lookup value) }
  | .outDir => do return { g with outDir := ← once g.outDir (pathValue value) }
  | .interpreter => do return { g with interpreter := ← once g.interpreter (some value) }
  | .script => do return { g with script := ← once g.script (ScriptName.byName.lookup value) }
  | .address => do return { g with address := ← once g.address (some value) }
  | _ => .ok g

/-- Takes an option without a value. Two of them end the reading at once. -/
def raise (g : Given) : Flag → Except Refusal Given
  | .help => .error .help
  | .version => .error .version
  | .json => if g.json then .error .givenTwice else .ok { g with json := true }
  | _ => .ok g

end Given

/-! ## 4. Arguments -/

/-- An argument by its looks. -/
inductive Word where
  /-- Two dashes alone. -/
  | separator
  | long (name : String) (attached : Option String)
  /-- The first of the letters behind a single dash. -/
  | short (letter : Char)
  | plain
deriving DecidableEq, Repr

/-- What stands behind the first equals sign, if there is one. -/
def attachedValue (s : List Char) : Option String :=
  match s.dropWhile (· ≠ '=') with
  | [] => none
  | _ :: value => some (String.ofList value)

/-- Tells an argument by its looks. -/
def Word.ofText (argument : String) : Word :=
  match argument.toList with
  | ['-', '-'] => .separator
  | '-' :: '-' :: rest => .long (String.ofList (rest.takeWhile (· ≠ '='))) (attachedValue rest)
  | '-' :: letter :: _ => .short letter
  | _ => .plain

/-- What has been read of a level. -/
structure Reading where
  given : Given := {}
  payload : Option String := none
  /-- The last option, while its value is still to come or was not yet looked at. -/
  pending : Option (Flag × Option String) := none
deriving DecidableEq, Repr

namespace Reading

/-- Looks at the value of the last option. -/
def settle (r : Reading) : Except Refusal Reading :=
  match r.pending with
  | none => .ok r
  | some (_, none) => .error .invalidValue
  | some (f, some value) => do
    let given ← r.given.take f value
    .ok { r with given := given, pending := none }

/-- Whether the next argument may be the value of the last option. -/
def wantsValue (r : Reading) : Bool :=
  match r.pending with
  | some (_, none) => true
  | _ => false

/-- Reads a known option. -/
def option (r : Reading) (f : Flag) (attached : Option String) : Except Refusal Reading :=
  match f.takesValue, attached with
  | false, some _ => .error .unexpectedValue
  | false, none => do
    let r ← r.settle
    let given ← r.given.raise f
    .ok { r with given := given }
  | true, some value => do
    let r ← r.settle
    let given ← r.given.take f value
    .ok { r with given := given }
  | true, none => do
    let r ← r.settle
    .ok { r with pending := some (f, none) }

/-- Reads a name or a payload, once it is no value of an option. Of a name on the level of
the program it is already known that it is no command. -/
def word (r : Reading) (level : CommandLevel) (argument : String) : Except Refusal Reading :=
  match level, r.payload with
  | .program, _ => .error .unknownCommand
  | .command _, some _ => .error .unknownArgument
  | .command name, none =>
    if name.takesPayload then do
      let r ← r.settle
      .ok { r with payload := some argument }
    else .error .unknownArgument

/-- Whether an argument is the name of a command. -/
def isCommand (argument : String) : Bool :=
  argument == helpWord || (CommandName.byName.lookup argument).isSome

/-- Reads what follows two dashes alone. A command may not be named there. -/
def rest (level : CommandLevel) (r : Reading) : List String → Except Refusal Reading
  | [] => .ok r
  | argument :: more =>
    if level = .program ∧ isCommand argument then .error .unknownArgument
    else do
      let r ← r.word level argument
      rest level r more

/-- Reads a level: everything up to its end, or up to the name of a command, which is
returned with the arguments that follow it. -/
def level (l : CommandLevel) (r : Reading) :
    List String → Except Refusal (Reading × Option (String × List String))
  | [] => .ok (r, none)
  | argument :: more =>
    if l = .program ∧ !r.wantsValue ∧ isCommand argument then .ok (r, some (argument, more))
    else
      match Word.ofText argument with
      | .separator => do
        let r ← rest l r more
        .ok (r, none)
      | .long name attached =>
        match l.flag? name with
        | none => .error .unknownArgument
        | some f => do
          let r ← r.option f attached
          level l r more
      | .short letter =>
        match l.flagOfLetter? letter with
        | none => .error .unknownArgument
        | some f => do
          let r ← r.option f none
          level l r more
      | .plain =>
        match r.pending with
        | some (f, none) => level l { r with pending := some (f, some argument) } more
        | _ => do
          let r ← r.word l argument
          level l r more

end Reading

/-! ## 5. Command lines -/

/-- The answer to a request for an explanation: the words behind it name a command, of
which there is only one level. -/
def helpRefusal : List String → Refusal
  | [] => .help
  | [name] => if Reading.isCommand name then .help else .unknownCommand
  | _ => .unknownCommand

/-- The command with a name, from the options and the payload that it was given. -/
def CommandName.command (name : CommandName) (g : Given) (payload : String) : Command :=
  let target : Target := ⟨payload, g.user, g.unreachable⟩
  match name with
  | .compile => .compile target g.outDir
  | .train => .train target g.outDir g.interpreter
  | .emit => .emit target (g.script.getD .model)
  | .order => .order payload g.unreachable
  | .trainBody => .trainBody payload g.user
  | .submit => .submit payload g.user g.address
  | .layers => .layers

/-- Reads the level of a command: its options and its payload. -/
def CommandName.read (name : CommandName) (arguments : List String) :
    Except Refusal (Given × String) := do
  let (r, _) ← Reading.level (.command name) {} arguments
  let r ← r.settle
  match r.payload with
  | some payload => .ok (r.given, payload)
  | none => if name.takesPayload then .error .missingPayload else .ok (r.given, "")

/-- Reads a command line. An option that both levels have may be given on both, and the
one that stands behind the name of the command counts. -/
def Invocation.ofArguments (arguments : List String) : Except Refusal Invocation := do
  let (r, command) ← Reading.level .program {} arguments
  match command with
  | none => do
    let r ← r.settle
    .error (if r.given = {} then .helpForNothing else .missingCommand)
  | some (word, rest) =>
    match CommandName.byName.lookup word with
    | none => .error (helpRefusal rest)
    | some name => do
      let (given, payload) ← name.read rest
      let r ← r.settle
      .ok {
        json := r.given.json || given.json
        settings := given.settings <|> r.given.settings
        command := name.command given payload
      }

end LayerScript
