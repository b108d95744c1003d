import StreamTyping.Graph.Propagation

/-!
# Command line options

`Options.parse` reads the arguments of the command from left to right. The
first problem, or the first request for help or for the version, decides.

* An option takes its value from the same argument or from the next one. A
  next argument that looks like an option is no value.
* No option may be given twice, and exactly one argument names the event file.
* After `--` every argument is a file name, and so is a single `-`.
-/

namespace StreamTyping

/-- What the command writes. -/
inductive Emit where
  | report
  | dot
  | summary
deriving DecidableEq, Repr

/-- What the command is asked to do. -/
structure Options where
  events : String
  output : String := "streams_types.json"
  emit : Emit := .report
  order : Order := .lifo
  verbose : Bool := false
deriving DecidableEq, Repr

/-- What is wrong with the arguments. -/
inductive UsageError where
  | unknownOption (argument : String)
  | repeatedOption (option : String)
  | missingValue (option : String)
  | invalidValue (option value : String)
  /-- An option that takes no value is given one. -/
  | unexpectedValue (option value : String)
  | extraArgument (argument : String)
  | missingEvents
deriving DecidableEq, Repr

/-- Why the command ends before it starts. -/
inductive Halt where
  | help
  | longHelp
  | version
  | usage (error : UsageError)
deriving DecidableEq, Repr

/-- The text of a usage error. -/
def UsageError.message : UsageError → String
  | unknownOption argument => s!"unexpected argument '{argument}' found"
  | repeatedOption option => s!"the argument '{option}' cannot be used multiple times"
  | missingValue option => s!"a value is required for '{option}' but none was supplied"
  | invalidValue option value => s!"invalid value '{value}' for '{option}'"
  | unexpectedValue option value => s!"unexpected value '{value}' for '{option}' found"
  | extraArgument argument => s!"unexpected argument '{argument}' found"
  | missingEvents => "the following required arguments were not provided: <EVENTS>"

/-- The arguments read so far. -/
structure OptionsDraft where
  events : Option String := none
  output : Option String := none
  emit : Option Emit := none
  order : Option Order := none
  verbose : Bool := false
deriving DecidableEq, Repr

/-- The options that take a value. -/
inductive ValueOption where
  | output
  | emit
  | order
deriving DecidableEq, Repr

/-- The name of an option. -/
def ValueOption.name : ValueOption → String
  | output => "--output"
  | emit => "--emit"
  | order => "--order"

namespace OptionsDraft

/-- The option has been given. -/
def has (d : OptionsDraft) : ValueOption → Bool
  | .output => d.output.isSome
  | .emit => d.emit.isSome
  | .order => d.order.isSome

/-- The value is not one of the option. -/
def refuse (option : ValueOption) (value : String) : Except Halt OptionsDraft :=
  .error (.usage (.invalidValue option.name value))

/-- Stores the value of an option that may not have been given before. -/
def set (d : OptionsDraft) (option : ValueOption) (value : String) : Except Halt OptionsDraft :=
  if d.has option then .error (.usage (.repeatedOption option.name))
  else
    match option with
    | .output =>
      if value = "" then refuse option value else .ok { d with output := some value }
    | .emit =>
      if value = "report" then .ok { d with emit := some .report }
      else if value = "dot" then .ok { d with emit := some .dot }
      else if value = "summary" then .ok { d with emit := some .summary }
      else refuse option value
    | .order =>
      if value = "lifo" then .ok { d with order := some .lifo }
      else if value = "fifo" then .ok { d with order := some .fifo }
      else refuse option value

/-- Asks for all entries of the log. -/
def setVerbose (d : OptionsDraft) : Except Halt OptionsDraft :=
  if d.verbose then .error (.usage (.repeatedOption "--verbose"))
  else .ok { d with verbose := true }

/-- Stores the name of the event file. -/
def setEvents (d : OptionsDraft) (argument : String) : Except Halt OptionsDraft :=
  if d.events.isSome then .error (.usage (.extraArgument argument))
  else if argument = "" then .error (.usage (.missingValue "<EVENTS>"))
  else .ok { d with events := some argument }

/-- The options, if the event file has been named. -/
def finish (d : OptionsDraft) : Except Halt Options :=
  match d.events with
  | none => .error (.usage .missingEvents)
  | some events =>
    .ok
      { events
        output := d.output.getD "streams_types.json"
        emit := d.emit.getD .report
        order := d.order.getD .lifo
        verbose := d.verbose }

end OptionsDraft

/-- What a single argument says. -/
inductive Word where
  | operand (text : String)
  /-- The mark after which no options come. -/
  | endOfOptions
  /-- An option that takes a value, with its value if that is in the same argument. -/
  | option (option : ValueOption) (value : Option String)
  | verbose
  | halt (reason : Halt)
deriving DecidableEq, Repr

namespace Word

/-- The two sides of the first equals sign. -/
def splitEquals : List Char → List Char × Option (List Char)
  | [] => ([], none)
  | c :: cs =>
    if c = '=' then ([], some cs)
    else
      let (name, value) := splitEquals cs
      (c :: name, value)

/-- An option without a value; `value` is one that is given nevertheless. -/
def flag (name : String) (value : Option String) (word : Word) : Word :=
  match value with
  | none => word
  | some v => halt (.usage (.unexpectedValue name v))

/-- An argument that starts with two dashes, without them. -/
def ofLong (cs : List Char) : Word :=
  let (name, value) := splitEquals cs
  let name := String.ofList name
  let value := value.map String.ofList
  if name = "output" then option .output value
  else if name = "emit" then option .emit value
  else if name = "order" then option .order value
  else if name = "verbose" then flag "--verbose" value verbose
  else if name = "help" then flag "--help" value (halt .longHelp)
  else if name = "version" then flag "--version" value (halt .version)
  else halt (.usage (.unknownOption (String.ofList ('-' :: '-' :: cs))))

/-- An argument that starts with one dash, without it. The value of `-o` may follow
at once, also after an equals sign. -/
def ofShort : List Char → Word
  | ['o'] => option .output none
  | 'o' :: '=' :: value => option .output (some (String.ofList value))
  | 'o' :: value => option .output (some (String.ofList value))
  | 'h' :: _ => halt .help
  | 'V' :: _ => halt .version
  | cs => halt (.usage (.unknownOption (String.ofList ('-' :: cs))))

/-- What an argument says by itself. -/
def ofArgument (argument : String) : Word :=
  match argument.toList with
  | ['-'] => operand argument
  | ['-', '-'] => endOfOptions
  | '-' :: '-' :: cs => ofLong cs
  | '-' :: cs => ofShort cs
  | _ => operand argument

end Word

namespace Options

/-- Reads the arguments one after another. -/
def parseWords (d : OptionsDraft) : List String → Except Halt OptionsDraft
  | [] => .ok d
  | argument :: rest =>
    match Word.ofArgument argument with
    | .operand text => do
      let d ← d.setEvents text
      parseWords d rest
    | .endOfOptions => rest.foldlM OptionsDraft.setEvents d
    | .option option (some value) => do
      let d ← d.set option value
      parseWords d rest
    | .option option none =>
      match rest with
      | [] => .error (.usage (.missingValue option.name))
      | value :: rest =>
        match Word.ofArgument value with
        | .operand value => do
          let d ← d.set option value
          parseWords d rest
        | _ => .error (.usage (.missingValue option.name))
    | .verbose => do
      let d ← d.setVerbose
      parseWords d rest
    | .halt reason => .error reason

/-- Reads the arguments of the command. -/
def parse (arguments : List String) : Except Halt Options := do
  let d ← parseWords {} arguments
  d.finish

end Options

end StreamTyping
