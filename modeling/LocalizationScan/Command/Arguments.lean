import LocalizationScan.Text.Basic

namespace LocalizationScan.Command

/-!
# Command line

A command line names a command and sets its options.  Options start with `--`,
their value comes behind `=` or as the next argument; flags have no value.  An
option that still waits for its value when another one starts lacks it.
-/

/-- What the program can do. -/
inductive Verb where
  | strings
  | references
  | init
  deriving Repr, DecidableEq

/-- The verb of a name. -/
def Verb.ofName? (name : Text) : Option Verb :=
  if name = "strings".toList then some .strings
  else if name = "references".toList then some .references
  else if name = "init".toList then some .init
  else none

/-- How a report is written. -/
inductive Format where
  | text
  | json
  deriving Repr, DecidableEq

/-- Why a command line cannot be carried out. -/
inductive UsageError where
  | unknownCommand
  | unknownArgument
  /-- A value is missing, empty or not one of those that are possible. -/
  | invalidValue
  /-- A flag has a value. -/
  | surplusValue
  /-- An option stands twice that may stand once. -/
  | repetition
  deriving Repr, DecidableEq

/-- The wording of an error. -/
def UsageError.message : UsageError → Text
  | .unknownCommand => "unrecognized subcommand".toList
  | .unknownArgument => "unexpected argument".toList
  | .invalidValue => "invalid or missing value of an option".toList
  | .surplusValue => "unexpected value of a flag".toList
  | .repetition => "an option cannot be used multiple times".toList

/-- A page of help. -/
inductive HelpPage where
  | overview
  | command (verb : Verb) (long : Bool)
  /-- The help on asking for help. -/
  | help
  deriving Repr, DecidableEq

/-- What ends the reading of a command line early. -/
inductive Interruption where
  | usage (error : UsageError)
  | help (page : HelpPage)
  | version
  deriving Repr, DecidableEq

/-- An option of a command. -/
inductive Switch where
  | sourceRoot
  | rootNamespace
  | verbose
  | format
  | includeUnlocalizable
  | resource
  | prefer
  | help
  deriving Repr, DecidableEq

namespace Switch

/-- The name of an option without its dashes. -/
def name : Switch → Text
  | .sourceRoot => "source-root".toList
  | .rootNamespace => "root-namespace".toList
  | .verbose => "verbose".toList
  | .format => "format".toList
  | .includeUnlocalizable => "include-unlocalizable".toList
  | .resource => "resource".toList
  | .prefer => "prefer".toList
  | .help => "help".toList

/-- Whether an option has a value. -/
def hasValue : Switch → Bool
  | .sourceRoot | .rootNamespace | .format | .resource | .prefer => true
  | .verbose | .includeUnlocalizable | .help => false

/-- The letter that a flag can be given by. -/
def letter? : Switch → Option Char
  | .verbose => some 'v'
  | .help => some 'h'
  | _ => none

end Switch

/-- The options of a command. -/
def Verb.switches : Verb → List Switch
  | .strings =>
      [.sourceRoot, .rootNamespace, .verbose, .format, .includeUnlocalizable, .help]
  | .references => [.sourceRoot, .rootNamespace, .verbose, .format, .resource, .prefer, .help]
  | .init => [.help]

/-- What the options of a command line come to. -/
structure Options where
  sourceRoot? : Option Text
  rootNamespace? : Option Text
  verbose : Bool
  format? : Option Format
  includeUnlocalizable : Bool
  /-- Patterns of resource containers, in the order in which they are given. -/
  resources : List Text
  prefer? : Option Text
  deriving Repr, DecidableEq

namespace Options

/-- No option. -/
def none : Options := ⟨.none, .none, false, .none, false, [], .none⟩

/-- Set what may be set once. -/
def once {α : Type} (before? : Option α) (options : Options) : Except UsageError Options :=
  if before?.isSome then .error .repetition else .ok options

/-- Set an option that has a value: a second value is refused before the value is looked at.
A path must not be empty. -/
def setValue (options : Options) (switch : Switch) (value : Text) :
    Except UsageError Options :=
  match switch with
  | .sourceRoot => do
      let options ← once options.sourceRoot? { options with sourceRoot? := some value }
      if value.isEmpty then throw .invalidValue else return options
  | .rootNamespace => once options.rootNamespace? { options with rootNamespace? := some value }
  | .format =>
      if options.format?.isSome then .error .repetition
      else if value = "text".toList then .ok { options with format? := some .text }
      else if value = "json".toList then .ok { options with format? := some .json }
      else .error .invalidValue
  | .resource => .ok { options with resources := options.resources ++ [value] }
  | .prefer => do
      let options ← once options.prefer? { options with prefer? := some value }
      if value.isEmpty then throw .invalidValue else return options
  | .verbose | .includeUnlocalizable | .help => .error .surplusValue

/-- Set a flag. -/
def setFlag (options : Options) (switch : Switch) : Except UsageError Options :=
  match switch with
  | .verbose =>
      if options.verbose then .error .repetition else .ok { options with verbose := true }
  | .includeUnlocalizable =>
      if options.includeUnlocalizable then .error .repetition
      else .ok { options with includeUnlocalizable := true }
  | _ => .error .invalidValue

end Options

/-- An option that has been met and is not set yet, with its value if that has been met. -/
structure Pending where
  switch : Switch
  value? : Option Text
  deriving Repr, DecidableEq

/-- Where the reading of the options of a command stands. -/
structure Parsing where
  options : Options
  pending? : Option Pending
  deriving Repr, DecidableEq

namespace Parsing

/-- Set the option that waits. -/
def settle (parsing : Parsing) : Except Interruption Options :=
  match parsing.pending? with
  | none => .ok parsing.options
  | some ⟨_, none⟩ => .error (.usage .invalidValue)
  | some ⟨switch, some value⟩ => (parsing.options.setValue switch value).mapError .usage

/-- Go on behind a flag. -/
def takeFlag (verb : Verb) (long : Bool) (parsing : Parsing) (switch : Switch) :
    Except Interruption Parsing := do
  let options ← parsing.settle
  if switch = .help then
    throw (.help (.command verb long))
  return ⟨← (options.setFlag switch).mapError .usage, none⟩

/-- Go on behind an argument that starts with two dashes, given what follows them. -/
def takeLong (verb : Verb) (parsing : Parsing) (argument : Text) :
    Except Interruption Parsing := do
  let (name, value?) := match Text.splitFirst? '=' argument with
    | some (name, value) => (name, some value)
    | none => (argument, none)
  match verb.switches.find? fun switch => switch.name = name with
  | none => throw (.usage .unknownArgument)
  | some switch =>
      match switch.hasValue, value? with
      | true, some value =>
          let options ← parsing.settle
          return ⟨← (options.setValue switch value).mapError .usage, none⟩
      | true, none => return ⟨← parsing.settle, some ⟨switch, none⟩⟩
      | false, some _ => throw (.usage .surplusValue)
      | false, none => parsing.takeFlag verb true switch

/-- Go on behind an argument that starts with one dash, given the letters that follow it. -/
def takeLetters (verb : Verb) : Parsing → Text → Except Interruption Parsing
  | parsing, [] => .ok parsing
  | parsing, letter :: letters => do
      match verb.switches.find? fun switch => switch.letter? = some letter with
      | none => throw (.usage .unknownArgument)
      | some switch => takeLetters verb (← parsing.takeFlag verb false switch) letters

/-- Go on behind any other argument: it can only be the value of the option that waits. -/
def takeValue (parsing : Parsing) (argument : Text) : Except Interruption Parsing :=
  match parsing.pending? with
  | some ⟨switch, none⟩ => .ok ⟨parsing.options, some ⟨switch, some argument⟩⟩
  | _ => .error (.usage .unknownArgument)

/-- Read the arguments of a command; no argument may follow `--`. -/
def readArguments (verb : Verb) : Parsing → List Text → Except Interruption Options
  | parsing, [] => parsing.settle
  | parsing, argument :: arguments => do
      match argument with
      | ['-', '-'] =>
          if arguments.isEmpty then parsing.settle else throw (.usage .unknownArgument)
      | '-' :: '-' :: rest => readArguments verb (← parsing.takeLong verb rest) arguments
      | '-' :: letter :: letters =>
          readArguments verb (← parsing.takeLetters verb (letter :: letters)) arguments
      | value => readArguments verb (← parsing.takeValue value) arguments

end Parsing

/-- What a command line asks for. -/
inductive Request where
  /-- Nothing, which is answered by help. -/
  | nothing
  | run (verb : Verb) (options : Options)
  deriving Repr, DecidableEq

/-- The page of help on the commands that are named. -/
def helpOn : List Text → Interruption
  | [] => .help .overview
  | [name] =>
      if name = "help".toList then .help .help
      else
        match Verb.ofName? name with
        | some verb => .help (.command verb true)
        | none => .usage .unknownCommand
  | _ => .usage .unknownCommand

/-- Whether an argument names a command. -/
def isCommandName (argument : Text) : Bool :=
  (Verb.ofName? argument).isSome || argument == "help".toList

/-- The answer to an argument in front of the command that starts with a dash. -/
def leadingSwitch : Text → Interruption
  | '-' :: rest =>
      if rest = "help".toList then .help .overview
      else if rest = "version".toList then .version
      else
        match Text.splitFirst? '=' rest with
        | some (name, _) =>
            if name = "help".toList ∨ name = "version".toList then .usage .surplusValue
            else .usage .unknownArgument
        | none => .usage .unknownArgument
  | 'h' :: _ => .help .overview
  | 'V' :: _ => .version
  | _ => .usage .unknownArgument

/-- What the arguments of a command line ask for. -/
def ofArguments : List Text → Except Interruption Request
  | [] => .ok .nothing
  | argument :: arguments =>
      match Verb.ofName? argument with
      | some verb => (Parsing.readArguments verb ⟨.none, none⟩ arguments).map (.run verb)
      | none =>
          if argument = "help".toList then
            .error (helpOn arguments)
          else
            match argument with
            | ['-', '-'] =>
                match arguments with
                | [] => .ok .nothing
                | next :: _ =>
                    if isCommandName next then .error (.usage .unknownArgument)
                    else .error (.usage .unknownCommand)
            | '-' :: letter :: letters => .error (leadingSwitch (letter :: letters))
            | _ => .error (.usage .unknownCommand)

end LocalizationScan.Command
