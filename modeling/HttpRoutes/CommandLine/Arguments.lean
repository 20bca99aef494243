import HttpRoutes.Text.Split

/-!
# Arguments of a command

A command takes options and operands.  An option is written `--name`, or `-c` if
it has a short form; its value follows as the next argument or, after an equals
sign or right behind the short form, in the same one.  After `--` all arguments
are operands.

An argument that looks like an option is never the value of the one in front of
it.  The value in an argument of its own is settled only when the next option or
operand is accepted, so a fault in that argument may come first.
-/

namespace HttpRoutes.CommandLine

/-- Why arguments are not accepted, or that help is asked for. -/
inductive UsageError where
  | help
  | helpForNothing
  | unknownCommand
  | unknownArgument
  | missingArgument
  | missingValue
  | unexpectedValue
  | conflict
deriving DecidableEq

/-- What an option takes. -/
inductive OptionKind where
  | help
  /-- Nothing; given at most once. -/
  | flag
  /-- A value; given at most once. -/
  | value
  /-- A value that must not be empty; given at most once. -/
  | path
  /-- Values with commas in between; given any number of times. -/
  | values
deriving DecidableEq

namespace OptionKind

def takesValue : OptionKind → Bool
  | .help => false
  | .flag => false
  | _ => true

end OptionKind

structure OptionSpec where
  name : String
  short : Option Char
  kind : OptionKind

structure CommandSpec where
  name : String
  options : List OptionSpec
  /-- The number of operands, all of which have to be given. -/
  operands : Nat
  /-- The options that have to be given. -/
  required : List String
  /-- Options that exclude each other. -/
  exclusive : List (String × String)

/-- The option that every command has. -/
def helpOption : OptionSpec := ⟨"help", some 'h', .help⟩

/-- How an argument is written. -/
inductive Argument where
  | terminator
  | long (name : String) (value : Option String)
  | short (letters : List Char)
  | plain

namespace Argument

def ofText (text : String) : Argument :=
  match text.toList with
  | ['-', '-'] => .terminator
  | '-' :: '-' :: cs =>
    match Text.splitFirst? '=' cs with
    | some (name, value) => .long (String.ofList name) (some (String.ofList value))
    | none => .long (String.ofList cs) none
  | '-' :: c :: cs => .short (c :: cs)
  | _ => .plain

end Argument

/-- The value that stands right behind a letter. -/
def attachedValue? : List Char → Option String
  | [] => none
  | '=' :: cs => some (String.ofList cs)
  | cs => some (String.ofList cs)

/-- An option whose value stands in an argument of its own, if it has come. -/
structure Pending where
  option : OptionSpec
  value : Option String

/-- What has been read of a command's arguments. -/
structure Given where
  /-- The options with their values, in order. -/
  options : List (String × List String)
  operands : List String
  pending : Option Pending

namespace Given

def nothing : Given := ⟨[], [], none⟩

def has (name : String) (given : Given) : Bool :=
  given.options.any fun option => option.1 = name

/-- All values of an option. -/
def values (name : String) (given : Given) : List String :=
  (given.options.filter fun option => option.1 = name).flatMap Prod.snd

/-- Accept an option with its value. -/
def accept (option : OptionSpec) (value : String) (given : Given) :
    Except UsageError Given :=
  let values :=
    match option.kind with
    | .help => []
    | .flag => []
    | .values => (Text.splitOn ',' value.toList).map String.ofList
    | _ => [value]
  if option.kind = .help then .error .help
  else if option.kind != .values && given.has option.name then .error .conflict
  else if option.kind = .path && value.isEmpty then .error .missingValue
  else .ok { given with options := given.options ++ [(option.name, values)] }

/-- Settle the option whose value has been waited for. -/
def settle (given : Given) : Except UsageError Given :=
  match given.pending with
  | none => .ok given
  | some ⟨_, none⟩ => .error .missingValue
  | some ⟨option, some value⟩ => { given with pending := none }.accept option value

def awaitsValue (given : Given) : Bool :=
  given.pending.any fun pending => pending.value.isNone

/-- Take an argument as the value that is waited for. -/
def giveValue (value : String) (given : Given) : Given :=
  { given with
    pending := given.pending.map fun pending => { pending with value := some value } }

/-- Accept an option, with its value if that stands in the same argument. -/
def addOption (option : OptionSpec) (value : Option String) (given : Given) :
    Except UsageError Given := do
  match value, option.kind.takesValue with
  | some _, false => throw .unexpectedValue
  | some value, true =>
    let given ← given.settle
    given.accept option value
  | none, false =>
    let given ← given.settle
    given.accept option ""
  | none, true =>
    let given ← given.settle
    pure { given with pending := some ⟨option, none⟩ }

/-- Accept an operand, of which there may be `count`. -/
def addOperand (count : Nat) (operand : String) (given : Given) :
    Except UsageError Given :=
  if given.operands.length < count then do
    let given ← given.settle
    pure { given with operands := given.operands ++ [operand] }
  else
    .error .unknownArgument

end Given

namespace CommandSpec

/-- Read the letters of an argument with short options.  What stands behind the
letter of an option that takes a value is that value. -/
def readLetters (spec : CommandSpec) (given : Given) :
    List Char → Except UsageError Given
  | [] => .ok given
  | letter :: others =>
    match spec.options.find? fun option => option.short = some letter with
    | none => .error .unknownArgument
    | some option => do
      if option.kind.takesValue then
        given.addOption option (attachedValue? others)
      else
        let given ← given.addOption option none
        readLetters spec given others

/-- Read arguments one after the other.  `onlyOperands` tells whether `--` has
come. -/
def readArguments (spec : CommandSpec) (onlyOperands : Bool) (given : Given) :
    List String → Except UsageError Given
  | [] => given.settle
  | text :: texts => do
    if onlyOperands then
      let given ← given.addOperand spec.operands text
      readArguments spec true given texts
    else
      match Argument.ofText text with
      | .terminator => readArguments spec true given texts
      | .long name value =>
        match spec.options.find? fun option => option.name = name with
        | none => throw .unknownArgument
        | some option =>
          let given ← given.addOption option value
          readArguments spec false given texts
      | .short letters =>
        let given ← spec.readLetters given letters
        readArguments spec false given texts
      | .plain =>
        if given.awaitsValue then
          readArguments spec false (given.giveValue text) texts
        else
          let given ← given.addOperand spec.operands text
          readArguments spec false given texts

/-- Read all arguments of a command and make sure that they go together and that
nothing is missing. -/
def read (spec : CommandSpec) (texts : List String) : Except UsageError Given := do
  let given ← spec.readArguments false .nothing texts
  if spec.exclusive.any fun (one, other) => given.has one && given.has other then
    throw .conflict
  if given.operands.length < spec.operands ||
      spec.required.any fun name => !given.has name then
    throw .missingArgument
  pure given

end CommandSpec
end HttpRoutes.CommandLine
