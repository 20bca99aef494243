import HttpRoutes.CommandLine.Arguments

/-!
# Commands

The commands of the program with the arguments they take.
-/

namespace HttpRoutes

inductive Command where
  | check (rules : String)
  | routes (rules : String)
  | lookup (rules method path : String)
  | regex (template : String)
  | rename (template : String) (pairs : List String) (camel : Bool)
deriving DecidableEq

namespace CommandLine

def rulesOption : OptionSpec := ⟨"rules", some 'r', .path⟩

def methodOption : OptionSpec := ⟨"method", some 'm', .value⟩

def mapOption : OptionSpec := ⟨"map", none, .values⟩

def camelOption : OptionSpec := ⟨"camel", none, .flag⟩

def checkSpec : CommandSpec := ⟨"check", [rulesOption, helpOption], 0, ["rules"], []⟩

def routesSpec : CommandSpec := ⟨"routes", [rulesOption, helpOption], 0, ["rules"], []⟩

def lookupSpec : CommandSpec :=
  ⟨"match", [rulesOption, methodOption, helpOption], 1, ["rules"], []⟩

def regexSpec : CommandSpec := ⟨"regex", [helpOption], 1, [], []⟩

def renameSpec : CommandSpec :=
  ⟨"rename", [mapOption, camelOption, helpOption], 1, [], [("map", "camel")]⟩

def commandSpecs : List CommandSpec :=
  [checkSpec, routesSpec, lookupSpec, regexSpec, renameSpec]

/-- The command with this name and what has been given to it. -/
def commandOf (name : String) (given : Given) : Command :=
  let rules := (given.values "rules").headD ""
  let operand := given.operands.headD ""
  if name = checkSpec.name then .check rules
  else if name = routesSpec.name then .routes rules
  else if name = lookupSpec.name then
    .lookup rules ((given.values "method").headD "GET") operand
  else if name = regexSpec.name then .regex operand
  else .rename operand (given.values "map") (given.has "camel")

def isCommandName (name : String) : Bool :=
  name = "help" || commandSpecs.any fun spec => spec.name = name

/-- What is wrong with arguments that do not begin with a command. -/
def faultWithoutCommand (text : String) (texts : List String) : UsageError :=
  match Argument.ofText text with
  | .terminator =>
    match texts with
    | [] => .helpForNothing
    | name :: _ => if isCommandName name then .unknownArgument else .unknownCommand
  | .long name value =>
    if name != "help" then .unknownArgument
    else if value.isSome then .unexpectedValue
    else .help
  | .short letters => if letters.head? = some 'h' then .help else .unknownArgument
  | .plain => .unknownCommand

/-- Whether there is help for a sequence of names: at most that of one command. -/
def helpFor : List String → UsageError
  | [] => .help
  | [name] => if isCommandName name then .help else .unknownCommand
  | _ => .unknownCommand

/-- Read the arguments of the program. -/
def readCommand : List String → Except UsageError Command
  | [] => .error .helpForNothing
  | name :: texts =>
    if name = "help" then .error (helpFor texts)
    else
      match commandSpecs.find? fun spec => spec.name = name with
      | none => .error (faultWithoutCommand name texts)
      | some spec => (spec.read texts).map (commandOf spec.name)

end CommandLine
end HttpRoutes
