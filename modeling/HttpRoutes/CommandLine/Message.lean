import HttpRoutes.CommandLine.Run

/-!
# Messages of the program

What the program says when it is used wrongly, asked for help, or fails.
-/

namespace HttpRoutes

def usageLines : List String :=
  ["Usage: http-routes COMMAND",
    "",
    "Commands:",
    "  check --rules FILE",
    "  routes --rules FILE",
    "  match --rules FILE [--method METHOD] PATH",
    "  regex TEMPLATE",
    "  rename TEMPLATE --map OLD=NEW,...",
    "  rename TEMPLATE --camel",
    "  help [COMMAND]"]

def usageText : String := "\n".intercalate usageLines ++ "\n"

namespace CommandLine.UsageError

def message : UsageError → String
  | .help => ""
  | .helpForNothing => ""
  | .unknownCommand => "error: unrecognized command\n\n"
  | .unknownArgument => "error: unexpected argument\n\n"
  | .missingArgument => "error: a required argument is missing\n\n"
  | .missingValue => "error: an option is given without its value\n\n"
  | .unexpectedValue => "error: a value is given to an option that takes none\n\n"
  | .conflict => "error: options are given that exclude each other\n\n"

end CommandLine.UsageError

/-- The causes of a failure, each on a line; several are numbered. -/
def causeLines : List String → List String
  | [] => []
  | [cause] => ["", "Caused by:", s!"    {cause}"]
  | causes =>
    ["", "Caused by:"] ++
      causes.mapIdx fun number cause => s!"    {number}: {cause}"

/-- The message of a failure and those of its causes. -/
def CommandError.report (error : CommandError) : String :=
  match error.chain with
  | [] => "Error\n"
  | message :: causes =>
    "\n".intercalate (s!"Error: {message}" :: causeLines causes) ++ "\n"

end HttpRoutes
