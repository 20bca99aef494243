import HttpRoutes.File.Basic
import HttpRoutes.File.Path
import HttpRoutes.Rule.Json
import HttpRoutes.Rule.Yaml

/-!
# Rule documents

A document is written in one of two formats.  The name of a file tells which:
the extensions `yaml` and `yml`, in lower case, stand for YAML and everything
else for JSON.
-/

namespace HttpRoutes

inductive DocumentFormat where
  | yaml
  | json
deriving DecidableEq

namespace DocumentFormat

def name : DocumentFormat → String
  | .yaml => "YAML"
  | .json => "JSON"

def ofPath (path : String) : DocumentFormat :=
  match FilePath.extension? path with
  | some "yaml" => .yaml
  | some "yml" => .yaml
  | _ => .json

/-- What is said of a text that is no document of this format. -/
def failure (format : DocumentFormat) : String :=
  s!"failed to parse {format.name} rule document"

end DocumentFormat

/-- Read the rules of a document. -/
def RuleSet.ofText? (format : DocumentFormat) (text : String) : Option RuleSet :=
  match format with
  | .yaml => RuleSet.readYaml? text
  | .json => RuleSet.readJson? text

/-- Why a file yields no rules. -/
inductive DocumentError where
  | unreadable (path : String) (cause : FileError)
  | malformed (path : String) (format : DocumentFormat)
deriving DecidableEq

def DocumentError.chain : DocumentError → List String
  | .unreadable path cause => [s!"failed to read rule file {path}", cause.message]
  | .malformed path format => [s!"invalid rule file {path}", format.failure]

/-- Read the rules of a file, given what reading it as a text results in. -/
def RuleSet.ofFile (path : String) (content : Except FileError String) :
    Except DocumentError RuleSet :=
  match content with
  | .error cause => .error (.unreadable path cause)
  | .ok text =>
    match RuleSet.ofText? (.ofPath path) text with
    | some rules => .ok rules
    | none => .error (.malformed path (.ofPath path))

end HttpRoutes
