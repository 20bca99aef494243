import HttpRoutes.Text.Percent

/-!
# Text files

Why a file cannot be read as a text, in the words of the operating system.
-/

namespace HttpRoutes

inductive FileError where
  | notFound
  | notDirectory
  | isDirectory
  | notText
  /-- Any other reason, as it has been told. -/
  | other (message : String)
deriving DecidableEq

def FileError.message : FileError → String
  | .notFound => "No such file or directory (os error 2)"
  | .notDirectory => "Not a directory (os error 20)"
  | .isDirectory => "Is a directory (os error 21)"
  | .notText => "stream did not contain valid UTF-8"
  | .other message => message

/-- The text of a file with these bytes. -/
def textOfFile (bytes : List UInt8) : Except FileError String :=
  match Percent.textOfBytes? bytes with
  | some text => .ok text
  | none => .error .notText

end HttpRoutes
