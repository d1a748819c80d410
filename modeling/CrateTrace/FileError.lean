/-!
# Why a file cannot be used
-/

namespace CrateTrace

inductive FileError where
  | missing
  | exists
  | notDirectory
  | isDirectory
  | nameTooLong
  /-- The bytes are no text in UTF-8. -/
  | notText
deriving DecidableEq, Repr

def FileError.message : FileError → String
  | .missing => "No such file or directory (os error 2)"
  | .exists => "File exists (os error 17)"
  | .notDirectory => "Not a directory (os error 20)"
  | .isDirectory => "Is a directory (os error 21)"
  | .nameTooLong => "File name too long (os error 36)"
  | .notText => "stream did not contain valid UTF-8"

/-- The text that some bytes stand for. -/
def textOf (bytes : ByteArray) : Except FileError String :=
  match String.fromUTF8? bytes with
  | some text => .ok text
  | none => .error .notText

end CrateTrace
