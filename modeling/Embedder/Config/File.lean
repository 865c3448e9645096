import Embedder.Config.Toml.Document
import Embedder.Error
import Embedder.Text.Utf8

namespace Embedder

/-!
# Files

What is made of the contents of a file, or of its absence.

* `ConfigFile.ofContent`: the configuration in a file.
* `bytecodeOfContent`: the bytecode in a file.
-/

/-- Why a file that is not there cannot be read. -/
def absentFile : String := "No such file or directory (os error 2)"

/-- Why a configuration could not be read. -/
inductive ConfigFileError where
  /-- There is no text to read. -/
  | unreadable (reason : String)
  /-- The text is no configuration. -/
  | malformed
  deriving DecidableEq, Repr

/-- The wording of an error about the file at a path. -/
def ConfigFileError.message (path : String) : ConfigFileError → String
  | unreadable reason => "Failed to read config file '" ++ path ++ "': " ++ reason
  | malformed => "Failed to parse config file"

/-- The configuration in a file of some content. -/
def ConfigFile.ofContent : Option Bytes → Except ConfigFileError ConfigFile
  | none => .error (.unreadable absentFile)
  | some bytes =>
    match Text.decode? bytes with
    | none => .error (.unreadable "stream did not contain valid UTF-8")
    | some text =>
      match ofToml? text with
      | none => .error .malformed
      | some config => .ok config

/-- The bytecode in a file of some content. -/
def bytecodeOfContent : Option Bytes → Except Error Bytes
  | none => .error (.io absentFile)
  | some bytes => .ok bytes

end Embedder
