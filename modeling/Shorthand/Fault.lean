import Shorthand.Json.Fault
import Shorthand.Text.Utf8

/-!
# Faults

Everything that can go wrong after the command line has been understood, by cause. Each fault has
a message, a severity, a friendlier message and a piece of advice; the severity fixes the exit code.

    medium ↦ 2 (files)    high ↦ 1 (settings and input)    critical ↦ 3 (documents)
-/

namespace Shorthand

/-! ## Files -/

/-- Why the operating system refuses to open, read, write or make a file or a folder. -/
inductive OsError where
  | noEntry
  | exists
  | notDirectory
  | isDirectory
  | nameTooLong
  deriving DecidableEq, Repr

namespace OsError

def code : OsError → Nat
  | .noEntry => 2
  | .exists => 17
  | .notDirectory => 20
  | .isDirectory => 21
  | .nameTooLong => 36

def text : OsError → String
  | .noEntry => "No such file or directory"
  | .exists => "File exists"
  | .notDirectory => "Not a directory"
  | .isDirectory => "Is a directory"
  | .nameTooLong => "File name too long"

def kind : OsError → String
  | .noEntry => "NotFound"
  | .exists => "AlreadyExists"
  | .notDirectory => "NotADirectory"
  | .isDirectory => "IsADirectory"
  | .nameTooLong => "InvalidFilename"

end OsError

/-- Why a file or a stream could not be read or written. -/
inductive IoFault where
  | os (e : OsError)
  /-- The path holds a NUL character. -/
  | nulInPath
  /-- A file that must be a text is no UTF-8. -/
  | notText
  /-- A stream that must be a text is no UTF-8. -/
  | brokenText (b : Text.Utf8.Breach)
  /-- A shelf has nothing under the path. -/
  | notFound (path : String)
  /-- A shelf does not take anything under the path. -/
  | refused (path : String)
  /-- A cause from outside, given in words. -/
  | other (text : String)
  deriving DecidableEq, Repr

namespace IoFault

def message : IoFault → String
  | .os e => e.text ++ " (os error " ++ toString e.code ++ ")"
  | .nulInPath => "file name contained an unexpected NUL byte"
  | .notText => "stream did not contain valid UTF-8"
  | .brokenText b => b.message
  | .notFound path => "File not found: " ++ path
  | .refused path => "Write refused: " ++ path
  | .other text => text

def describe : IoFault → String
  | .os e =>
    "Os \x7b code: " ++ toString e.code ++ ", kind: " ++ e.kind ++ ", message: " ++
      Text.quoted e.text ++ " \x7d"
  | .nulInPath =>
    "Error \x7b kind: InvalidInput, message: " ++ Text.quoted IoFault.nulInPath.message ++ " \x7d"
  | .notText =>
    "Error \x7b kind: InvalidData, message: " ++ Text.quoted IoFault.notText.message ++ " \x7d"
  | .brokenText b =>
    let length := match b.length with
      | some n => "Some(" ++ toString n ++ ")"
      | none => "None"
    "Custom \x7b kind: InvalidData, error: Utf8Error \x7b valid_up_to: " ++ toString b.validUpTo ++
      ", error_len: " ++ length ++ " \x7d \x7d"
  | .notFound path =>
    "Custom \x7b kind: NotFound, error: " ++ Text.quoted (IoFault.notFound path).message ++ " \x7d"
  | .refused path =>
    "Custom \x7b kind: Other, error: " ++ Text.quoted (IoFault.refused path).message ++ " \x7d"
  | .other text => "Custom \x7b kind: Other, error: " ++ Text.quoted text ++ " \x7d"

end IoFault

/-! ## Faults of a run -/

/-- How bad a fault is. -/
inductive Severity where
  | medium
  | high
  | critical
  deriving DecidableEq, Repr

namespace Severity

/-- The exit code of a run that ends with a fault of this severity. -/
def exitCode : Severity → Nat
  | .medium => 2
  | .high => 1
  | .critical => 3

def name : Severity → String
  | .medium => "Medium"
  | .high => "High"
  | .critical => "Critical"

end Severity

/-- Why a run fails. -/
inductive Fault where
  | io (cause : IoFault)
  /-- A delimited report cannot be written. -/
  | delimited (text : String)
  /-- A JSON text cannot be read. -/
  | serialization (cause : Json.Fault)
  /-- The settings cannot be read. -/
  | configuration (field message : String)
  /-- A setting has a value that it must not have. -/
  | invalidValue (field value reason : String)
  /-- A setting has no value. -/
  | missingValue (field : String)
  | processing (message : String)
  | validation (message : String)
  deriving DecidableEq, Repr

namespace Fault

def message : Fault → String
  | .io cause => "IO error: " ++ cause.message
  | .delimited text => "CSV output error: " ++ text
  | .serialization cause => "Serialization error: " ++ cause.message
  | .configuration field message => "Configuration error in '" ++ field ++ "': " ++ message
  | .invalidValue field value reason =>
    "Invalid value '" ++ value ++ "' for '" ++ field ++ "': " ++ reason
  | .missingValue field => "Missing required configuration: " ++ field
  | .processing message => "Processing error: " ++ message
  | .validation message => "Validation error: " ++ message

def severity : Fault → Severity
  | .io _ => .medium
  | .delimited _ => .critical
  | .serialization _ => .critical
  | _ => .high

def friendly : Fault → String
  | .io cause => "Could not read or write a file: " ++ cause.message
  | .delimited _ => "Failed to render the expanded queries"
  | .serialization _ => "Failed to render the expanded queries"
  | .configuration field _ => "The configuration value '" ++ field ++ "' is invalid"
  | .invalidValue field _ _ => "The configuration value '" ++ field ++ "' is invalid"
  | .missingValue field => "The configuration value '" ++ field ++ "' is required"
  | .processing message => message
  | .validation message => message

def suggestion : Fault → String
  | .io _ => "Check that the input file exists and the output directory is writable"
  | .delimited _ => "Try a different output format and report the failing query"
  | .serialization _ => "Try a different output format and report the failing query"
  | .configuration _ _ => "Fix the configuration file or command line flags and run again"
  | .invalidValue _ _ _ => "Fix the configuration file or command line flags and run again"
  | .missingValue _ => "Fix the configuration file or command line flags and run again"
  | .processing _ => "Inspect the input queries and run again with --verbose"
  | .validation _ => "Provide at least one query to expand"

def kind : Fault → String
  | .io _ => "IoError"
  | .delimited _ => "CsvError"
  | .serialization _ => "SerializationError"
  | .configuration _ _ => "ConfigValidationError"
  | .invalidValue _ _ _ => "InvalidConfigValueError"
  | .missingValue _ => "MissingConfigError"
  | .processing _ => "ProcessingError"
  | .validation _ => "ValidationError"

def braced (parts : List (String × String)) : String :=
  " \x7b " ++ ", ".intercalate (parts.map fun p => p.1 ++ ": " ++ Text.quoted p.2) ++ " \x7d"

def describe (f : Fault) : String :=
  f.kind ++ match f with
    | .io cause => "(" ++ cause.describe ++ ")"
    | .delimited text => "(" ++ Text.quoted text ++ ")"
    | .serialization cause => "(Error(" ++ Text.quoted cause.message ++ "))"
    | .configuration field message => braced [("field", field), ("message", message)]
    | .invalidValue field value reason =>
      braced [("field", field), ("value", value), ("reason", reason)]
    | .missingValue field => braced [("field", field)]
    | .processing message => braced [("message", message)]
    | .validation message => braced [("message", message)]

end Fault

end Shorthand
