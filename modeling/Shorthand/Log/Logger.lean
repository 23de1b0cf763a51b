import Shorthand.Environment
import Shorthand.Json.Printer
import Shorthand.Log.Filter

/-!
# Loggers

A logger has a filter and a format. A filter in the environment takes the place of the logger's
own, unless it is wrong.
-/

namespace Shorthand.Log

inductive LineFormat where
  | text
  | json
  deriving DecidableEq, Repr

/-- What is logged and how. -/
structure Logger where
  filter : Filter
  format : LineFormat
  deriving DecidableEq, Repr

/-- An event as it is logged. -/
structure Entry where
  format : LineFormat
  level : Level
  message : String
  deriving DecidableEq, Repr

/-! ## Characters that act on a terminal -/

/-- A character in a line of text: those that act on a terminal are written by number. -/
def visibleChar (c : Char) : List Char :=
  if c = '\x1b' then "\\x1b".toList
  else if c = '\x07' then "\\x07".toList
  else if c = '\x08' then "\\x08".toList
  else if c = '\x0c' then "\\x0c".toList
  else if c = '\x7f' then "\\x7f".toList
  else if 0x80 ≤ c.toNat && c.toNat ≤ 0x9f then
    "\\u\x7b".toList ++ Nat.toDigits 16 c.toNat ++ ['\x7d']
  else [c]

def visible (message : String) : String := String.ofList (message.toList.flatMap visibleChar)

/-! ## Lines -/

/-- The line of an entry that is logged at a time. -/
def Entry.line (e : Entry) (time : String) : String :=
  match e.format with
  | .text => time ++ " " ++ e.level.name ++ " " ++ e.message
  | .json =>
    let field (key : String) (value : List Char) : List Char := Json.quote key ++ ':' :: value
    let braced (fields : List (List Char)) : List Char :=
      '\x7b' :: [','].intercalate fields ++ ['\x7d']
    String.ofList (braced
      [ field "timestamp" (Json.quote time),
        field "level" (Json.quote e.level.name),
        field "fields" (braced [field "message" (Json.quote e.message)]) ])

/-! ## Loggers -/

namespace Logger

/-- The variable that holds the filter of the environment. -/
def filterVariable : String := "RUST_LOG"

/-- The filter of the environment, if there is a right one. -/
def environmentFilter? (env : Environment) : Option Filter :=
  (env filterVariable).bind Filter.ofText?

/-- A logger with a filter of its own, and complaints about that filter where it is used. -/
def ofText (env : Environment) (format : LineFormat) (text : String) : Logger × List String :=
  match environmentFilter? env with
  | some filter => (⟨filter, format⟩, [])
  | none =>
    let (filter, complaints) := Filter.ofTextLeniently text
    (⟨filter, format⟩, complaints)

/-- The logger of a command that a user runs. -/
def plain (env : Environment) (verbose : Bool) : Logger × List String :=
  ofText env .text
    (if verbose then Event.expansionTarget ++ "=debug,info" else Event.expansionTarget ++ "=info")

/-- The logger of a batch whose log lines are collected. -/
def collected (env : Environment) (level : String) : Logger × List String :=
  ofText env .json (Event.expansionTarget ++ "=" ++ level)

/-- The entry of an event, if the event is logged. -/
def entry? (l : Logger) (e : Event) : Option Entry :=
  if l.filter.shows e then
    some ⟨l.format, e.level, match l.format with
      | .text => visible e.message
      | .json => e.message⟩
  else none

end Logger

end Shorthand.Log
