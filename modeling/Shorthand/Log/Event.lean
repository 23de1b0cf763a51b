/-!
# Events

What a run tells while it goes on. An event has a level, a target, which says what part of the
program it comes from, and a message.

    error < warn < info < debug < trace
-/

namespace Shorthand

/-- How much an event matters; the first matters most. -/
inductive Level where
  | error
  | warn
  | info
  | debug
  | trace
  deriving DecidableEq, Repr

namespace Level

def rank : Level → Nat
  | .error => 1
  | .warn => 2
  | .info => 3
  | .debug => 4
  | .trace => 5

/-- The level as log lines show it. -/
def name : Level → String
  | .error => "ERROR"
  | .warn => "WARN"
  | .info => "INFO"
  | .debug => "DEBUG"
  | .trace => "TRACE"

/-- All levels, by rank. -/
def all : List Level := [.error, .warn, .info, .debug, .trace]

end Level

/-- Something that a run tells. -/
structure Event where
  level : Level
  target : String
  message : String
  deriving DecidableEq, Repr

namespace Event

/-- The target of the events of the command that expands queries, with which the targets of all runs
begin. -/
def expansionTarget : String := "query_symbols"

/-- The target of the events of a run, whichever command starts it. -/
def runTarget : String := expansionTarget ++ "::core::engine"

def detailTarget : String := expansionTarget ++ "::core::pipeline"

/-- The target of the events of the command that runs batches. -/
def batchTarget : String := "batch_expand"

/-! ## Events of a run -/

def started : Event := ⟨.info, runTarget, "Starting expansion run"⟩

def collecting : Event := ⟨.info, runTarget, "Collecting queries..."⟩

def collected (count : Nat) : Event :=
  ⟨.info, runTarget, "Collected " ++ toString count ++ " queries"⟩

def expanding : Event := ⟨.info, runTarget, "Expanding shorthand symbols..."⟩

/-- How many queries were expanded, and how many of them by more than trimming. -/
def expanded (count changed : Nat) : Event :=
  ⟨.info, runTarget,
    "Expanded " ++ toString count ++ " queries (" ++ toString changed ++ " changed)"⟩

def writing : Event := ⟨.info, runTarget, "Writing output..."⟩

def saved (path : String) : Event := ⟨.info, runTarget, "Output saved to: " ++ path⟩

/-! ## Details of a run -/

def givenQueries (count : Nat) : Event :=
  ⟨.debug, detailTarget, "Collected " ++ toString count ++ " inline queries"⟩

def fileQueries (count : Nat) (path : String) : Event :=
  ⟨.debug, detailTarget, "Read " ++ toString count ++ " queries from " ++ path⟩

def wrote (size : Nat) (path : String) : Event :=
  ⟨.debug, detailTarget, "Wrote " ++ toString size ++ " bytes to " ++ path⟩

end Event

end Shorthand
