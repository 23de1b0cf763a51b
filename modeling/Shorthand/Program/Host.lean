import Shorthand.CommandLine.Basic
import Shorthand.Log.Logger
import Shorthand.Run.Services

/-!
# Hosts of a command

A host gives a command its standard input, its files and the time, and takes what the command has to
say on its error stream: plain lines and log entries, in order. What a command answers is its
outcome.
-/

namespace Shorthand

/-- Something on the error stream. -/
inductive Notice where
  | line (text : String)
  | entry (entry : Log.Entry)
  deriving DecidableEq, Repr

/-- How a command ends. -/
structure Outcome where
  exitCode : Nat
  /-- What it prints. -/
  output : List Char
  deriving DecidableEq, Repr

/-- The outcome of a command that did what it should. -/
def Outcome.success (output : List Char) : Outcome := ⟨0, output⟩

/-- The outcome of a command that prints nothing. -/
def Outcome.failure (exitCode : Nat) : Outcome := ⟨exitCode, []⟩

/-- What a command needs from outside. -/
structure Host (m : Type → Type) where
  read : String → m (Except IoFault (List UInt8))
  write : String → List UInt8 → m (Except IoFault Unit)
  /-- All of the standard input. -/
  input : m (List UInt8)
  now : m String
  notify : Notice → m Unit

namespace Host

variable {m : Type → Type} [Monad m]

def warn (host : Host m) (text : String) : m Unit := host.notify (.line text)

def warnAll (host : Host m) : List String → m Unit
  | [] => return ()
  | text :: texts => do
    host.warn text
    host.warnAll texts

def log (host : Host m) (logger : Log.Logger) (event : Event) : m Unit :=
  match logger.entry? event with
  | some entry => host.notify (.entry entry)
  | none => return ()

def logAll (host : Host m) (logger : Log.Logger) : List Event → m Unit
  | [] => return ()
  | event :: events => do
    host.log logger event
    host.logAll logger events

/-- A logger, after the complaints about its filter. -/
def install (host : Host m) (logger : Log.Logger × List String) : m Log.Logger := do
  host.warnAll logger.2
  return logger.1

/-- What a run needs, its files seen from the working folder. -/
def services (host : Host m) (logger : Log.Logger) : Services m where
  read path := host.read (Path.join "." path)
  write path data := host.write (Path.join "." path) data
  now := host.now
  record := host.log logger

/-! ## Ends that commands share -/

/-- Says that arguments are not taken. Help, which the user asked for, goes to the output. -/
def refuse (host : Host m) (usage : List Char) : CommandLine.Refusal → m Outcome
  | .help => return .success usage
  | r => do
    host.warn r.message
    return .failure r.exitCode

/-- Ends with a fault that no command handles. -/
def abort (host : Host m) (fault : Fault) : m Outcome := do
  host.warn ("Error: " ++ fault.describe)
  return .failure 1

end Host

/-! ## Events that commands share -/

/-- The settings are not as they must be. -/
def Event.invalidSettings (target : String) (fault : Fault) : List Event :=
  [ ⟨.error, target, "Configuration validation failed: " ++ fault.message⟩,
    ⟨.error, target, "Suggestion: " ++ fault.suggestion⟩ ]

/-- A run failed; `subject` says what was run. -/
def Event.runFailed (target subject : String) (fault : Fault) : List Event :=
  [ ⟨.error, target, subject ++ " failed: " ++ fault.message ++ " (Severity: " ++
      fault.severity.name ++ ")"⟩,
    ⟨.error, target, "Recovery suggestion: " ++ fault.suggestion⟩ ]

namespace Host

variable {m : Type → Type} [Monad m]

/-- Says that settings are not as they must be. -/
def rejectSettings (host : Host m) (logger : Log.Logger) (target : String) (fault : Fault) :
    m Outcome := do
  host.logAll logger (Event.invalidSettings target fault)
  host.warn ("❌ " ++ fault.friendly)
  return .failure 1

def fail (host : Host m) (logger : Log.Logger) (target subject : String) (fault : Fault) :
    m Outcome := do
  host.logAll logger (Event.runFailed target subject fault)
  host.warn ("❌ " ++ fault.friendly)
  host.warn ("💡 " ++ fault.suggestion)
  return .failure fault.severity.exitCode

end Host

/-- The lines that name the files written by a run. -/
def savedLines (paths : List String) : List Char :=
  paths.flatMap fun path => ("📁 " ++ path ++ "\n").toList

/-! ## A host that is a value -/

/-- The files, the standard input and the time of a command, and what it said so far. -/
structure World (σ : Type) where
  files : σ
  input : List UInt8
  time : String
  notices : List Notice

def Host.ofStore {σ : Type} (store : Store σ) : Host (StateM (World σ)) where
  read path := do return store.read (← get).files path
  write path data := modifyGet fun w =>
    let (answer, files) := store.write w.files path data
    (answer, { w with files := files })
  input := do return (← get).input
  now := do return (← get).time
  notify notice := modify fun w => { w with notices := w.notices ++ [notice] }

end Shorthand
