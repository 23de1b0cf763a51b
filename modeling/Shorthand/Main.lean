import Std.Time.DateTime.Timestamp
import Shorthand.Program.ExpandBatch
import Shorthand.Program.ExpandQueries
import Shorthand.Timestamp

/-!
# The commands as programs

One program stands for both commands; the name under which it is called chooses.
-/

namespace Shorthand.Main

/-! ## The host -/

/-- The cause of a failure of the system, as far as it is known. -/
def faultOf : IO.Error → IoFault
  | .noFileOrDirectory _ _ _ => .os .noEntry
  | .alreadyExists _ 17 _ => .os .exists
  | .inappropriateType _ 20 _ => .os .notDirectory
  | .inappropriateType _ 21 _ => .os .isDirectory
  | .invalidArgument _ 36 _ => .os .nameTooLong
  | e => .other (toString e)

def attempt {α : Type} (action : IO α) : IO (Except IoFault α) := do
  try
    return .ok (← action)
  catch e =>
    return .error (faultOf e)

partial def readStream (stream : IO.FS.Stream) (seen : ByteArray) : IO ByteArray := do
  let data ← stream.read 65536
  if data.isEmpty then return seen else readStream stream (seen ++ data)

/-- Writes a file and makes the folders above it. -/
def writeFile (path : String) (data : List UInt8) : IO Unit := do
  let folder := ['/'].intercalate (Path.parts path.toList).dropLast
  let root := if path.startsWith "/" then "/" else "./"
  unless folder.isEmpty do IO.FS.createDirAll (root ++ String.ofList folder)
  IO.FS.writeBinFile path ⟨data.toArray⟩

def now : IO String := do
  let time ← Std.Time.Timestamp.now
  return Timestamp.text time.toNanosecondsSinceUnixEpoch.val.toNat

def notify : Notice → IO Unit
  | .line text => IO.eprintln text
  | .entry e => do IO.eprintln (e.line (← now))

def host : Host IO where
  read path := attempt do return (← IO.FS.readBinFile path).toList
  write path data := attempt (writeFile path data)
  input := do return (← readStream (← IO.getStdin) .empty).toList
  now := now
  notify := notify

/-! ## The environment -/

def environmentOf (names : List String) : IO Environment := do
  let values ← names.filterMapM fun name => do return (← IO.getEnv name).map fun v => (name, v)
  return .ofList values

/-- The variables that a batch file refers to. -/
def batchVariables (arguments : List String) : IO (List String) := do
  match BatchArguments.ofArguments arguments with
  | .error _ => return []
  | .ok a =>
    match ← host.read a.config with
    | .error _ => return []
    | .ok data => return ((Text.Utf8.decode data).toOption.map Environment.names).getD []

/-! ## Programs -/

def finish (outcome : Outcome) : IO UInt32 := do
  IO.print (String.ofList outcome.output)
  return outcome.exitCode.toUInt32

/-- Runs the command that a program name stands for. -/
def run (name : String) (arguments : List String) : IO UInt32 := do
  if name == "batch-expand" then
    let names := Log.Logger.filterVariable :: (← batchVariables arguments)
    finish (← ExpandBatch.run host (← environmentOf names) arguments)
  else
    let env ← environmentOf [Log.Logger.filterVariable]
    finish (← ExpandQueries.run host env arguments)

end Shorthand.Main

/-- Runs the command that the program's own name stands for. -/
def main (arguments : List String) : IO UInt32 := do
  Shorthand.Main.run ((← IO.appPath).fileName.getD "") arguments
