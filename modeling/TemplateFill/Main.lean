import Std.Time.DateTime.Timestamp
import TemplateFill.CommandLine.Run

/-!
The program: its arguments, files and standard streams.
-/

namespace TemplateFill

def fileError : IO.Error → CommandLine.FileError
  | .noFileOrDirectory _ _ _ => .notFound
  | .permissionDenied _ _ _ => .permissionDenied
  | .inappropriateType _ code _ => if code = 21 || code + 21 = 0 then .isADirectory else .notADirectory
  | .userError _ => .notText
  | error => .other (toString error)

def attempt {α : Type} (action : IO α) : IO (Except CommandLine.FileError α) := do
  match ← action.toBaseIO with
  | .ok value => return .ok value
  | .error error => return .error (fileError error)

def processSurroundings : CommandLine.Surroundings IO where
  fileText name := attempt (IO.FS.readFile name)
  inputText := attempt do (← IO.getStdin).readToEnd
  storeFile name text := attempt (IO.FS.writeFile name text)

def presentMoment : IO Moment := do
  let nanoseconds := (← Std.Time.Timestamp.now).toNanosecondsSinceUnixEpoch.val.toNat
  return .ofEpoch (nanoseconds / 1000000000) (nanoseconds % 1000000000)

end TemplateFill

def main (arguments : List String) : IO UInt32 := do
  let outcome ← TemplateFill.CommandLine.run TemplateFill.processSurroundings
    (← TemplateFill.presentMoment) arguments
  IO.print outcome.output
  IO.eprint outcome.errors
  return UInt32.ofNat outcome.status
