import RasterIrq.Trace

/-!
# The trace program

Reads the image file if the command line names one, runs the trace, prints its lines and its error,
and exits with its code. Nothing is decided here that the trace does not decide.
-/

namespace RasterIrq.Program

/-- How the system words a failed read. -/
def readFailure : IO.Error → String
  | .noFileOrDirectory .. => "No such file or directory (os error 2)"
  | .permissionDenied .. => "Permission denied (os error 13)"
  | .inappropriateType .. => "Is a directory (os error 21)"
  | e => toString e

/-- The contents of the image file that the command line names, if it names one. -/
def imageFile (args : List String) : IO (Except String (Array UInt8)) := do
  match Trace.Request.ofArguments args with
  | .ok (.run { rom := some path, .. }) =>
    try
      let bytes ← IO.FS.readBinFile path
      return .ok bytes.data
    catch e =>
      return .error (readFailure e)
  | _ => return .error "no file was named"

/-- Runs the trace that the command line asks for. -/
def run (args : List String) : IO UInt32 := do
  let file ← imageFile args
  let transcript := Trace.runArguments (fun _ => file) args
  for line in transcript.lines do
    IO.println line
  if let some text := transcript.errorText? then
    IO.eprintln text
  return transcript.exitCode

end RasterIrq.Program

def main (args : List String) : IO UInt32 :=
  RasterIrq.Program.run args
