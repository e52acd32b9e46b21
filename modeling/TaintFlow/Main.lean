/-
The command line.
-/
import TaintFlow.Command.Session

open TaintFlow.Command

/-- The error of a file as the system gives it.  Some numbers of errors come as negative
words. -/
def fileError (error : IO.Error) : FileError :=
  let ofWord (code : UInt32) (reason : String) : FileError :=
    .ofCode (if code < 0x80000000 then code.toNat else (-code).toNat) reason
  match error with
  | .alreadyExists _ code reason | .invalidArgument _ code reason
  | .permissionDenied _ code reason | .resourceExhausted _ code reason
  | .inappropriateType _ code reason | .noSuchThing _ code reason
  | .interrupted _ code reason | .noFileOrDirectory _ code reason
  | .otherError code reason | .resourceBusy code reason | .resourceVanished code reason
  | .unsupportedOperation code reason | .hardwareFault code reason
  | .unsatisfiedConstraints code reason | .illegalOperation code reason
  | .protocolError code reason | .timeExpired code reason => ofWord code reason
  | .unexpectedEof => .other "unexpected end of file"
  | .userError reason => .other reason

/-- The text of the file that the arguments ask for. -/
def requestedText (path : String) : IO (Except FileError String) := do
  try
    let bytes ← IO.FS.readBinFile path
    return decode bytes
  catch error => return .error (fileError error)

def main (texts : List String) : IO UInt32 := do
  let text ←
    match (Arguments.ofTexts? texts).bind Arguments.path with
    | some path => requestedText path
    | none => pure (.error .notFound)
  let outcome := run texts (fun _ => text) (← IO.getEnv "RUST_LOG")
  for line in outcome.log do
    IO.eprintln line
  IO.print outcome.output
  IO.eprint outcome.errors
  return outcome.exit.toUInt32
