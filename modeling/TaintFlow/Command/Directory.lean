/-
The directory in which the command is run.

A path is followed step by step, from the directory, or from the root when it
starts with a slash.  Empty steps and single dots in it stay where they are, and a
double dot leads to the directory above.  A file has nothing inside.  Outside of
the directory only the directories above it are known, and no names in them.
-/
namespace TaintFlow
namespace Command

inductive FileError where
  | notFound
  | isDirectory
  | notDirectory
  | nameTooLong
  | notText
  /-- Any other reason, in the words of the system. -/
  | other (reason : String)
  deriving DecidableEq

def FileError.message : FileError → String
  | notFound => "No such file or directory (os error 2)"
  | isDirectory => "Is a directory (os error 21)"
  | notDirectory => "Not a directory (os error 20)"
  | nameTooLong => "File name too long (os error 36)"
  | notText => "stream did not contain valid UTF-8"
  | other reason => reason

/-- The error that a system gives this number and this reason. -/
def FileError.ofCode (code : Nat) (reason : String) : FileError :=
  match code with
  | 2 => notFound
  | 20 => notDirectory
  | 21 => isDirectory
  | 36 => nameTooLong
  | _ => other (reason ++ " (os error " ++ code.repr ++ ")")

def decode (bytes : ByteArray) : Except FileError String :=
  match String.fromUTF8? bytes with
  | some text => .ok text
  | none => .error .notText

/-- The files of a directory by name. -/
structure Directory where
  files : List (String × ByteArray)

/-- Whether a step of a path stays where it is. -/
def isIdleStep (step : List Char) : Bool := step == [] || step == ['.']

/-- Follows the steps of a path to a file, from the directory or from outside of
it. -/
def Directory.follow (directory : Directory) (inside : Bool) :
    List (List Char) → Except FileError String
  | [] => .error .isDirectory
  | step :: rest =>
    if isIdleStep step then directory.follow inside rest
    else if step = ['.', '.'] then directory.follow false rest
    else
      let name := String.ofList step
      if 255 < name.utf8ByteSize then .error .nameTooLong
      else
        match if inside then directory.files.lookup name else none with
        | none => .error .notFound
        | some bytes => if rest.isEmpty then decode bytes else .error .notDirectory

def Directory.read (directory : Directory) (path : String) : Except FileError String :=
  if path = "" then .error .notFound
  else if 4096 ≤ path.utf8ByteSize then .error .nameTooLong
  else directory.follow (!path.startsWith "/") (path.toList.splitOn '/')

end Command
end TaintFlow
