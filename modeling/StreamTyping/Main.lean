import StreamTyping.CommandLine.Run

/-!
# The command

The system of files and streams that the command runs in. Its log goes to the
standard error, beside the lines that report diagnostics.
-/

namespace StreamTyping

/-- The number of a failure, which the system may give as a negative word. -/
def systemNumber (code : UInt32) : Nat :=
  if code < 0x80000000 then code.toNat else (0 - code).toNat

/-- The number and the words that the system has for a failure. -/
def systemCause? : IO.Error → Option (Nat × String)
  | .alreadyExists _ code words | .invalidArgument _ code words
  | .permissionDenied _ code words | .resourceExhausted _ code words
  | .inappropriateType _ code words | .noSuchThing _ code words
  | .interrupted _ code words | .noFileOrDirectory _ code words
  | .otherError code words | .resourceBusy code words | .resourceVanished code words
  | .unsupportedOperation code words | .hardwareFault code words
  | .unsatisfiedConstraints code words | .illegalOperation code words
  | .protocolError code words | .timeExpired code words => some (systemNumber code, words)
  | .unexpectedEof | .userError _ => none

/-- The cause of a failure of the system. -/
def fileErrorOf (e : IO.Error) : FileError :=
  match systemCause? e with
  | some (2, _) => .system "No such file or directory (os error 2)"
  | some (20, _) => .system "Not a directory (os error 20)"
  | some (21, _) => .system "Is a directory (os error 21)"
  | some (36, _) => .system "File name too long (os error 36)"
  | some (code, words) => .system s!"{words} (os error {code})"
  | none => .system (toString e)

/-- What comes of an access to a file. -/
def accessFile {α : Type} (access : IO α) : IO (Except FileError α) := do
  try
    return .ok (← access)
  catch e => return .error (fileErrorOf e)

/-- Puts a text into a file at once. -/
def writeFile (path text : String) : IO Unit :=
  IO.FS.withFile path .write fun file => do
    file.putStr text
    file.flush

/-- Puts a text on a stream at once, unless that refuses it. -/
def putText (stream : IO.FS.Stream) (text : String) : IO Bool := do
  try
    stream.putStr text
    stream.flush
    return true
  catch _ => return false

/-- The system of files and streams. -/
def terminal : System IO where
  read path := accessFile (IO.FS.readBinFile path)
  write path text := accessFile (writeFile path text)
  print text := do putText (← IO.getStdout) text
  complain text := do putText (← IO.getStderr) text
  log level entry := do
    if level.shows entry.level then
      let name := if entry.level = .info then " INFO" else "DEBUG"
      let _ ← putText (← IO.getStderr) s!"{name} {commandName}: {entry.text}\n"

end StreamTyping

/-- The command. -/
def main (arguments : List String) : IO UInt32 := do
  return UInt32.ofNat (← StreamTyping.runCommand StreamTyping.terminal arguments)
