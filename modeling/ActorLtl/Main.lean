/-
# The program

Runs the command line on the files, the clock and the standard output of the machine.  This
host starts no other programs, so `nba` finds Owl but no formula gets an automaton; all other
commands are complete.
-/

import ActorLtl.CommandLine

namespace ActorLtl
namespace LocalHost

/-- The cause of a failed access, with the system's number for it. -/
def fileError : IO.Error → FileError
  | .alreadyExists _ number description => .system description number.toNat
  | .otherError number description => .system description number.toNat
  | .resourceBusy number description => .system description number.toNat
  | .resourceVanished number description => .system description number.toNat
  | .unsupportedOperation number description => .system description number.toNat
  | .hardwareFault number description => .system description number.toNat
  | .unsatisfiedConstraints number description => .system description number.toNat
  | .illegalOperation number description => .system description number.toNat
  | .protocolError number description => .system description number.toNat
  | .timeExpired number description => .system description number.toNat
  | .interrupted _ number description => .system description number.toNat
  | .noFileOrDirectory .. => .notFound
  | .invalidArgument _ number description => .system description number.toNat
  | .permissionDenied .. => .permissionDenied
  | .resourceExhausted _ number description => .system description number.toNat
  | .inappropriateType _ number description => .system description number.toNat
  | .noSuchThing _ number description => .system description number.toNat
  | .unexpectedEof => .system "unexpected end of file" 0
  | .userError description => .system description 0

/-- The text of a file. -/
def readText (path : String) : IO (Except FileError String) := do
  match ← (IO.FS.readBinFile path).toBaseIO with
  | .error cause => return .error (fileError cause)
  | .ok bytes =>
      match String.fromUTF8? bytes with
      | some text => return .ok text
      | none => return .error .notUtf8

/-- Whether there is anything at a path, may it be read or not. -/
def pathExists (path : String) : IO Bool := do
  match ← (IO.FS.Handle.mk path .read).toBaseIO with
  | .ok _ => return true
  | .error cause => return fileError cause = .permissionDenied

/-- Writes a file. -/
def writeText (path text : String) : IO (Except FileError Unit) := do
  match ← (IO.FS.writeFile path text).toBaseIO with
  | .ok () => return .ok ()
  | .error cause => return .error (fileError cause)

/-- The first file of this name in the directories of the search path. -/
def search (name : String) : IO (Option String) := do
  let directories := ((← IO.getEnv "PATH").getD "").splitOn ":"
  (directories.map (· ++ "/" ++ name)).findM? pathExists

/-- The machine that the program runs on. -/
def host : Host IO where
  files := { readText, pathExists, writeText }
  print text := do
    let out ← IO.getStdout
    out.putStr text
    out.flush
  clock := IO.monoMsNow
  search
  launch _ _ _ := return .notStarted "other programs cannot be started"

end LocalHost
end ActorLtl

/-- Runs the program with its arguments. -/
def main (arguments : List String) : IO UInt32 := do
  return (← (ActorLtl.CommandLine.run ActorLtl.LocalHost.host arguments).run 0).1
