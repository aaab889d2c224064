import Std.Time.Format
import UnitPropagation.CommandLine.Run

/-!
# The program

The program around `UnitPropagation.CommandLine.course`: it opens and reads the
instance, prints what is told and exits with the status.
-/

namespace UnitPropagation
namespace Main

open CommandLine

/-- The wording of an error of the system. -/
def describe : IO.Error → String
  | .noFileOrDirectory _ code _ => s!"No such file or directory (os error {code})"
  | .inappropriateType _ code _ => s!"Not a directory (os error {code})"
  | .permissionDenied _ code _ => s!"Permission denied (os error {code})"
  | other => toString other

/-- The pieces which a file hands out up to its end, and whether reading broke off before it. -/
partial def pieces (file : IO.FS.Handle) (before : Array (List UInt8)) :
    IO (Array (List UInt8) × Bool) := do
  match ← EIO.toBaseIO (file.read 65536) with
  | .error _ => return (before, true)
  | .ok bytes =>
    if bytes.isEmpty then return (before, false)
    else pieces file (before.push bytes.toList)

/-- The source for reading a file, or the reason why it cannot be opened. -/
def access (path : String) : IO (Except String Dimacs.Source) := do
  match ← EIO.toBaseIO (IO.FS.Handle.mk path .read) with
  | .error reason => return .error (describe reason)
  | .ok file =>
    let (pieces, broken) ← pieces file #[]
    return .ok { pieces := pieces.toList, broken }

def time : IO String := do
  let now ← Std.Time.Timestamp.now
  return (Std.Time.DateTime.ofTimestampWithZone now .UTC).format "uuuu-MM-dd'T'HH:mm:ssXXX"

/-- Runs the program with arguments that are used as they should be.  An entry is stamped when it
is printed. -/
def run (options : Options) : IO UInt32 := do
  let opened ←
    if options.isSupported then access options.path
    else pure (.error "the file is not supported")
  let course := CommandLine.course options false opened
  for entry in course.entries do
    let stamp : Stamp := { time := ← time, site := "UnitPropagation" }
    for line in entry.lines options stamp do
      IO.println line
  return course.exit.toUInt32

end Main
end UnitPropagation

/-- Runs the program. -/
def main (arguments : List String) : IO UInt32 := do
  match UnitPropagation.CommandLine.Options.ofArguments? arguments with
  | some options => UnitPropagation.Main.run options
  | none =>
    IO.eprintln "usage: [-v] [-s] [--omit-timestamp] [--omit-call-site] [-a LITERALS]... FILE"
    return UnitPropagation.CommandLine.usageStatus.toUInt32
