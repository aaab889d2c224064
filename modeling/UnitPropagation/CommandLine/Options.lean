import UnitPropagation.Numeral
import UnitPropagation.Text

namespace UnitPropagation
namespace CommandLine

/-!
# Arguments

The program takes the path of one instance.  An option is a long name or a letter,
letters may be joined behind one hyphen, and `--` ends the options.  The option
`-a` or `--assume` takes a comma-separated list of literals and may be repeated;
its value may begin with a hyphen.  The other options are flags, each of which may
be given once.
-/

/-- An option without a value.  The letters `-v` and `-s` stand for `verbose`, which logs what
happens, and `logStatistics`, which reports statistics; the others have no letter and leave the time
or the place in the program out of the log. -/
inductive Flag where
  | verbose
  | logStatistics
  | omitTimestamp
  | omitCallSite
deriving DecidableEq, Repr

namespace Flag

def ofName? : String → Option Flag
  | "verbose" => some .verbose
  | "log-statistics" => some .logStatistics
  | "omit-timestamp" => some .omitTimestamp
  | "omit-call-site" => some .omitCallSite
  | _ => none

def ofLetter? : Char → Option Flag
  | 'v' => some .verbose
  | 's' => some .logStatistics
  | _ => none

end Flag

/-- What the arguments ask for.  The assumptions are the codes of the literals to assume, in their
order; it does not show here whether the instance has such literals. -/
structure Options where
  path : String
  assumptions : List Int
  flags : List Flag
deriving DecidableEq, Repr

def Options.has (options : Options) (flag : Flag) : Bool :=
  options.flags.contains flag

/-- What the next argument may be: anything, the value of the option before, or a path only, as
the options have ended. -/
inductive Expected where
  | anything
  | value
  | path
deriving DecidableEq, Repr

/-- What the arguments so far ask for, and what may come next. -/
structure Scan where
  path? : Option String
  assumptions : List Int
  flags : List Flag
  expected : Expected
deriving DecidableEq, Repr

namespace Scan

def start : Scan :=
  ⟨none, [], [], .anything⟩

/-- Takes a path, unless there is one already.  The empty text is no path. -/
def takePath (scan : Scan) (path : String) : Option Scan :=
  if scan.path?.isSome || path.isEmpty then none else some { scan with path? := some path }

/-- Takes a flag, unless it was given before, be it by its name or by its letter. -/
def takeFlag (scan : Scan) (flag : Flag) : Option Scan :=
  if scan.flags.contains flag then none else some { scan with flags := scan.flags ++ [flag] }

/-- Takes the value of the option for assumptions.  Each of the numbers between its commas has to
fit into 32 bits. -/
def takeValue (scan : Scan) (value : String) : Option Scan := do
  let codes ← (Text.split (· = ',') value.toList).mapM Numeral.int32?
  return { scan with assumptions := scan.assumptions ++ codes, expected := .anything }

/-- Takes the option with a long name, whose value may be given behind an equals sign. -/
def takeLong (scan : Scan) (text : List Char) : Option Scan :=
  let name := String.ofList (text.takeWhile (· ≠ '='))
  match text.dropWhile (· ≠ '=') with
  | [] =>
    if name = "assume" then some { scan with expected := .value }
    else do scan.takeFlag (← Flag.ofName? name)
  | _ :: value => if name = "assume" then scan.takeValue (String.ofList value) else none

/-- Takes joined letters.  The letter of the option for assumptions makes the rest its
value, perhaps behind an equals sign, or else the next argument. -/
def takeLetters (scan : Scan) : List Char → Option Scan
  | [] => some scan
  | 'a' :: [] => some { scan with expected := .value }
  | 'a' :: '=' :: value => scan.takeValue (String.ofList value)
  | 'a' :: value => scan.takeValue (String.ofList value)
  | letter :: letters => do
    let flag ← Flag.ofLetter? letter
    takeLetters (← scan.takeFlag flag) letters

def take (scan : Scan) (argument : String) : Option Scan :=
  match scan.expected with
  | .value => scan.takeValue argument
  | .path => scan.takePath argument
  | .anything =>
    match argument.toList with
    | ['-', '-'] => some { scan with expected := .path }
    | '-' :: '-' :: name => scan.takeLong name
    | '-' :: letter :: letters => scan.takeLetters (letter :: letters)
    | _ => scan.takePath argument

/-- The options of a finished scan.  There has to be a path, and no option may lack its value. -/
def options? (scan : Scan) : Option Options :=
  match scan.path?, scan.expected with
  | some path, .anything | some path, .path =>
    some { path, assumptions := scan.assumptions, flags := scan.flags }
  | _, _ => none

end Scan

/-- The options given by arguments, if they are used as they should be. -/
def Options.ofArguments? (arguments : List String) : Option Options := do
  (← arguments.foldlM Scan.take .start).options?

end CommandLine
end UnitPropagation
