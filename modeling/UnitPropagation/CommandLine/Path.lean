import UnitPropagation.Text

namespace UnitPropagation
namespace CommandLine

/-!
# Paths

A path is a list of names between slashes.  Empty names and single dots are passed over.
-/

/-- The names of a path.  Among them may be empty names and single dots, which lead nowhere. -/
def segments (path : String) : List String :=
  (Text.split (· = '/') path.toList).map String.ofList

/-- The name to which a path leads, unless it leads nowhere or upwards. -/
def fileName? (path : String) : Option String :=
  ((segments path).filter fun name => name ≠ "" && name ≠ ".").getLast?.filter (· ≠ "..")

/-- What stands behind the last dot of a name which does not begin with it. -/
def extensionOfName? (name : String) : Option String :=
  let reversed := name.toList.reverse
  let extension := reversed.takeWhile (· ≠ '.')
  match reversed.dropWhile (· ≠ '.') with
  | [] | [_] => none
  | _ :: _ => some (String.ofList extension.reverse)

def extension? (path : String) : Option String :=
  (fileName? path).bind extensionOfName?

end CommandLine
end UnitPropagation
