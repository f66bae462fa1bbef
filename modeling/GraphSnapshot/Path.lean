/-! Paths as they are written: names between slashes, where one point stays and two points lead to the
directory around. A path with a slash in front starts at the root. A text that is empty, too long or
holds a zero character is no path. -/
namespace GraphSnapshot

inductive Step where
  | stay
  | up
  | down (name : String)
deriving DecidableEq

/-- Nothing is named between two slashes in a row. -/
def Step.ofName? (name : String) : Option Step :=
  if name = "" then none
  else if name = "." then some .stay
  else if name = ".." then some .up
  else some (.down name)

structure Path where
  absolute : Bool
  /-- What stands between the slashes. -/
  names : List String

def maxNameSize : Nat := 255

def maxPathSize : Nat := 4095

namespace Path

def ofText? (text : String) : Option Path :=
  let names := text.splitOn "/"
  if text = "" ∨ maxPathSize < text.utf8ByteSize ∨ '\x00' ∈ text.toList then none
  else if names.all fun name => name.utf8ByteSize ≤ maxNameSize then
    some ⟨names.head? = some "", names⟩
  else none

def steps (path : Path) : List Step := path.names.filterMap Step.ofName?

/-- A slash at the end asks for a directory. -/
def endsInSlash (path : Path) : Bool := path.names.getLast? = some ""

def endsInName (path : Path) : Bool :=
  match path.steps.getLast? with
  | some (.down _) => true
  | _ => false

/-- Names without the slashes and single points behind them. -/
def trim (names : List String) : List String :=
  (names.reverse.dropWhile fun name => name = "" ∨ name = ".").reverse

def directoryOf (text : String) : String :=
  let names := text.splitOn "/"
  let absolute := names.head? = some "" ∧ names.tail ≠ []
  let steps := trim (if absolute then names.tail else names)
  let inside := String.intercalate "/" (trim steps.dropLast)
  if absolute ∧ steps ≠ [] then "/" ++ inside
  else if inside = "" then "." else inside

end Path
end GraphSnapshot
