import AnchorScript.Settings.Layer

namespace AnchorScript

/-!
# Settings from the environment

A variable whose name starts with the program's name and two underscores sets a
key. Names count in lower case, and two more underscores separate the names of
a path. The value is always a text, even an empty one.
-/

namespace Environment

/-- The program's name, which settings files and variables start with. -/
def programName : String := "stlreader"

/-- The separator of names in the name of a variable. -/
def separator : List Char := ['_', '_']

/-- Dots in place of separators, taken from the left. -/
def withDots : List Char → List Char
  | '_' :: '_' :: rest => '.' :: withDots rest
  | character :: rest => character :: withDots rest
  | [] => []

/--
A character in lower case, as far as that makes a letter of names: besides the
capital letters only the sign for kelvins does, which becomes a `k`.
-/
def lowered (character : Char) : Char :=
  if character = '\u212a' then 'k' else character.toLower

/-- The key that a variable sets, if it sets one. -/
def key? (name : String) : Option String :=
  let start := programName.toList ++ separator
  let whole := name.toList.map lowered
  if start.isPrefixOf whole then
    some (String.ofList (withDots (whole.drop start.length)))
  else
    none

/-- The layer of an environment. -/
def layer (environment : List (String × String)) : Layer :=
  environment.filterMap fun given =>
    (key? given.1).map fun key => (key, .text given.2)

end Environment

end AnchorScript
