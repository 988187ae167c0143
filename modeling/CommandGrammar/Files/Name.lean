/-!
# Parts of a path

A path is a list of parts between slashes. Empty parts and single dots do not count, except that a
path made of them alone has no name; a last part `..` is no name either. A name splits into stem and
extension at its last dot, unless that dot is its first character.
-/

namespace CommandGrammar.Files

/-- The parts of a path between its slashes. -/
def parts (path : String) : List String :=
  (path.toList.splitOn '/').map String.ofList

/-- The last part that names something. -/
def name? (path : String) : Option String :=
  match (parts path).filter (fun p => p != "" && p != ".") |>.getLast? with
  | some ".." => none
  | last => last

/-- The text before the last dot and the text after it. -/
def splitName (name : String) : String × Option String :=
  let backwards := name.toList.reverse
  let extension := (backwards.takeWhile (· != '.')).reverse
  match backwards.dropWhile (· != '.') with
  | [] | [_] => (name, none)
  | _ :: stem => (String.ofList stem.reverse, some (String.ofList extension))

def stem? (path : String) : Option String :=
  (name? path).map fun n => (splitName n).1

def extension? (path : String) : Option String :=
  (name? path).bind fun n => (splitName n).2

end CommandGrammar.Files
