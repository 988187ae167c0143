import CommandGrammar.Files.Basic
import CommandGrammar.Files.Name

/-!
# Directory trees

A tree lists the directories and files below a working directory, each by the names that lead to it.
`Tree.look` follows a path through it part by part: a part can only be taken from a directory, `.`
and empty parts stay there, and `..` goes up. What lies above the working directory is directories
with nothing else in them.
-/

namespace CommandGrammar.Files

structure Tree where
  directories : List (List String)
  files : List (List String × ByteArray)

namespace Tree

/-- The names in a path, as a listing gives it. -/
def names (path : String) : List String :=
  (parts path).filter (fun p => p != "" && p != ".")

def ofListing (directories : List String) (files : List (String × ByteArray)) : Tree where
  directories := directories.map names
  files := files.map fun (path, content) => (names path, content)

/-- The entry that names lead to from the working directory. A directory exists if it is listed or
something is listed below it. -/
def entry? (t : Tree) (names : List String) : Option Entry :=
  match t.files.find? (·.1 == names) with
  | some (_, content) => some (.file content)
  | none =>
    if names.isEmpty ∨ t.directories.any (names.isPrefixOf ·) ∨
        t.files.any (fun f => names.isPrefixOf f.1) then some .directory
    else none

/-- A place on the way along a path: inside the tree at some names, or in a directory outside. -/
inductive Position where
  | inside (names : List String)
  | outside

/-- Where a path ends, or the part at which it leads no further and the parts left after it. -/
inductive Walk where
  | found (p : Position) (e : Entry)
  | absent (directory : List String) (name : String) (rest : List String)
  | fault (f : Fault)

/-- The longest name, in bytes. -/
def longestName : Nat := 255

/-- The longest path, in bytes. -/
def longestPath : Nat := 4095

/-- Follows the parts of a path from a position. -/
def follow (t : Tree) : Position → Entry → List String → Walk
  | p, e, [] => .found p e
  | _, .file _, _ :: _ => .fault .notDirectory
  | p, .directory, part :: rest =>
    if part = "" ∨ part = "." then follow t p .directory rest
    else if part = ".." then
      match p with
      | .inside (n :: ns) => follow t (.inside (n :: ns).dropLast) .directory rest
      | _ => follow t .outside .directory rest
    else if longestName < part.utf8ByteSize then .fault .nameTooLong
    else
      match p with
      | .outside => .fault .notFound
      | .inside ns =>
        match t.entry? (ns ++ [part]) with
        | some e => follow t (.inside (ns ++ [part])) e rest
        | none => .absent ns part rest

/-- Follows a whole path; one that starts with a slash starts outside the tree. -/
def walk (t : Tree) (path : String) : Walk :=
  if path.toList.any (· == '\x00') then .fault .zeroByte
  else if longestPath < path.utf8ByteSize then .fault .nameTooLong
  else if path = "" then .fault .notFound
  else
    let start : Position := if path.toList.head? = some '/' then .outside else .inside []
    follow t start .directory (parts path)

/-- What stands at a path. -/
def look (t : Tree) (path : String) : Except Fault Entry :=
  match t.walk path with
  | .found _ e => .ok e
  | .absent .. => .error .notFound
  | .fault f => .error f

def toFiles (t : Tree) : Files := ⟨t.look⟩

/-- The tree with a file of the given content at a path, which replaces a file that stood there. -/
def write (t : Tree) (path : String) (content : ByteArray) : Except Fault Tree :=
  match t.walk path with
  | .found (.inside names) (.file _) =>
    .ok { t with files := (names, content) :: t.files.filter (·.1 != names) }
  | .found _ _ => .error .isDirectory
  | .absent directory name [] =>
    .ok { t with files := (directory ++ [name], content) :: t.files }
  | .absent _ _ rest => .error (if rest.all (· == "") then .isDirectory else .notFound)
  | .fault f => .error f

end Tree

end CommandGrammar.Files
