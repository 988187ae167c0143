/-!
# Looking up paths

The engine asks two things of the files around it: what stands at a path, and what a file holds. A
`Files` answers both; a path that leads nowhere has a fault that says why.
-/

namespace CommandGrammar

namespace Files

inductive Entry where
  | file (content : ByteArray)
  | directory

/-- Why a path cannot be opened. -/
inductive Fault where
  | notFound
  | notDirectory
  | isDirectory
  | nameTooLong
  | zeroByte
  deriving DecidableEq, Repr

def Fault.message : Fault → String
  | .notFound => "No such file or directory (os error 2)"
  | .notDirectory => "Not a directory (os error 20)"
  | .isDirectory => "Is a directory (os error 21)"
  | .nameTooLong => "File name too long (os error 36)"
  | .zeroByte => "file name contained an unexpected NUL byte"

end Files

structure Files where
  look : String → Except Files.Fault Files.Entry

namespace Files

def isFile (files : Files) (path : String) : Bool :=
  match files.look path with
  | .ok (.file _) => true
  | _ => false

def isDirectory (files : Files) (path : String) : Bool :=
  match files.look path with
  | .ok .directory => true
  | _ => false

/-- No files at all. -/
def empty : Files := ⟨fun _ => .error .notFound⟩

end Files

end CommandGrammar
