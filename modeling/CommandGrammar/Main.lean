import CommandGrammar.Command.Run

/-!
# The command line of the tool

The tool only ever looks at paths that its command line names, so these are looked at first; the
rest is done by `runTool`.
-/

namespace CommandGrammar

/-- The code of the operating system for a directory in place of a file. -/
def directoryCode : UInt32 := 21

/-- What an error on opening a path says about it. -/
def entryOfError : IO.Error → Except Files.Fault Files.Entry
  | .inappropriateType _ code _ =>
    if code = directoryCode then .ok .directory else .error .notDirectory
  | .invalidArgument .. => .error .nameTooLong
  | _ => .error .notFound

/-- What stands at a path. -/
def lookAt (path : String) : IO (Except Files.Fault Files.Entry) := do
  try
    return .ok (.file (← IO.FS.readBinFile path))
  catch e =>
    return entryOfError e

/-- The texts in a command line that can be paths: words, and values that are attached to options.
-/
def pathsIn (args : List String) : List String :=
  args ++ args.filterMap fun word => (Words.longOption? word).bind (·.2)

end CommandGrammar

open CommandGrammar in
def main (args : List String) : IO UInt32 := do
  let entries ← (pathsIn args).mapM fun path => return (path, ← lookAt path)
  let exit := runTool ⟨fun path => (entries.lookup path).getD (.error .notFound)⟩ args
  IO.print exit.stdout
  IO.eprint exit.stderr
  return exit.code.toUInt32
