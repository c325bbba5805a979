import SchemaLayout.Command.Options
import SchemaLayout.Command.Run

/-!
# The program

`generate` writes the output of a run as JSON, `check` prints an overview of it.
-/
namespace SchemaLayout

/-- Whether an action ends without an error. -/
def succeeds (action : IO α) : IO Bool := do
  match ← action.toBaseIO with
  | .ok _ => return true
  | .error _ => return false

/-- Access to the files of the system. -/
def systemFiles : FileAccess IO where
  isFile path := succeeds (IO.FS.readBinFile path)
  read path := do
    match ← (IO.FS.readFile path).toBaseIO with
    | .ok text => return some text
    | .error _ => return none
  makeDirectories path := succeeds (IO.FS.createDirAll path)
  write path text := succeeds (IO.FS.writeFile path text)

/-- Runs a command and gives what is to be printed. -/
def runCommand (options : Options) : ExceptT RunError IO (Option String) := do
  let generated ← systemFiles.generate options.input options.config?
  match options.command with
  | .generate => systemFiles.writeOutput generated options.output?
  | .check => return some generated.summary

end SchemaLayout

open SchemaLayout in
/-- Runs the command of the arguments. -/
def main (arguments : List String) : IO UInt32 := do
  match Options.parse arguments with
  | .error cause =>
    IO.eprintln s!"error: {cause.message}"
    return 2
  | .ok options =>
    match ← (runCommand options).run with
    | .ok text? =>
      if let some text := text? then IO.println text
      return 0
    | .error cause =>
      IO.eprintln s!"Error: {cause.context}\n\nCaused by:\n    {cause.message}"
      return 1
