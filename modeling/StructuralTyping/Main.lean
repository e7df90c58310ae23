import StructuralTyping.CommandLine

/-!
# The program

Reads the files that the arguments ask for, runs the command line and prints
what it leaves behind.
-/

namespace StructuralTyping

/-- Reads a file, if it can be read. -/
def readFileAt (path : String) : IO (Except FileProblem String) := do
  try
    let content ← IO.FS.readFile path
    return .ok content
  catch
    | .noFileOrDirectory _ _ _ => return .error .missing
    | .inappropriateType _ _ _ => return .error .isDirectory
    | _ => return .error .missing

/-- Reads the files at the given paths. -/
def readFilesAt (paths : List String) : IO (List (String × Except FileProblem String)) :=
  paths.mapM fun path => do return (path, ← readFileAt path)

/-- The files that a command line may read, seen from the working directory. -/
def filesFor (args : List String) : IO Files := do
  let directory := (← IO.currentDir).toString
  let paths :=
    match Command.read args with
    | .ok k => k.reads directory
    | .error _ => []
  let contents ← readFilesAt paths
  return ⟨directory, fun path => (contents.lookup path).getD (.error .missing)⟩

end StructuralTyping

/-- The program. -/
def main (args : List String) : IO UInt32 := do
  let ending := StructuralTyping.runCommandLine args (← StructuralTyping.filesFor args)
  (← IO.getStdout).putStr ending.output
  (← IO.getStderr).putStr ending.errors
  return ending.status.toUInt32
