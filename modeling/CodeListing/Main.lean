import CodeListing.CommandLine.Run

/-! # The program

The outer layer: it reads the files and the standard input that a run looks at,
and writes what the run leaves behind.
-/

namespace CodeListing.CommandLine

def readFile (name : String) : IO (Except ReadProblem ByteArray) := do
  try
    return .ok (← IO.FS.readBinFile name)
  catch problem =>
    match problem with
    | .noFileOrDirectory .. => return .error .notFound
    | .inappropriateType .. => return .error .isDirectory
    | problem => return .error (.other (toString problem))

def systemSources (names : List String) : IO Sources := do
  let files ← names.mapM fun name => do return (name, ← readFile name)
  let file := fun name => (files.lookup name).getD (.error .notFound)
  return { standardInput := .empty, file := file }

end CodeListing.CommandLine

open CodeListing.CommandLine in
def main (arguments : List String) : IO UInt32 := do
  let sources ← systemSources (files arguments)
  let standardInput ←
    if readsStandardInput sources arguments then (← IO.getStdin).readBinToEnd else pure .empty
  let outcome := run { sources with standardInput := standardInput } arguments
  (← IO.getStderr).putStr outcome.errors
  (← IO.getStdout).putStr outcome.output
  return outcome.code
