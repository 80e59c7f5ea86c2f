import ApiTypes.CommandLine.Run
import ApiTypes.CommandLine.Words
import ApiTypes.Web.Page

/-!
The program. It reads the files that its arguments name, and it has no web to fetch from and runs
no commands, so that formatting leaves the output as it is.
-/

open ApiTypes

/-- Whether a code of the file system is an error number, or the negative of one. -/
def isErrorNumber (number code : UInt32) : Bool :=
  code == number || code == 0 - number

def readEntry (path : String) : IO (Except FileError Entry) := do
  try
    let content ← IO.FS.readBinFile path
    return .ok (.file content)
  catch
    | .inappropriateType _ code _ =>
      return if isErrorNumber 20 code then .error .throughFile else .ok .directory
    | .invalidArgument _ code _ =>
      return if isErrorNumber 36 code then .error .nameTooLong else .error .absent
    | _ => return .error .absent

def watchedPaths (words : CommandLine.Words) : List String :=
  let options := words.optionPaths.map Path.direct
  words.sources.map Path.normal ++ options ++ options.map Path.parent

def readWorld (words : CommandLine.Words) : IO World := do
  let entries ← (watchedPaths words).mapM fun path => do
    return (path, ← readEntry (if path.isEmpty then "." else path))
  return {
    directory := (← IO.currentDir).toString
    entry := fun path => (entries.lookup path).getD (.error .absent)
    fetch := Web.fetch []
    script := [] }

def main (arguments : List String) : IO UInt32 := do
  let world ← readWorld ((CommandLine.Words.parse? arguments).getD {})
  let console := CommandLine.Console.standard
  let outcome := CommandLine.run console world arguments
  (← IO.getStderr).putStr (outcome.errorText console)
  (← IO.getStdout).putStr outcome.output
  for (path, text) in outcome.files do
    IO.FS.writeFile path text
  return UInt32.ofNat outcome.exitCode
