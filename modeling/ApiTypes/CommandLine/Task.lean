import ApiTypes.CommandLine.Arguments
import ApiTypes.CommandLine.Log

/-!
What the work of a run does to its surroundings: lines are reported, texts are printed, and a file is
opened, which empties it, before a text is written to it. Each of these but the first may fail, and
what was done before a failure stays done.
-/

namespace ApiTypes.CommandLine

inductive Stop where
  | reported (error : Error)
  | crashed (crash : Crash)

/-- Errors are reported, but an invalid address and the misuse of a malformed description break the
run off. -/
def Stop.ofError : Error → Stop
  | .invalidAddress _ => .crashed .address
  | .malformed cause => .crashed (.malformed cause)
  | error => .reported error

structure Surroundings where
  verbose : Bool := false
  log : List LogLine := []
  output : String := ""
  /-- The files that were created or changed, with what is in them now. -/
  files : List (String × String) := []
  session : Session := {}

def Surroundings.put (surroundings : Surroundings) (path text : String) : Surroundings :=
  { surroundings with
    files := surroundings.files.filter (fun file => file.1 != path) ++ [(path, text)] }

abbrev Task := EStateM Stop Surroundings

namespace Task

def report (lines : List LogLine) : Task Unit :=
  modify fun surroundings =>
    { surroundings with log :=
        surroundings.log ++ lines.filter fun line => surroundings.verbose || !line.isDetail }

def attempt {α : Type} : Except Error α → Task α
  | .ok value => pure value
  | .error error => throw (.ofError error)

def guarded {α : Type} : Except Crash α → Task α
  | .ok value => pure value
  | .error crash => throw (.crashed crash)

def spell (world : World) (text : String) : Task Unit :=
  guarded (if world.encoding.spells text then .ok () else .error .outputEncoding)

def print (console : Console) (world : World) (text : String) : Task Unit := do
  spell world (console.plain text)
  modify fun surroundings =>
    { surroundings with output := surroundings.output ++ console.plain text }

def writeError? (world : World) (path : String) : Option FileError :=
  match world.entry path with
  | .ok (.file _) => none
  | .ok .directory => some .directory
  | .error .absent =>
    -- A new file needs a directory to be in.
    match world.entry (Path.parent path) with
    | .ok .directory => none
    | .ok (.file _) => some .throughFile
    | .error cause => some cause
  | .error cause => some cause

def openFile (world : World) (path : String) : Task Unit := do
  guarded (match writeError? world path with
    | some cause => .error (.file cause)
    | none => .ok ())
  modify fun surroundings => surroundings.put path ""

def write (world : World) (path text : String) : Task Unit := do
  spell world text
  modify fun surroundings => surroundings.put path text

def deliver (console : Console) (world : World) (output : Option String) (text : String) :
    Task Unit :=
  match output with
  | none => print console world text
  | some path => do
    openFile world path
    write world path text

end Task

end ApiTypes.CommandLine
