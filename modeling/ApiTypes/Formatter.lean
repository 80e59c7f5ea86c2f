import ApiTypes.Json.Display
import ApiTypes.Schema.Basic
import ApiTypes.Settings
import ApiTypes.Text.Blank

/-!
The formatting step. A command is asked once whether it is there; the code is then piped through
it. Code that cannot be formatted is left as it is.
-/

namespace ApiTypes

inductive RunOutcome where
  | exited (code : Int) (stdout stderr : String)
  /-- The command did not run to its end, for the reason given. -/
  | failed (text : String)
  deriving DecidableEq, Repr

/-- A run of a command: its words, its time limit in seconds and what is piped into it. -/
structure Call where
  command : List Json
  timeout : Nat
  input : Option String := none

inductive FormatWarning where
  | notFound (command : String)
  | failed (text : String)
  | exited (code : Int) (stderr : String)
  deriving DecidableEq, Repr

namespace FormatWarning

def message : FormatWarning → String
  | .notFound command => "Formatter " ++ command ++ " not found, leaving output unformatted"
  | .failed text => "Formatter failed: " ++ text
  | .exited code stderr =>
    "Formatter exited with " ++ toString code ++ ": " ++
      String.ofList (Text.trim stderr.toList)

end FormatWarning

/-- The words of a command as a key for what is known about it. -/
abbrev CommandKey := List PropertyName

namespace CommandKey

def ofJson (command : Json) : Except Malformed CommandKey := do
  let words ← command.elements
  words.mapM PropertyName.ofJson

def same : CommandKey → CommandKey → Bool
  | [], [] => true
  | a :: as, b :: bs => a.same b && same as bs
  | _, _ => false

end CommandKey

/-- A session of the formatter: which commands are known to be there or not, the runs so far, and
the outcomes of those to come. -/
structure Session where
  known : List (CommandKey × Bool) := []
  calls : List Call := []
  script : List RunOutcome := []
  warnings : List FormatWarning := []

namespace Session

def run (session : Session) (call : Call) : RunOutcome × Session :=
  let session := { session with calls := session.calls ++ [call] }
  match session.script with
  | [] => (.failed "script exhausted", session)
  | outcome :: rest => (outcome, { session with script := rest })

def warn (session : Session) (warning : FormatWarning) : Session :=
  { session with warnings := session.warnings ++ [warning] }

def found : RunOutcome → Bool
  | .exited code _ _ => code == 0
  | .failed _ => false

/-- Whether a command is there. The version probe is run for the first question only. -/
def isKnownOrProbe (session : Session) (key : CommandKey) (words : List Json) : Bool × Session :=
  match session.known.find? fun (k, _) => k.same key with
  | some (_, available) => (available, session)
  | none =>
    let (outcome, session) :=
      session.run { command := words ++ [.string "--version"], timeout := 30 }
    (found outcome, { session with known := session.known ++ [(key, found outcome)] })

def isAvailable (session : Session) (options : FormatterOptions) :
    Except Malformed Bool × Session :=
  if !options.command.isTruthy then (.ok false, session)
  else
    match CommandKey.ofJson options.command, options.command.elements with
    | .ok key, .ok words =>
      let (available, session) := session.isKnownOrProbe key words
      (.ok available, session)
    | .error cause, _ => (.error cause, session)
    | _, .error cause => (.error cause, session)

def commandLine (command : Json) : Except Malformed String := do
  let words ← command.elements
  let texts ← words.mapM fun
    | .string s => .ok s
    | _ => .error Malformed.join
  return String.intercalate " " texts

def formatWords (options : FormatterOptions) (words : List Json) : List Json :=
  words ++ [.string "--parser", .string "typescript", .string "--print-width",
    .string options.printWidth.plain]

/-- The code as the command of the options formats it; the code itself if the command is not
there or its run fails. -/
def format (session : Session) (options : FormatterOptions) (code : String) :
    Except Malformed String × Session :=
  match session.isAvailable options with
  | (.error cause, session) => (.error cause, session)
  | (.ok false, session) =>
    match commandLine options.command with
    | .error cause => (.error cause, session)
    | .ok line => (.ok code, session.warn (.notFound line))
  | (.ok true, session) =>
    match options.command.elements with
    | .error cause => (.error cause, session)
    | .ok words =>
      let (outcome, session) :=
        session.run { command := formatWords options words, timeout := 60, input := some code }
      match outcome with
      | .failed text => (.ok code, session.warn (.failed text))
      | .exited status stdout stderr =>
        if status = 0 then (.ok stdout, session)
        else (.ok code, session.warn (.exited status stderr))

end Session

end ApiTypes
