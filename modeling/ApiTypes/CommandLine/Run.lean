import ApiTypes.CommandLine.Task
import ApiTypes.CommandLine.Trace
import ApiTypes.Source

/-!
A run of the program against a world. Its sources are worked on one after the other; their texts are
printed or written to a file when all of them are done.
-/

namespace ApiTypes.CommandLine

/-- A value as the command line in the file header shows it: what is there by its name, any other
as it is. -/
def shown (world : World) (value : String) : Except FileError String := do
  let isThere ← world.look (Path.normal value)
  return if isThere then Path.name value else value

def shownPath (world : World) (path : String) : Except FileError String := do
  let isThere ← world.look path
  return if isThere then Path.name path else Path.absolute world.directory path

def shownOption (world : World) (name : String) : Option String → Except FileError (List String)
  | none => .ok []
  | some path => return [name, ← shownPath world path]

/-- The command line in the file header: the sources, then the options that are set. -/
def headerLine (world : World) (arguments : Arguments) : Except FileError String := do
  let sources ← arguments.sources.mapM (shown world)
  let config ← shownOption world "--config" arguments.config
  let enums := arguments.enums.map fun wanted => if wanted then "--enum" else "--no-enum"
  let format := if arguments.format then ["--format"] else []
  let output ← shownOption world "--output" arguments.output
  let verbose := if arguments.verbose then ["--verbose"] else []
  return String.intercalate " " ([Generation.programName] ++ sources ++ config ++ enums.toList ++
    format ++ output ++ verbose)

def headerIfWanted (world : World) (arguments : Arguments) (settings : Settings) :
    Except FileError String :=
  if settings.generationComment.isTruthy then headerLine world arguments else .ok ""

def readSettings (world : World) (path : String) : Except Crash Settings :=
  match world.entry path with
  | .error cause => .error (.file cause)
  | .ok .directory => .error (.file .directory)
  | .ok (.file content) =>
    match world.encoding.decode? content with
    | none => .error .settingsEncoding
    | some text =>
      match Json.read text with
      | .error .grammar => .error .settingsGrammar
      | .error .longInteger => .error .settingsInteger
      | .ok value => (Settings.ofJson value).mapError .malformed

/-- The settings of a run: those of the file, with the options laid over them. -/
def effectiveSettings (world : World) (arguments : Arguments) : Except Crash Settings := do
  let settings ← (arguments.config.map (readSettings world)).getD (.ok {})
  let settings :=
    match arguments.enums with
    | some wanted => { settings with emitEnums := .bool wanted }
    | none => settings
  if arguments.format then settings.withFormatting.mapError .malformed else return settings

def skippedLines (analysis : Analysis) : List LogLine :=
  analysis.skipped.map fun (operation, parameter) =>
    .warning .program ("SKIPPED " ++ operation.method.map Char.toUpper ++ " " ++ operation.path ++
      ": " ++ parameter.describe 120)

def loadLine (location : String) : LogLine :=
  .detail .loader ((if Source.isUrl location then "Fetching " else "Reading ") ++ location)

/-- The warnings of a session after those of an earlier one. -/
def formatterLines (earlier later : Session) : List LogLine :=
  (later.warnings.drop earlier.warnings.length).map fun warning =>
    .warning .formatter warning.message

def generate (settings : Settings) (commandLine : String) (analysis : Analysis) : Task String := do
  let before := (← get).session
  let (result, session) := Generation.ofAnalysis settings commandLine before analysis
  modify fun surroundings => { surroundings with session }
  Task.report (formatterLines before session)
  Task.attempt result

def runSource (world : World) (settings : Settings) (header : Except FileError String)
    (location : String) : Task String := do
  Task.report [loadLine location]
  let members ← Task.attempt (Source.load world location)
  Task.report (analysisLines (.object members))
  let analysis ← Task.attempt (Analysis.ofJson (.object members))
  Task.report (skippedLines analysis)
  Task.report (renderLines settings.emitEnums.isTruthy 0 analysis.blocks)
  -- The header is made after the parts of the file, so that an error in them comes first.
  let _ ← Task.attempt (Generation.texts settings analysis)
  let commandLine ← Task.guarded (header.mapError .file)
  generate settings commandLine analysis

/-- The texts for sources in order, up to the first that stops the run. -/
def runSources (world : World) (settings : Settings) (header : Except FileError String) :
    List String → Task (List String)
  | [] => return []
  | location :: locations => do
    let text ← runSource world settings header location
    let texts ← runSources world settings header locations
    return text :: texts

def compose (world : World) (arguments : Arguments) : Task String := do
  let settings ← Task.guarded (effectiveSettings world arguments)
  let header := headerIfWanted world arguments settings
  let texts ← runSources world settings header arguments.sources
  return String.intercalate "\n" texts

def work (console : Console) (world : World) (arguments : Arguments) : Task Unit := do
  Task.deliver console world arguments.output (← compose world arguments)

inductive Ending where
  | done
  | stopped (stop : Stop)
  /-- The words of the command line are not used as they are meant. -/
  | misused

structure Outcome where
  ending : Ending
  surroundings : Surroundings

namespace Outcome

def exitCode (outcome : Outcome) : Nat :=
  match outcome.ending with
  | .done => 0
  | .stopped _ => 1
  | .misused => 2

def output (outcome : Outcome) : String :=
  outcome.surroundings.output

def files (outcome : Outcome) : List (String × String) :=
  outcome.surroundings.files

/-- A text as it is reported: a surrogate that stands alone is shown by its escape. -/
def reportedText (text : String) : String :=
  String.ofList (text.toList.flatMap fun c =>
    if Text.isLoneSurrogate c then ['\\', 'u'] ++ Text.hexDigits 4 (Text.codePoint c) else [c])

def errorText (console : Console) (outcome : Outcome) : String :=
  let lines := outcome.surroundings.log.map (·.text)
  let last :=
    match outcome.ending with
    | .stopped (.reported error) => [console.plain ("Error: " ++ error.message)]
    | _ => []
  reportedText (String.join ((lines ++ last).map (· ++ "\n")))

end Outcome

def start (world : World) (verbose : Bool) : Surroundings :=
  { verbose, session := { script := world.script } }

def outcomeOf (world : World) (verbose : Bool) (task : Task Unit) : Outcome :=
  match task (start world verbose) with
  | .ok () surroundings => ⟨.done, surroundings⟩
  | .error stop surroundings => ⟨.stopped stop, surroundings⟩

def run (console : Console) (world : World) (words : List String) : Outcome :=
  match console.read world words with
  | .call arguments => outcomeOf world arguments.verbose (work console world arguments)
  | .answer text => outcomeOf world false (Task.print console world text)
  | .broken crash => outcomeOf world false (throw (.crashed crash))
  | .misuse => ⟨.misused, start world false⟩

end ApiTypes.CommandLine
