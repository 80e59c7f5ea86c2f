import ApiTypes.CommandLine.Arguments
import ApiTypes.Text.ControlSequence

/-!
A library of the command line for the program: options in any order among the sources, help on its
use, and texts without control sequences.
-/

namespace ApiTypes.CommandLine

structure Words extends Arguments where
  help : Bool := false
  deriving DecidableEq, Repr

inductive Valued where
  | config
  | output
  deriving DecidableEq, Repr

inductive Flag where
  | enum
  | noEnum
  | format
  | verbose
  | help
  deriving DecidableEq, Repr

inductive Switch where
  | valued (option : Valued)
  | flag (flag : Flag)
  deriving DecidableEq, Repr

namespace Words

def setValue (words : Words) (value : String) : Valued → Words
  | .config => { words with config := some value }
  | .output => { words with output := some value }

def setFlag (words : Words) : Flag → Words
  | .enum => { words with enums := some true }
  | .noEnum => { words with enums := some false }
  | .format => { words with format := true }
  | .verbose => { words with verbose := true }
  | .help => { words with help := true }

def addSources (words : Words) (sources : List String) : Words :=
  { words with sources := words.sources ++ sources }

def longSwitch? (name : String) : Option Switch :=
  [("--config", Switch.valued .config), ("--output", .valued .output), ("--enum", .flag .enum),
    ("--no-enum", .flag .noEnum), ("--format", .flag .format), ("--verbose", .flag .verbose),
    ("--help", .flag .help)].lookup name

def shortSwitch? (letter : Char) : Option Switch :=
  [('c', Switch.valued .config), ('o', .valued .output), ('v', .flag .verbose)].lookup letter

/-- A word cut at its first equals sign into a name and a value. -/
def cut (word : String) : String × Option String :=
  match word.toList.span (· != '=') with
  | (_, []) => (word, none)
  | (name, _ :: value) => (String.ofList name, some (String.ofList value))

/-- What an option does: it is dealt with, or waits for the next word as its value. -/
inductive Step where
  | done (words : Words)
  | awaits (option : Valued) (words : Words)

/-- Takes the letters of a short option. After a letter that takes a value, the rest is the value. -/
def takeLetters (words : Words) : List Char → Option Step
  | [] => some (.done words)
  | letter :: rest =>
    match shortSwitch? letter with
    | none => none
    | some (.flag flag) => takeLetters (words.setFlag flag) rest
    | some (.valued option) =>
      if rest.isEmpty then some (.awaits option words)
      else some (.done (words.setValue (String.ofList rest) option))

/-- Takes a word that begins with a dash. A name that is no long option is read as letters, unless
it begins with two dashes. -/
def takeOption (words : Words) (word : String) : Option Step :=
  let (name, value) := cut word
  match longSwitch? name, value with
  | some (.flag flag), none => some (.done (words.setFlag flag))
  | some (.flag _), some _ => none
  | some (.valued option), some value => some (.done (words.setValue value option))
  | some (.valued option), none => some (.awaits option words)
  | none, _ =>
    if Text.startsWith "--" word then none
    else takeLetters words (word.toList.drop 1)

def isOption (word : String) : Bool :=
  Text.startsWith "-" word && 1 < word.length

/-- Takes words one by one. After a double dash only sources follow. -/
def takeAll (words : Words) : List String → Option Words
  | [] => some words
  | word :: rest =>
    if word = "--" then some (words.addSources rest)
    else if isOption word then
      match takeOption words word with
      | none => none
      | some (.done words) => takeAll words rest
      | some (.awaits option words) =>
        match rest with
        | [] => none
        | value :: rest => takeAll (words.setValue value option) rest
    else takeAll (words.addSources [word]) rest

def parse? (words : List String) : Option Words :=
  takeAll {} words

def optionPaths (words : Words) : List String :=
  words.config.toList ++ words.output.toList

def arguments (words : Words) : Arguments :=
  { words.toArguments with
    config := words.config.map Path.direct, output := words.output.map Path.direct }

def pathsUsable (world : World) (arguments : Arguments) : Bool :=
  arguments.config.all world.isThere &&
    arguments.output.all fun path =>
      match world.entry path with
      | .ok .directory => false
      | _ => true

def helpText : String :=
  String.intercalate "\n"
    ["Usage: openapi_to_ts [OPTIONS] SOURCES...",
      "",
      "  Generate TypeScript declarations from OpenAPI documents (files or URLs).",
      "",
      "Options:",
      "  -c, --config PATH",
      "  --enum / --no-enum  Emit string/number enums as `export enum` declarations",
      "                      instead of literal unions",
      "  --format            Run prettier over the output",
      "  -o, --output FILE",
      "  -v, --verbose",
      "  --help              Show this message and exit.",
      ""]

def read (world : World) (words : List String) : Reading :=
  match parse? words with
  | none => .misuse
  | some words =>
    if words.help then .answer helpText
    else if words.optionPaths.any Path.holdsNull then .broken .nullInPath
    else if words.sources.isEmpty || !pathsUsable world words.arguments then .misuse
    else .call words.arguments

end Words

def Console.standard : Console where
  read := Words.read
  plain := Text.plain

end ApiTypes.CommandLine
