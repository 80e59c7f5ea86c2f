import ApiTypes.World

/-!
What the program gets from the library of its command line: the arguments of a run, and the form in
which a text is printed.
-/

namespace ApiTypes.CommandLine

/-- What the program is called with. The paths of the options have no steps up and begin at the
working directory. -/
structure Arguments where
  config : Option String := none
  /-- Whether enumerations are wanted; the settings decide where nothing is said. -/
  enums : Option Bool := none
  format : Bool := false
  output : Option String := none
  verbose : Bool := false
  sources : List String := []
  deriving DecidableEq, Repr

/-- Why a run breaks off without a report. -/
inductive Crash where
  /-- The settings are not JSON. -/
  | settingsGrammar
  /-- The settings hold an integer with too many digits. -/
  | settingsInteger
  /-- The settings are not in the encoding that is used where none is named. -/
  | settingsEncoding
  | file (cause : FileError)
  /-- A path among the options holds a null character. -/
  | nullInPath
  /-- A source is no address. -/
  | address
  /-- The output has a character that its encoding has not. -/
  | outputEncoding
  | malformed (cause : Malformed)
  deriving DecidableEq, Repr

/-- What becomes of the words of a command line. -/
inductive Reading where
  | call (arguments : Arguments)
  /-- The words are not used as they are meant. -/
  | misuse
  /-- A text is asked for, such as the help. -/
  | answer (text : String)
  | broken (crash : Crash)
  deriving DecidableEq, Repr

/-- The library of the command line. -/
structure Console where
  read : World → List String → Reading
  /-- A text as it is printed where the output is no terminal. -/
  plain : String → String

/-- A text without escape characters, with which the control sequences of a terminal begin, is
printed as it is. -/
def Console.KeepsPlain (console : Console) : Prop :=
  ∀ text : String, '\x1b' ∉ text.toList → console.plain text = text

end ApiTypes.CommandLine
