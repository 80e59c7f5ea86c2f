import ApiTypes.Text.Split

/-!
Paths of files: the steps along them, and their texts in messages and on the command line.
-/

namespace ApiTypes

namespace Path

def isAbsolute (path : String) : Bool :=
  Text.startsWith "/" path

/-- The steps of a path; empty ones and single points lead nowhere. -/
def steps (path : String) : List String :=
  (Text.split '/' path).filter fun step => step != "" && step != "."

/-- Whether a step is longer than a name in a directory may be, in octets. -/
def isLongStep (step : String) : Bool :=
  255 < step.utf8ByteSize

def isLong (path : String) : Bool :=
  4095 < path.utf8ByteSize

def holdsNull (path : String) : Bool :=
  path.toList.contains '\x00'

/-- What stands before the steps of an absolute path: two slashes where it begins with exactly
two. -/
def anchor (path : String) : String :=
  if Text.startsWith "//" path && !Text.startsWith "///" path then "//"
  else if isAbsolute path then "/"
  else ""

def normal (path : String) : String :=
  let text := anchor path ++ String.intercalate "/" (steps path)
  if text.isEmpty then "." else text

def name (path : String) : String :=
  ((steps path).getLast?).getD ""

/-- Steps with each step up taken back together with the step before it. A step up at the start
stays. -/
def collapse (taken : List String) : List String → List String
  | [] => taken
  | ".." :: rest =>
    match taken.getLast? with
    | some last =>
      if last = ".." then collapse (taken ++ [".."]) rest else collapse taken.dropLast rest
    | none => collapse [".."] rest
  | step :: rest => collapse (taken ++ [step]) rest

/-- A path without steps up, as far as they can be taken back. -/
def direct (path : String) : String :=
  if isAbsolute path then
    "/" ++ String.intercalate "/" ((collapse [] (steps path)).filter (· != ".."))
  else String.intercalate "/" (collapse [] (steps path))

def parent (path : String) : String :=
  (if isAbsolute path then "/" else "") ++ String.intercalate "/" (steps path).dropLast

/-- A direct path as seen from the root, `directory` being where it starts. -/
def absolute (directory path : String) : String :=
  if isAbsolute path then path
  else
    let above := (steps path).takeWhile (· == "..")
    let below := (steps path).dropWhile (· == "..")
    let base := (Text.split '/' directory)
    String.intercalate "/" (base.take (base.length - above.length) ++ below)

end Path

end ApiTypes
