import ApiTypes.FileTree
import ApiTypes.Formatter

/-!
The world that the program runs in: files and their encoding, what its web client fetches, and the
outcomes of the commands it runs.
-/

namespace ApiTypes

structure Encoding where
  /-- The text that octets write, if they write one. -/
  decode? : ByteArray → Option String
  /-- Whether a character can be written. -/
  has : Char → Bool

namespace Encoding

def spells (encoding : Encoding) (text : String) : Bool :=
  text.toList.all encoding.has

/-- UTF-8 writes every character, but no surrogate that stands alone. -/
def utf8 : Encoding where
  decode? := String.fromUTF8?
  has := fun c => !Text.isLoneSurrogate c

end Encoding

/-- What the web client gives for an address. -/
inductive Fetched where
  | page (text : String)
  /-- The client reports an error of its own. -/
  | failed (detail : Option String)
  /-- What is at the address, or the address itself, writes no text. -/
  | unreadable
  /-- The client takes the address for none. -/
  | noAddress
  deriving DecidableEq, Repr

structure World where
  /-- The working directory, from the root. -/
  directory : String
  /-- What is at a path, or why nothing is. -/
  entry : String → Except FileError Entry
  fetch : String → Fetched
  script : List RunOutcome
  encoding : Encoding := .utf8

namespace World

def isThere (world : World) (path : String) : Bool :=
  match world.entry path with
  | .ok _ => true
  | .error _ => false

/-- Whether something is at a path, for a caller that cannot do with a path that is too long. -/
def look (world : World) (path : String) : Except FileError Bool :=
  match world.entry path with
  | .ok _ => .ok true
  | .error .nameTooLong => .error .nameTooLong
  | .error _ => .ok false

end World

end ApiTypes
