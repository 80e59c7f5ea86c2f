import ApiTypes.Json.Reader
import ApiTypes.World

/-!
Loading a description from a file or from the web.
-/

namespace ApiTypes

namespace Source

def isUrl (location : String) : Bool :=
  Text.startsWith "http://" location || Text.startsWith "https://" location

def readObject (location : String) (invalid : Error) (text : String) : Except Error Members :=
  match Json.read text with
  | .error _ => .error invalid
  | .ok (.object members) => .ok members
  | .ok _ => .error (.notObject location)

/-- The description in a file, which has to be UTF-8. -/
def ofFile (world : World) (location : String) : Except Error Members :=
  if Path.holdsNull location then .error (.invalidFile location)
  else
    match world.entry (Path.normal location) with
    | .error cause => .error (.unreadable location (Path.normal location) cause)
    | .ok .directory => .error (.unreadable location (Path.normal location) .directory)
    | .ok (.file content) =>
      match String.fromUTF8? content with
      | none => .error (.invalidFile location)
      | some text => readObject location (.invalidFile location) text

def ofAddress (world : World) (location : String) : Except Error Members :=
  match world.fetch location with
  | .page text => readObject location (.invalidResponse location) text
  | .failed detail => .error (.unreachable location detail)
  | .unreadable => .error (.invalidResponse location)
  | .noAddress => .error (.invalidAddress location)

def load (world : World) (location : String) : Except Error Members :=
  if isUrl location then ofAddress world location else ofFile world location

end Source

end ApiTypes
