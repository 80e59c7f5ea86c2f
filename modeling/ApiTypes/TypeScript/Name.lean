import ApiTypes.Error
import ApiTypes.Text.Split

/-!
Names in the generated declarations: type names, property keys and enumeration member names.
-/

namespace ApiTypes.TypeScript

def isNameChar (c : Char) : Bool :=
  c.isAlphanum || c == '_' || c == '$'

/-- A name made an identifier: other characters become underscores, and an underscore is put
before a digit and into an empty name. -/
def identifier (name : String) : String :=
  let cs := name.toList.map fun c => if isNameChar c then c else '_'
  match cs with
  | [] => "_"
  | c :: _ => if c.isDigit then String.ofList ('_' :: cs) else String.ofList cs

def isIdentifier : List Char → Bool
  | [] => false
  | c :: cs => isNameChar c && !c.isDigit && cs.all isNameChar

/-- Whether a property name is written without quotes; a line feed at its end is not looked at. -/
def isPlainKey (name : List Char) : Bool :=
  isIdentifier name || (name.getLast? == some '\n' && isIdentifier name.dropLast)

def keyText : PropertyName → Except Malformed String
  | .text name => .ok (if isPlainKey name.toList then name else Text.quoted name)
  | .scalar _ => .error .name

/-- A text as the name of an enumeration member: runs of other characters than letters and digits
become underscores, letters are upper case, and an `X` is put where no letter begins. -/
def memberWord (text : String) : String :=
  let cs := (Text.squeeze (fun c => !c.isAlphanum) '_' text.toList).map Char.toUpper
  match cs with
  | [] => "X"
  | c :: _ => if c.isAlpha then String.ofList cs else String.ofList ('X' :: cs)

def memberName : Json → Except Error String
  | .bool b => .ok (if b then "TRUE" else "FALSE")
  | .int i => .ok (memberWord (toString i))
  | .double x => .ok (memberWord x.text)
  | .string s => .ok (memberWord s)
  | value => .error (.memberName value)

/-- Distinguishes repeated names: the second of a name ends in `_2`, the third in `_3`, and so on.
`earlier` are the names before. -/
def numberedFrom (earlier : List String) : List String → List String
  | [] => []
  | name :: names =>
    let count := earlier.count name
    (if count = 0 then name else name ++ "_" ++ toString (count + 1)) ::
      numberedFrom (name :: earlier) names

def numbered (names : List String) : List String :=
  numberedFrom [] names

end ApiTypes.TypeScript
