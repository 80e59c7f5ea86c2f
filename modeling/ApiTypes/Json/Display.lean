import ApiTypes.Json.Basic
import ApiTypes.Text.Printable
import ApiTypes.Text.Quoted

/-!
How values are shown in messages: texts between single quotes where that needs no escape of a
quote, and `None`, `True` and `False` for the three constants.
-/

namespace ApiTypes

namespace Text

def displayChar (quote c : Char) : List Char :=
  if c = quote ∨ c = '\\' then ['\\', c]
  else if c = '\n' then ['\\', 'n']
  else if c = '\r' then ['\\', 'r']
  else if c = '\t' then ['\\', 't']
  else if isPrintable c then [c]
  else
    let n := codePoint c
    if n < 0x100 then ['\\', 'x'] ++ hexDigits 2 n
    else if n < 0x10000 then ['\\', 'u'] ++ hexDigits 4 n
    else ['\\', 'U'] ++ hexDigits 8 n

/-- The quote around a text: the double one only if the text has single quotes and no double
ones. -/
def displayQuote (cs : List Char) : Char :=
  if '\'' ∈ cs ∧ '"' ∉ cs then '"' else '\''

def display (s : String) : String :=
  let quote := displayQuote s.toList
  String.ofList ([quote] ++ s.toList.flatMap (displayChar quote) ++ [quote])

def displayList (texts : List String) : String :=
  "[" ++ String.intercalate ", " (texts.map display) ++ "]"

end Text

namespace Json

mutual

def display : Json → String
  | .null => "None"
  | .bool true => "True"
  | .bool false => "False"
  | .int i => toString i
  | .double x => x.text
  | .string s => Text.display s
  | .array items => "[" ++ String.intercalate ", " (displayItems items) ++ "]"
  | .object members => "\x7b" ++ String.intercalate ", " (displayMembers members) ++ "\x7d"

def displayItems : List Json → List String
  | [] => []
  | item :: items => item.display :: displayItems items

def displayMembers : List (String × Json) → List String
  | [] => []
  | (name, value) :: members => (Text.display name ++ ": " ++ value.display) :: displayMembers members

end

/-- A value as a part of a text: a text as it is, any other value as in a message. -/
def plain : Json → String
  | .string s => s
  | value => value.display

/-- A value in at most `limit` characters: what is longer ends in three points. A limit below
three counts from the end of the shown value. -/
def describe (limit : Int) (value : Json) : String :=
  let text := value.display.toList
  if (text.length : Int) ≤ limit then String.ofList text
  else
    let kept := if limit < 3 then (text.length : Int) + (limit - 3) else limit - 3
    String.ofList (text.take kept.toNat) ++ "..."

end Json

end ApiTypes
