import ApiTypes.Json.Basic
import ApiTypes.Text.Numeral
import ApiTypes.Text.Quoted

/-!
Reading a JSON text. The grammar is the standard one with three more literals, `NaN`, `Infinity`
and `-Infinity`. A numeral without a fraction and an exponent is an integer; any other is a
double-precision number.
-/

namespace ApiTypes

inductive ReadError where
  /-- The text does not follow the grammar. -/
  | grammar
  /-- An integer has more digits than are read. -/
  | longInteger
  deriving DecidableEq, Repr

namespace Json

def isSpace (c : Char) : Bool :=
  c == ' ' || c == '\t' || c == '\n' || c == '\r'

def skipSpaces (cs : List Char) : List Char :=
  cs.dropWhile isSpace

def readWhole : List Char → Option (List Char × List Char)
  | '0' :: rest => some (['0'], rest)
  | c :: rest => if c.isDigit then some ((c :: rest).span Char.isDigit) else none
  | [] => none

def readFraction : List Char → Option (List Char × List Char)
  | '.' :: c :: rest => if c.isDigit then some ((c :: rest).span Char.isDigit) else none
  | _ => none

def readExponentDigits (cs : List Char) : Option (Nat × List Char) :=
  match cs.span Char.isDigit with
  | ([], _) => none
  | (digits, rest) => some (Text.digitsValue digits, rest)

def readExponent : List Char → Option (Int × List Char)
  | e :: rest =>
    if e = 'e' ∨ e = 'E' then
      match rest with
      | '-' :: rest => (readExponentDigits rest).map fun (n, rest) => (-(n : Int), rest)
      | '+' :: rest => (readExponentDigits rest).map fun (n, rest) => ((n : Int), rest)
      | rest => (readExponentDigits rest).map fun (n, rest) => ((n : Int), rest)
    else none
  | [] => none

def readNumeral (negative : Bool) (cs : List Char) : Except ReadError (Json × List Char) :=
  match readWhole cs with
  | none => .error .grammar
  | some (whole, rest) =>
    -- A point or an `e` without a digit after it is not part of the numeral.
    match readFraction rest, readExponent ((readFraction rest).map (·.2) |>.getD rest) with
    | none, none =>
      if Text.digitLimit < whole.length then .error .longInteger
      else
        let n := (Text.digitsValue whole : Int)
        .ok (.int (if negative then -n else n), rest)
    | some (fraction, rest), none =>
      let d : Decimal := ⟨Text.digitsValue (whole ++ fraction), -fraction.length⟩
      .ok (.double (.ofDecimal negative d), rest)
    | none, some (exponent, rest) =>
      .ok (.double (.ofDecimal negative ⟨Text.digitsValue whole, exponent⟩), rest)
    | some (fraction, _), some (exponent, rest) =>
      let d : Decimal := ⟨Text.digitsValue (whole ++ fraction), exponent - fraction.length⟩
      .ok (.double (.ofDecimal negative d), rest)

def literals : List (List Char × Json) :=
  [("null".toList, .null), ("true".toList, .bool true), ("false".toList, .bool false),
    ("NaN".toList, .double .nan), ("Infinity".toList, .double (.infinity false)),
    ("-Infinity".toList, .double (.infinity true))]

/-- A value that is neither a text nor an array nor an object. -/
def readScalar (cs : List Char) : Except ReadError (Json × List Char) :=
  match literals.find? fun (word, _) => word.isPrefixOf cs with
  | some (word, value) => .ok (value, cs.drop word.length)
  | none =>
    match cs with
    | '-' :: rest => readNumeral true rest
    | _ => readNumeral false cs

mutual

/-- Reads a value that begins at once. The first argument bounds the number of steps; each step
reads at least one character. -/
def readValue : Nat → List Char → Except ReadError (Json × List Char)
  | 0, _ => .error .grammar
  | _ + 1, '"' :: rest =>
    match Text.readQuoted rest with
    | some (text, rest) => .ok (.string (String.ofList text), rest)
    | none => .error .grammar
  | fuel + 1, '[' :: rest =>
    match skipSpaces rest with
    | ']' :: rest => .ok (.array [], rest)
    | rest => do
      let (items, rest) ← readItems fuel rest
      return (.array items, rest)
  | fuel + 1, '{' :: rest =>
    match skipSpaces rest with
    | '}' :: rest => .ok (.object [], rest)
    | rest => do
      let (members, rest) ← readMembers fuel [] rest
      return (.object members, rest)
  | _ + 1, rest => readScalar rest

def readItems : Nat → List Char → Except ReadError (List Json × List Char)
  | 0, _ => .error .grammar
  | fuel + 1, cs => do
    let (item, rest) ← readValue fuel cs
    match skipSpaces rest with
    | ']' :: rest => return ([item], rest)
    | ',' :: rest =>
      let (items, rest) ← readItems fuel (skipSpaces rest)
      return (item :: items, rest)
    | _ => .error .grammar

def readMembers : Nat → Members → List Char → Except ReadError (Members × List Char)
  | 0, _, _ => .error .grammar
  | fuel + 1, members, '"' :: cs =>
    match Text.readQuoted cs with
    | none => .error .grammar
    | some (name, rest) =>
      match skipSpaces rest with
      | ':' :: rest => do
        let (value, rest) ← readValue fuel (skipSpaces rest)
        let members := Members.insert (String.ofList name) value members
        match skipSpaces rest with
        | '\x7d' :: rest => return (members, rest)
        | ',' :: rest => readMembers fuel members (skipSpaces rest)
        | _ => .error .grammar
      | _ => .error .grammar
  | _ + 1, _, _ => .error .grammar

end

def read (text : String) : Except ReadError Json := do
  let cs := text.toList
  let (value, rest) ← readValue (cs.length + 1) (skipSpaces cs)
  if (skipSpaces rest).isEmpty then return value else .error .grammar

end Json

end ApiTypes
