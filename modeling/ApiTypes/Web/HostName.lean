import ApiTypes.Text.Split
import ApiTypes.Web.Composition
import ApiTypes.Web.Direction
import ApiTypes.Web.LabelChar
import ApiTypes.Web.Punycode

/-!
Host names in any script: labels with points between them. A label that is not ASCII is sent in
ASCII, behind a mark.
-/

namespace ApiTypes.Web

open Text

def labelMark : List Char := "xn--".toList

/-- Whether the characters of a label fit together, `before` being those passed, the last first. -/
def charsFit (label : List Char) : (before : List Char) → List Char → Bool
  | _, [] => true
  | before, c :: after =>
    (isLabelChar c || fitsBetween label before c after) &&
      charsFit label (c :: before) after

def hyphensFit (label : List Char) : Bool :=
  label.head? != some '-' && label.getLast? != some '-' && (label.drop 2).take 2 != ['-', '-']

/-- Whether a text is a label: it begins with no mark and is composed, and its characters, hyphens
and directions agree with each other. -/
def isLabel (label : List Char) : Bool :=
  !label.isEmpty && hyphensFit label && !label.head?.any isMark && composed label == label &&
    charsFit label [] label && directionsAgree label

def isAsciiLabel (label : List Char) : Bool :=
  if labelMark.isPrefixOf label then
    let form := label.drop labelMark.length
    form.getLast? != some '-' && !form.isEmpty && (Punycode.decode? form).any isLabel
  else isLabel label

/-- A label as it is sent: in ASCII, and at most 63 characters long. -/
def sentLabel? (label : List Char) : Option (List Char) :=
  let sent := if label.all Punycode.isBasic then label else labelMark ++ Punycode.encode label
  let isValid := if label.all Punycode.isBasic then isAsciiLabel label else isLabel label
  if isValid && sent.length ≤ 63 then some sent else none

/-- The points between labels: the full stop and its ideographic forms. -/
def isLabelPoint (c : Char) : Bool :=
  c == '.' || c == '\u3002' || c == '\uff0e' || c == '\uff61'

/-- The labels of a host name. A point may end the name. -/
def labels (name : List Char) : List (List Char) :=
  let pieces := splitWhen isLabelPoint name
  if pieces.getLast? = some [] then pieces.dropLast else pieces

/-- Whether a text is a host name that can be sent. With a point after each label it has at most 254
characters. -/
def isHostName (name : List Char) : Bool :=
  match (labels name).mapM sentLabel? with
  | none => false
  | some sent => (sent.flatMap (· ++ ['.'])).length ≤ 254

def isReadable (name : List Char) : Bool :=
  name.length ≤ 254 && (labels name).all isAsciiLabel

end ApiTypes.Web
