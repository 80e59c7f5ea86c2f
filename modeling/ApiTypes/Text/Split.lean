/-!
Cutting a text into pieces at the characters of a class, and squeezing runs of a class to one mark.
-/

namespace ApiTypes.Text

/-- The pieces between the characters that satisfy `p`: one more than there are such characters. -/
def splitWhen (p : Char → Bool) : List Char → List (List Char)
  | [] => [[]]
  | c :: cs => if p c then [] :: splitWhen p cs else (splitWhen p cs).modifyHead (c :: ·)

def split (mark : Char) (s : String) : List String :=
  (splitWhen (· == mark) s.toList).map String.ofList

/-- The maximal runs of characters outside the class `p`, none of them empty. -/
def runsOutside (p : Char → Bool) (cs : List Char) : List (List Char) :=
  (splitWhen p cs).filter (!·.isEmpty)

/-- Every maximal run of characters of the class `p` becomes one `mark`; `inRun` says that the
character before was of the class. -/
def squeezeFrom (p : Char → Bool) (mark : Char) : Bool → List Char → List Char
  | _, [] => []
  | inRun, c :: cs =>
    if p c then
      if inRun then squeezeFrom p mark true cs else mark :: squeezeFrom p mark true cs
    else c :: squeezeFrom p mark false cs

def squeeze (p : Char → Bool) (mark : Char) (cs : List Char) : List Char :=
  squeezeFrom p mark false cs

def after? (start s : String) : Option String :=
  if start.toList.isPrefixOf s.toList then some (String.ofList (s.toList.drop start.toList.length))
  else none

def startsWith (start s : String) : Bool :=
  start.toList.isPrefixOf s.toList

def occursIn (part : List Char) : List Char → Bool
  | [] => part.isEmpty
  | c :: cs => part.isPrefixOf (c :: cs) || occursIn part cs

theorem splitWhen_ne_nil (p : Char → Bool) (cs : List Char) : splitWhen p cs ≠ [] := by
  induction cs with
  | nil => simp [splitWhen]
  | cons c cs ih =>
    unfold splitWhen
    split
    · simp
    · cases h : splitWhen p cs with
      | nil => exact absurd h ih
      | cons l ls => simp

end ApiTypes.Text
