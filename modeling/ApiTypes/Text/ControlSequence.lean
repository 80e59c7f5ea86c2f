/-!
Control sequences of a terminal. They mean something to a terminal only, so a text that goes
elsewhere leaves them out.
-/

namespace ApiTypes.Text

/-- The characters of the parameters of a control sequence: digits, separators and marks. -/
def isSequenceParameter (c : Char) : Bool :=
  '0' ≤ c && c ≤ '?'

def isSequenceIntermediate (c : Char) : Bool :=
  ' ' ≤ c && c ≤ '/'

def isSequenceFinal (c : Char) : Bool :=
  '@' ≤ c && c ≤ '~'

/-- The length of the control sequence at the start of a text, if there is one. It begins with an
escape character and a bracket. -/
def sequenceLength? : List Char → Option Nat
  | '\x1b' :: '[' :: cs =>
    let (parameters, rest) := cs.span isSequenceParameter
    let (intermediates, rest) := rest.span isSequenceIntermediate
    match rest with
    | c :: _ =>
      if isSequenceFinal c then some (parameters.length + intermediates.length + 3) else none
    | [] => none
  | _ => none

/-- A text without its control sequences, after `skipped` further characters. -/
def plainFrom : (skipped : Nat) → List Char → List Char
  | _, [] => []
  | skipped + 1, _ :: cs => plainFrom skipped cs
  | 0, c :: cs =>
    match sequenceLength? (c :: cs) with
    | some length => plainFrom (length - 1) cs
    | none => c :: plainFrom 0 cs

def plain (s : String) : String :=
  String.ofList (plainFrom 0 s.toList)

end ApiTypes.Text
