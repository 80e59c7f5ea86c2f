import ApiTypes.Json.Basic
import ApiTypes.Text.Case
import ApiTypes.Text.Split

/-!
The names of operations. They are made of the method and the words of the path, placeholders left
out.
-/

namespace ApiTypes

/-- The name of an operation in the two styles: lower-case words joined by underscores, and
capitalized words run together. -/
structure OperationName where
  snake : String
  pascal : String
  deriving DecidableEq, Repr

namespace OperationName

def withoutExtension (path : List Char) : List Char :=
  if ".json".toList.isSuffixOf path then path.take (path.length - 5) else path

/-- The words of a path: the runs of letters and digits in the segments without a brace. -/
def pathWords (path : List Char) : List (List Char) :=
  let segments := Text.splitWhen (· == '/') (withoutExtension path)
  (segments.filter fun segment => !segment.contains '\x7b').flatMap
    (Text.runsOutside fun c => !c.isAlphanum)

def infer (method path : String) : OperationName :=
  -- The words of the path keep their case in the second style, the method does not.
  let words := Text.lower method.toList :: pathWords path.toList
  { snake := String.ofList (List.intercalate ['_'] (words.map Text.lower))
    pascal := String.ofList (words.flatMap Text.capitalize) }

/-- The name of the operation, unless the method is empty and so has no first letter. -/
def infer? (method path : String) : Except Malformed OperationName :=
  if method.isEmpty then .error .emptyText else .ok (infer method path)

end OperationName

end ApiTypes
