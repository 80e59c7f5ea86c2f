import ApiTypes.Json.Binary64

/-!
JSON values. Objects keep the order of their members; integers are unbounded and stay apart from
double-precision numbers.
-/

namespace ApiTypes

inductive Json where
  | null
  | bool (b : Bool)
  | int (i : Int)
  | double (x : Binary64)
  | string (s : String)
  | array (items : List Json)
  | object (members : List (String × Json))
  deriving Inhabited, Repr

abbrev Members := List (String × Json)

/-- A use of a value that its form does not allow. -/
inductive Malformed where
  /-- The members of a value that is not an object. -/
  | members
  /-- The lines of a value that is not a text. -/
  | lines
  /-- The elements of a value that holds none. -/
  | elements
  /-- A search in a value that holds nothing. -/
  | search
  /-- A member of a value by a name, where it has positions only. -/
  | position
  /-- An array or object as the key of a member. -/
  | key
  /-- A text test on a name that is not a text. -/
  | name
  /-- The joining of values that are not texts. -/
  | join
  /-- The first letter of an empty text. -/
  | emptyText
  /-- An option that does not exist. -/
  | option
  /-- A place of the settings that cannot take the value. -/
  | assignment
  /-- A place of the settings that cannot be written. -/
  | readOnly
  /-- A call of a value. -/
  | call
  deriving DecidableEq, Repr

/-- The value of the first member of that name; `null` where there is none. -/
def Members.get (members : Members) (name : String) : Json :=
  (members.lookup name).getD .null

def Members.has (members : Members) (name : String) : Bool :=
  (members.lookup name).isSome

/-- The members with one set. A name that is there keeps its place. -/
def Members.insert (name : String) (value : Json) : Members → Members
  | [] => [(name, value)]
  | (n, v) :: rest =>
    if n = name then (n, value) :: rest else (n, v) :: Members.insert name value rest

namespace Json

/-- Null, false, zero and everything empty do not count as true. -/
def isTruthy : Json → Bool
  | .null => false
  | .bool b => b
  | .int i => i != 0
  | .double x => !x.isZero
  | .string s => !s.isEmpty
  | .array items => !items.isEmpty
  | .object members => !members.isEmpty

def orElse (value other : Json) : Json :=
  if value.isTruthy then value else other

def isNull : Json → Bool
  | .null => true
  | _ => false

def members : Json → Except Malformed Members
  | .object members => .ok members
  | _ => .error .members

/-- The elements that a walk over a value meets: the items of an array, the characters of a text,
the names of an object's members. -/
def elements : Json → Except Malformed (List Json)
  | .array items => .ok items
  | .string s => .ok (s.toList.map fun c => .string (String.singleton c))
  | .object members => .ok (members.map fun (name, _) => .string name)
  | _ => .error .elements

def isText (s : String) : Json → Bool
  | .string t => t == s
  | _ => false

/-- The target of a reference: an object whose `$ref` is a text. -/
def reference? : Json → Option String
  | .object members =>
    match members.lookup "$ref" with
    | some (.string target) => some target
    | _ => none
  | _ => none

def isKey : Json → Bool
  | .array _ => false
  | .object _ => false
  | _ => true

/-- The exact number that a truth value or number is; truth values count as one and zero. -/
def number? : Json → Option (Int ⊕ Binary64)
  | .bool b => some (.inl (if b then 1 else 0))
  | .int i => some (.inl i)
  | .double x =>
    match x.toInt? with
    | some i => some (.inl i)
    | none => some (.inr x)
  | _ => none

/-- Whether two values that can be keys are the same key. Numbers are compared by their value. There
is only one NaN in what is read, and it is the same key as itself. -/
def sameKey (a b : Json) : Bool :=
  match a, b with
  | .string s, .string t => s == t
  | .null, .null => true
  | _, _ =>
    match a.number?, b.number? with
    | some m, some n => decide (m = n)
    | _, _ => false

end Json

end ApiTypes
