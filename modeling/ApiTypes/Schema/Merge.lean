import ApiTypes.Error

/-!
Composition of shapes. References become bases, the properties of objects are united, and
properties of one name are merged in turn; shapes of two other kinds do not mix.
-/

namespace ApiTypes

namespace Schema

def setProperty (self : Schema) (name : Json) (schema : Schema) : Except Error Schema :=
  let self := self.opened
  if self.kind ≠ .object then .error (.setProperty name self.kind)
  else do
    let name ← PropertyName.ofJson name
    return { self with properties := Properties.set name schema self.properties }

def addBase (bases : List String) (base : String) : List String :=
  if base ∈ bases then bases else bases ++ [base]

def extend (self base : Schema) : Except Error Schema :=
  if self.kind ≠ .object then .error (.extendKind self.kind [base.name])
  else if base.indexPath ≠ [] then .error (.extendDerived base.name base.indexPath)
  else .ok { self with heritage := addBase self.heritage base.name }

/-- What a property becomes before another is merged into it: a reference becomes an object that
extends it. -/
def asTarget (self : Schema) : Except Error Schema :=
  if self.kind = .reference then
    extend { description := self.description, required := self.required } self
  else .ok self

/-- A merged property is required if either part is, and keeps the first description there is. -/
def settle (theirs merged : Schema) : Schema :=
  { merged with
    required := merged.required || theirs.required
    description := merged.description.orElse theirs.description }

mutual

/-- `self.merge other` composes `other` into `self`. -/
def merge (self : Schema) : Schema → Except Error Schema
  | ⟨kind, name, _, _, _, _, _, _, properties, additional, heritage, indexPath⟩ =>
    -- Only the form of what is merged in decides which fields of it are looked at.
    let self := self.opened
    match kind with
    | .reference => self.extend { kind := .reference, name, indexPath }
    | .empty => .ok self
    | .object => do
      let merged ← mergeProperties self.kind self.properties properties
      if heritage ≠ [] ∧ self.kind ≠ .object then .error (.extendKind self.kind heritage)
      else
        return { self with
          properties := merged
          additional := self.additional.or additional
          heritage := heritage.foldl addBase self.heritage }
    | kind => if self.kind = kind then .ok self else .error (.mergeKinds kind self.kind)

/-- The properties `mine` of a shape of the given kind, with those of another object merged in. -/
def mergeProperties (kind : Kind) (mine : Properties) :
    List (PropertyName × Schema) → Except Error Properties
  | [] => .ok mine
  | (name, theirs) :: rest =>
    match Properties.find? name mine with
    | none =>
      if kind ≠ .object then .error (.setProperty name.toJson kind)
      else mergeProperties kind (Properties.set name theirs mine) rest
    | some property => do
      let target ← asTarget property
      let merged ← merge target theirs
      mergeProperties kind (Properties.set name (settle theirs merged) mine) rest

end

end Schema

end ApiTypes
