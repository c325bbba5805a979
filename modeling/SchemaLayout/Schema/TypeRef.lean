/-!
# Type references (specification §3)

The type of a field: a scalar, a reference to an enum or to a type definition by name, or a union of
such. The leaves of a reference are its members when it is a union and the reference itself when it
is not; rewriting replaces leaves and puts the result in normal form with `TypeRef.ofMembers`.
-/
namespace SchemaLayout

/-- The built-in kinds of values. -/
inductive ScalarKind where
  | string | int | float | boolean | dateTime | bigInt | decimal | bytes | json
  deriving DecidableEq, Repr

namespace ScalarKind

/-- Every kind, in the order of the constructors. -/
def all : List ScalarKind :=
  [.string, .int, .float, .boolean, .dateTime, .bigInt, .decimal, .bytes, .json]

/-- The written name of a kind. -/
def name : ScalarKind → String
  | .string => "String"
  | .int => "Int"
  | .float => "Float"
  | .boolean => "Boolean"
  | .dateTime => "DateTime"
  | .bigInt => "BigInt"
  | .decimal => "Decimal"
  | .bytes => "Bytes"
  | .json => "Json"

/-- The kinds that can be counted up and down. -/
def isNumeric : ScalarKind → Bool
  | .int | .float | .bigInt | .decimal => true
  | _ => false

end ScalarKind

/-- What a field holds (specification §3, `TypeRef`). A union in normal form has two or more
members, no two equal and none a union. -/
inductive TypeRef where
  | scalar (kind : ScalarKind)
  | enumeration (name : String)
  | definition (name : String)
  | union (members : List TypeRef)
  deriving Repr

namespace TypeRef

/-! ## Equality -/

mutual

/-- Whether two references are the same. -/
def same : TypeRef → TypeRef → Bool
  | .scalar a, .scalar b => a == b
  | .enumeration a, .enumeration b => a == b
  | .definition a, .definition b => a == b
  | .union as, .union bs => sameAll as bs
  | _, _ => false

/-- Whether two lists hold the same references, one by one. -/
def sameAll : List TypeRef → List TypeRef → Bool
  | [], [] => true
  | a :: as, b :: bs => same a b && sameAll as bs
  | _, _ => false

end

mutual

theorem eq_of_same : ∀ {a b : TypeRef}, same a b = true → a = b
  | .scalar _, .scalar _, h => by simpa [same] using h
  | .enumeration _, .enumeration _, h => by simpa [same] using h
  | .definition _, .definition _, h => by simpa [same] using h
  | .union as, .union bs, h => congrArg _ (eq_of_sameAll (by simpa [same] using h))
  | .scalar _, .enumeration _, h | .scalar _, .definition _, h | .scalar _, .union _, h
  | .enumeration _, .scalar _, h | .enumeration _, .definition _, h | .enumeration _, .union _, h
  | .definition _, .scalar _, h | .definition _, .enumeration _, h | .definition _, .union _, h
  | .union _, .scalar _, h | .union _, .enumeration _, h | .union _, .definition _, h => by
    simp [same] at h

theorem eq_of_sameAll : ∀ {as bs : List TypeRef}, sameAll as bs = true → as = bs
  | [], [], _ => rfl
  | a :: as, b :: bs, h => by
    simp only [sameAll, Bool.and_eq_true] at h
    rw [eq_of_same h.1, eq_of_sameAll h.2]
  | [], _ :: _, h | _ :: _, [], h => by simp [sameAll] at h

end

mutual

theorem same_self : ∀ a : TypeRef, same a a = true
  | .scalar _ | .enumeration _ | .definition _ => by simp [same]
  | .union as => by simp [same, sameAll_self as]

theorem sameAll_self : ∀ as : List TypeRef, sameAll as as = true
  | [] => rfl
  | a :: as => by simp [sameAll, same_self a, sameAll_self as]

end

instance : DecidableEq TypeRef := fun a b =>
  if h : same a b = true then isTrue (eq_of_same h)
  else isFalse (fun e => h (e ▸ same_self a))

/-! ## Leaves -/

/-- The members of a union; of any other reference, itself. -/
def members : TypeRef → List TypeRef
  | .union members => members
  | leaf => [leaf]

/-- Whether the reference is a union. -/
def isUnion : TypeRef → Bool
  | .union _ => true
  | _ => false

/-- The normal form of a list of alternatives: unions among them are opened one level deep, repeats
are dropped, and a single alternative stands for itself. -/
def ofMembers (alternatives : List TypeRef) : TypeRef :=
  match (alternatives.flatMap members).eraseDups with
  | [only] => only
  | distinct => .union distinct

/-- The name of the referenced type definition. -/
def definitionName? : TypeRef → Option String
  | .definition name => some name
  | _ => none

/-- The name of the referenced enum. -/
def enumName? : TypeRef → Option String
  | .enumeration name => some name
  | _ => none

/-- The name of the referenced type definition or enum. -/
def referencedName? : TypeRef → Option String
  | .enumeration name | .definition name => some name
  | _ => none

/-- The scalar kind. -/
def scalarKind? : TypeRef → Option ScalarKind
  | .scalar kind => some kind
  | _ => none

/-- The type definitions that leaves refer to, in order and with repeats. -/
def definitionNames (ref : TypeRef) : List String :=
  ref.members.filterMap definitionName?

/-- Whether a leaf refers to the type definition of that name. -/
def refersTo (ref : TypeRef) (name : String) : Bool :=
  ref.definitionNames.contains name

/-- Every leaf that `f` gives a replacement for is replaced. A union is put in normal form, whether
or not a member was replaced. -/
def mapLeaves (f : TypeRef → Option TypeRef) : TypeRef → TypeRef
  | .union members => ofMembers (members.map fun leaf => (f leaf).getD leaf)
  | leaf => (f leaf).getD leaf

/-! ## Text -/

mutual

/-- The written form: the name of the type, or the members of a union with `|` between them. -/
def text : TypeRef → String
  | .scalar kind => kind.name
  | .enumeration name => name
  | .definition name => name
  | .union members => " | ".intercalate (texts members)

/-- The written form of each reference. -/
def texts : List TypeRef → List String
  | [] => []
  | ref :: rest => text ref :: texts rest

end

end TypeRef

end SchemaLayout
