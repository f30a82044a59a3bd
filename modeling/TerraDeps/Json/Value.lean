import TerraDeps.Decimal.Shortest

/-!
# JSON values

A JSON document as a value. Objects keep the order of their keys; numbers are whole numbers of
64 bits or doubles.
-/

set_option autoImplicit false

namespace TerraDeps

open Decimal

/-- A JSON number. -/
inductive JsonNumber where
  /-- A whole number. -/
  | int (value : Int)
  /-- A finite double with its sign, which zero has too. -/
  | double (negative : Bool) (magnitude : Binary64)
  deriving DecidableEq, Repr

/-- A JSON value. -/
inductive Json where
  | null
  | bool (value : Bool)
  | number (value : JsonNumber)
  | string (value : String)
  | array (items : List Json)
  /-- Keys with their values, no key twice. -/
  | object (members : List (String × Json))
  deriving Repr

namespace Json

/-- The value under a key of an object. -/
def get? (key : String) : Json → Option Json
  | object members => members.lookup key
  | _ => none

/-- The elements of an array, or the value itself. -/
def items : Json → List Json
  | array items => items
  | value => [value]

/-- The members with one more; a repeated key keeps its place and takes the new value. -/
def putMember (key : String) (value : Json) : List (String × Json) → List (String × Json)
  | [] => [(key, value)]
  | (k, v) :: rest => if k = key then (k, value) :: rest else (k, v) :: putMember key value rest

end Json

end TerraDeps
