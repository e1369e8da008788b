import AbiRecovery.Decimal.Shortest
import AbiRecovery.OrderedMap
import AbiRecovery.Text.Quoted

/-!
# Structured values

A value as it stands in a log record, in a result that is printed, or in a file of addresses. The
members of an object keep their order. Whole numbers are unbounded; every other number is a double.
Whether two values are equal can be decided.
-/
namespace AbiRecovery

/-- A structured value. -/
inductive Json where
  | null
  | bool (value : Bool)
  | int (value : Int)
  | float (value : Decimal.Binary64)
  | str (value : Text)
  | arr (items : List Json)
  | obj (members : List (Text × Json))
  deriving Repr, Inhabited

namespace Json

inductive Kind where
  | null | bool | int | float | str | arr | obj
  deriving DecidableEq, Repr

def kind : Json → Kind
  | .null => .null
  | .bool _ => .bool
  | .int _ => .int
  | .float _ => .float
  | .str _ => .str
  | .arr _ => .arr
  | .obj _ => .obj

def Kind.name : Kind → String
  | .null => "NoneType"
  | .bool => "bool"
  | .int => "int"
  | .float => "float"
  | .str => "str"
  | .arr => "list"
  | .obj => "dict"

def member? (key : Text) : Json → Option Json
  | .obj members => OrderedMap.get? members key
  | _ => none

mutual

def decideEq : (a b : Json) → Decidable (a = b)
  | .null, b => match b with
    | .null => isTrue rfl
    | .bool _ | .int _ | .float _ | .str _ | .arr _ | .obj _ => isFalse nofun
  | .bool x, b => match b with
    | .bool y => decidable_of_iff (x = y) (by simp)
    | .null | .int _ | .float _ | .str _ | .arr _ | .obj _ => isFalse nofun
  | .int x, b => match b with
    | .int y => decidable_of_iff (x = y) (by simp)
    | .null | .bool _ | .float _ | .str _ | .arr _ | .obj _ => isFalse nofun
  | .float x, b => match b with
    | .float y => decidable_of_iff (x = y) (by simp)
    | .null | .bool _ | .int _ | .str _ | .arr _ | .obj _ => isFalse nofun
  | .str x, b => match b with
    | .str y => decidable_of_iff (x = y) (by simp)
    | .null | .bool _ | .int _ | .float _ | .arr _ | .obj _ => isFalse nofun
  | .arr xs, b => match b with
    | .arr ys => have := decideItemsEq xs ys; decidable_of_iff (xs = ys) (by simp)
    | .null | .bool _ | .int _ | .float _ | .str _ | .obj _ => isFalse nofun
  | .obj xs, b => match b with
    | .obj ys => have := decideMembersEq xs ys; decidable_of_iff (xs = ys) (by simp)
    | .null | .bool _ | .int _ | .float _ | .str _ | .arr _ => isFalse nofun

def decideItemsEq : (xs ys : List Json) → Decidable (xs = ys)
  | [], ys => match ys with
    | [] => isTrue rfl
    | _ :: _ => isFalse nofun
  | x :: xs, ys => match ys with
    | [] => isFalse nofun
    | y :: ys =>
      have := decideEq x y
      have := decideItemsEq xs ys
      decidable_of_iff (x = y ∧ xs = ys) (by simp)

def decideMembersEq : (xs ys : List (Text × Json)) → Decidable (xs = ys)
  | [], ys => match ys with
    | [] => isTrue rfl
    | _ :: _ => isFalse nofun
  | (key, x) :: xs, ys => match ys with
    | [] => isFalse nofun
    | (key', y) :: ys =>
      have := decideEq x y
      have := decideMembersEq xs ys
      decidable_of_iff (key = key' ∧ x = y ∧ xs = ys) (by simp [and_assoc])

end

instance : DecidableEq Json := decideEq

end Json

end AbiRecovery
