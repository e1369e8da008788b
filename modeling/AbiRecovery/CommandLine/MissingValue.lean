/-!
# Values that are missing

Two dashes in the place of a value are no value. The option counts as given, and what it was to tell is
missed only where it is needed.
-/
namespace AbiRecovery.CommandLine

inductive MissingValue where
  | path | address | chain | indent | limit
  deriving DecidableEq, Repr

def MissingValue.message : MissingValue → String
  | .path => "expected str, bytes or os.PathLike object, not list"
  | .address => "Unsupported type: '<class 'list'>'. Must be one of: bool, str, bytes, bytearray or int."
  | .chain => "'list' object has no attribute 'upper'"
  | .indent => "can't multiply sequence by non-int of type 'list'"
  | .limit => "slice indices must be integers or None or have an __index__ method"

def MissingValue.unless {α : Type} (what : MissingValue) : Option α → Except MissingValue α
  | some value => .ok value
  | none => .error what

end AbiRecovery.CommandLine
