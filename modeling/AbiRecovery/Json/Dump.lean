import AbiRecovery.Json.Printer
import AbiRecovery.Text.Integer

/-!
# Values that are refused

A value has a text (`Json.render`), but not every interpreter writes it: an integer with too many digits
is not turned into text, and containers are written inside each other only as deep as there is room on the
stack. What is refused first, in the order of the text, is the fault.
-/
namespace AbiRecovery.Json

inductive WriteFault where
  | longInteger
  | tooDeep
  deriving DecidableEq, Repr

def WriteFault.message : WriteFault → String
  | .longInteger => Text.longIntegerMessage
  | .tooDeep => "maximum recursion depth exceeded while encoding a JSON object"

mutual

/-- What is refused of a value if `room` containers may stand inside each other. -/
def writeFault? (room : Nat) : Json → Option WriteFault
  | .int n => if Text.isLong n then some .longInteger else none
  | .arr items => match room with
    | 0 => some .tooDeep
    | room + 1 => itemsFault? room items
  | .obj members => match room with
    | 0 => some .tooDeep
    | room + 1 => membersFault? room members
  | .null | .bool _ | .float _ | .str _ => none

def itemsFault? (room : Nat) : List Json → Option WriteFault
  | [] => none
  | item :: items => (writeFault? room item).or (itemsFault? room items)

def membersFault? (room : Nat) : List (Text × Json) → Option WriteFault
  | [] => none
  | (_, value) :: members => (writeFault? room value).or (membersFault? room members)

end

end AbiRecovery.Json
