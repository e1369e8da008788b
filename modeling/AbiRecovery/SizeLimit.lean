/-!
# Limits of sizes

A size is a signed number of 64 bits, and memory is finite. A number that is beyond either limit is
refused where it is used as a size.
-/
namespace AbiRecovery

inductive SizeFault where
  /-- It is no size. -/
  | noSize
  /-- It is no size, and was meant as a number of repetitions. -/
  | noCount
  /-- Bytes and what describes them do not fit a size together. -/
  | tooManyBytes
  /-- There is not so much memory. -/
  | noMemory
  deriving DecidableEq, Repr

/-- The message for a fault. For missing memory there is none. -/
def SizeFault.message : SizeFault → String
  | .noSize => "Python int too large to convert to C ssize_t"
  | .noCount => "cannot fit 'int' into an index-sized integer"
  | .tooManyBytes => "byte string is too large"
  | .noMemory => ""

namespace SizeLimit

def least : Int := -0x8000000000000000

def greatest : Int := 0x7FFFFFFFFFFFFFFF

def isSize (n : Int) : Bool := least ≤ n && n ≤ greatest

/-- How many bytes may be asked for. -/
def memory : Int := 0x10000000000

/-- The greatest number of bytes that fits a size together with what describes the bytes. -/
def greatestBytes : Int := greatest - 33

end SizeLimit

end AbiRecovery
