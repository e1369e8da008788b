import AbiRecovery.Database.Reader

/-!
# Writing rows

The payload of a row begins with its size up to the values and the types of the values; the values follow.
Whole numbers take as few bytes as they need, and zero and one take none.
-/
namespace AbiRecovery.Database

/-- The widths of whole numbers, with the types that stand for them. -/
def intWidths : List (Nat × Nat) := [(1, 1), (2, 2), (3, 3), (4, 4), (6, 5), (8, 6)]

/-- The type and the bytes of a whole number. -/
def intField (n : Int) : Nat × ByteArray :=
  if n = 0 then (8, ⟨#[]⟩)
  else if n = 1 then (9, ⟨#[]⟩)
  else
    let (width, type) := (intWidths.find? fun (width, _) => Int.bmod n (Nat.pow 256 width) = n).getD (8, 6)
    (type, fixed width (n % Nat.pow 256 width).toNat)

def Field.encoded : Field → Nat × ByteArray
  | .null => (0, ⟨#[]⟩)
  | .int n => intField n
  | .text bytes => (13 + 2 * bytes.size, bytes)
  | .blob bytes => (12 + 2 * bytes.size, bytes)
  | .real bytes => (7, bytes)

def joined (parts : List ByteArray) : ByteArray := parts.foldl (· ++ ·) ⟨#[]⟩

def payloadOf (fields : List Field) : ByteArray :=
  let encoded := fields.map Field.encoded
  let types := joined (encoded.map fun field => variableNumber field.1)
  let size := types.size + 1
  let size := if size < 128 then size else size + 1
  variableNumber size ++ types ++ joined (encoded.map Prod.snd)

end AbiRecovery.Database
