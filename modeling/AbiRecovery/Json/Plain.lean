import AbiRecovery.Json.Basic

/-!
# Plain text of a value

How a value reads where a text was wanted: a text stands for itself, everything else is spelled out,
and texts inside containers are quoted.
-/
namespace AbiRecovery.Json

def plainNumbers : Decimal.Format := ⟨-4, 16, "inf", "nan"⟩

mutual

/-- A value inside a container, in front of `rest`. -/
def nested (value : Json) (rest : List Char) : List Char :=
  match value with
  | .null => "None".toList ++ rest
  | .bool true => "True".toList ++ rest
  | .bool false => "False".toList ++ rest
  | .int n => (toString n).toList ++ rest
  | .float x => plainNumbers.text x ++ rest
  | .str text => Text.quotedChars text ++ rest
  | .arr [] => '[' :: ']' :: rest
  | .arr (item :: items) => '[' :: nested item (nestedItems items (']' :: rest))
  | .obj [] => '\x7b' :: '\x7d' :: rest
  | .obj ((key, value) :: members) =>
    '\x7b' :: Text.quotedChars key ++ ':' :: ' ' :: nested value (nestedMembers members ('\x7d' :: rest))

/-- The items after the first, in front of `rest`. -/
def nestedItems (items : List Json) (rest : List Char) : List Char :=
  match items with
  | [] => rest
  | item :: items => ',' :: ' ' :: nested item (nestedItems items rest)

/-- The members after the first, in front of `rest`. -/
def nestedMembers (members : List (Text × Json)) (rest : List Char) : List Char :=
  match members with
  | [] => rest
  | (key, value) :: members =>
    ',' :: ' ' :: Text.quotedChars key ++ ':' :: ' ' :: nested value (nestedMembers members rest)

end

def plain : Json → Text
  | .str text => text
  | value => Text.ofChars (nested value [])

end AbiRecovery.Json
