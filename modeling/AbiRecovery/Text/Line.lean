import AbiRecovery.Text.Basic

/-!
# Lines

A line ends at a line feed, a carriage return, both together, a vertical tab, a form feed, one of
the separators U+001C to U+001E, U+0085, U+2028 or U+2029. An end of line after the last line
starts no further line, so the empty text has no line at all.
-/
namespace AbiRecovery.Text

def endsLine (c : Char) : Bool :=
  let n := c.toNat
  (0x0A ≤ n && n ≤ 0x0D) || (0x1C ≤ n && n ≤ 0x1E) || n == 0x85 || n == 0x2028 || n == 0x2029

/-- The lines of a text, after the symbols `current` (last first) of a line already begun. -/
def linesFrom (current : Text) : Text → List Text
  | [] => if current.isEmpty then [] else [current.reverse]
  | .char '\r' :: .char '\n' :: rest => current.reverse :: linesFrom [] rest
  | c :: rest => if c.isIn endsLine then current.reverse :: linesFrom [] rest else linesFrom (c :: current) rest

/-- The lines of a text, without what ends them. -/
def lines (t : Text) : List Text := linesFrom [] t

/-- Turns each carriage return, with the line feed that follows it if there is one, into a line feed. -/
def unifyLineEnds : Text → Text
  | [] => []
  | .char '\r' :: .char '\n' :: rest => .char '\n' :: unifyLineEnds rest
  | c :: rest => (if c = .char '\r' then .char '\n' else c) :: unifyLineEnds rest

end AbiRecovery.Text
