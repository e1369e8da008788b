import AbiRecovery.Text.Split

/-!
# Locations

The path of a file, by its parts. Empty parts and single dots are dropped when a path is read, so a
path has one form however many separators it was written with. A path from the root begins with the
root's own mark, one separator or two.
-/
namespace AbiRecovery

abbrev Location : Type := List Text

namespace Location

def root : Text := "/"

/-- The part that stands for the root where two separators are written for it. -/
def doubleRoot : Text := "//"

/-- The part that leads to the directory above. -/
def up : Text := ".."

def roots : List Text := [root, doubleRoot]

def ofText (text : Text) : Location :=
  let parts := (Text.splitAt '/' text).filter fun (part : Text) => part ≠ "" && part ≠ "."
  match (text.takeWhile (· = .char '/')).length with
  | 0 => parts
  | 2 => doubleRoot :: parts
  | _ => root :: parts

def joined (parts : List Text) : Text := Text.joinWith '/' parts

/-- The form in which messages show a path. The empty path is the working directory. -/
def text : Location → Text
  | [] => "."
  | first :: rest => if roots.contains first then first ++ joined rest else joined (first :: rest)

/-- Whether a path consists of a root, or leads from the working directory only upwards. -/
def isBase (here : Location) : Bool :=
  here.all (· = up) || (here.length = 1 && roots.contains (here.headD ""))

/-- The directory above a directory. There is none above a root. -/
def above (here : Location) : Location :=
  if !here.isBase then here.dropLast
  else if roots.contains (here.headD "") then here
  else here ++ [up]

end Location

end AbiRecovery
