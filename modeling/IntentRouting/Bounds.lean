import IntentRouting.Malformed
import IntentRouting.Text.Blank
import IntentRouting.Text.Split

/-!
# Screen bounds

The rectangle that a request comes from, as four numbers of 32 bits with blanks between them.
-/

namespace IntentRouting

/-- A rectangle on the screen. -/
structure Bounds where
  left : Int32
  top : Int32
  right : Int32
  bottom : Int32
deriving DecidableEq, Repr

namespace Bounds

def sides : Integer.Bounds := .signed 32

/-- The four sides with a space between two of them. -/
def text (bounds : Bounds) : String :=
  String.ofList (Text.join [' '] ([bounds.left, bounds.top, bounds.right, bounds.bottom].map
    fun side => Integer.digits side.toInt))

/-- Reads the words as numbers, up to the first fault. -/
def readSides : List (List Char) → Except IntegerFault (List Int32)
  | [] => .ok []
  | word :: words =>
      match Integer.read 10 sides word with
      | .error fault => .error fault
      | .ok side => (readSides words).map (Int32.ofInt side :: ·)

/-- Reads four sides with blanks between them. -/
def parse (text : String) : Except Malformed Bounds :=
  match readSides (Text.words text.toList) with
  | .error fault => .error (.bounds text (some fault))
  | .ok [left, top, right, bottom] => .ok ⟨left, top, right, bottom⟩
  | .ok _ => .error (.bounds text none)

end Bounds

end IntentRouting
