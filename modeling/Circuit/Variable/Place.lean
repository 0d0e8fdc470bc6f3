import Circuit.Json.Arithmetic
import Circuit.Json.Text
import Circuit.Variable.Reading

/-!
# Places under any size

The size of a public section may come from outside, and then it may be any value. A negative size
leaves no room for public slots and moves the local wires down; a floating-point size makes
floating-point places.

* `Variable.placeIn` is the place of a variable.
-/

namespace Circuit

def Json.Number.isBelow (bound : Int) : Json.Number → Bool
  | .exact n => n < bound
  | .real x => x.isBelow bound

namespace Variable

/-- The place of a variable when the public section has the given size. -/
def placeIn (size : Json) : Variable → Except Fault Json
  | .one => .ok (.int 0)
  | .loc id _ => (Json.int id).add size
  | .pub index =>
      match size.asNumber? with
      | none => .error .unsupported
      | some n =>
          if n.isBelow (index + 1) then .error (outside size.literal (.pub index))
          else .ok (.int (index + 1))

end Variable

end Circuit
