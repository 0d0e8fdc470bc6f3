import Circuit.Fault
import Circuit.Text.Quoted

/-!
# Reading variables

Variables from a kind and an index, and from their texts. The text may have blanks around it, and
its index may use the digits of any script.

* `Variable.make` refuses an index outside its kind.
* `Variable.parse` reads `~one`, `~out_` and digits, or `_` and digits.
* `Variable.wire` is `wire?` with the fault of a public variable outside its section.
-/

namespace Circuit.Variable

open Circuit.Text

inductive Kind
  | one
  | pub
  | loc
deriving DecidableEq, Repr

def make (kind : Kind) (index : Int) : Except Fault Variable :=
  match kind with
  | .one => if index = 0 then .ok .one else .error (.constantIndex index)
  | .pub => if 0 ≤ index then .ok (.pub index.toNat) else .error (.publicIndex index)
  | .loc => if h : 0 < index.toNat then .ok (.loc index.toNat h) else .error (.localIndex index)

/-- Reads the digits of an index after the mark of its kind. `whole` is the text to blame. -/
def parseIndex (whole : Text) (kind : Kind) (cs : List Char) : Except Fault Variable :=
  match cs, Decimal.plainDigits? cs with
  | _ :: _, some ds =>
      if ds.length ≤ Decimal.digitLimit then make kind (Decimal.value ds) else .error .digitLimit
  | _, _ => .error (.notVariable (quoted whole))

/-- Reads the text of a variable. -/
def parse (text : Text) : Except Fault Variable :=
  match text.scalars?.map strip with
  | some ['~', 'o', 'n', 'e'] => .ok .one
  | some ('~' :: 'o' :: 'u' :: 't' :: '_' :: ds) => parseIndex text .pub ds
  | some ('_' :: ds) => parseIndex text .loc ds
  | _ => .error (.notVariable (quoted text))

/-- The fault of a public slot outside a public section whose size has the given text. It names the wire,
as long as that can be written. -/
def outside (size : String) (v : Variable) : Fault :=
  if Decimal.isWritable (v.index + 1) then .outsidePublic v (v.index + 1) size else .digitLimit

def wire (shift : Nat) (v : Variable) : Except Fault Nat :=
  match v.wire? shift with
  | some n => .ok n
  | none => .error (v.outside (Decimal.ofNat shift))

end Circuit.Variable
