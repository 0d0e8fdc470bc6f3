import Circuit.Text.Blank
import Circuit.Witness.Basic

/-!
# Witness files

A witness as text: one line for each variable, in the order of the variables, with the variable and
its value in decimal.

* `Witness.lines` are the lines, `Witness.write` ends each of them, `Witness.text` separates them.
* `Witness.read` reads a file into a witness over a field. Blank lines are skipped, and a variable
  may have only one line, in whatever spelling.
-/

namespace Circuit.Witness

open Circuit.Text

def lines (w : Witness) : List String :=
  w.entries.map fun e => e.1.text ++ " " ++ Decimal.ofInt e.2

/-- The witness as a file. -/
def write (w : Witness) : String :=
  String.join (w.lines.map (· ++ "\n"))

def text (w : Witness) : String :=
  String.intercalate "\n" w.lines

/-- The pieces of a row of code points between line breaks. -/
def splitLines : List CodePoint → List (List CodePoint)
  | [] => [[]]
  | p :: ps =>
      if p = .scalar '\n' then [] :: splitLines ps
      else
        match splitLines ps with
        | line :: rest => (p :: line) :: rest
        | [] => [[p]]

/-- Adds the assignment of one line to a witness. -/
def readLine (F : Field) (number : Nat) (line : List CodePoint) (w : Witness) :
    Except Fault Witness :=
  let line := stripBy isBlankPoint line
  if line.isEmpty then .ok w
  else
    match wordsBy isBlankPoint line with
    | [name, value] =>
        match Variable.parse ⟨name⟩ with
        | .error fault => .error fault
        | .ok v =>
            if w.contains v then .error (.repeatedVariable number v)
            else (F.parse ⟨value⟩).map fun x => w.insert v x.toInt
    | _ => .error (.malformedLine number (quoted ⟨line⟩))

/-- Adds the assignments of lines to a witness; the first line has the given number. -/
def readLines (F : Field) : Nat → List (List CodePoint) → Witness → Except Fault Witness
  | _, [], w => .ok w
  | number, line :: rest, w =>
      match readLine F number line w with
      | .error fault => .error fault
      | .ok w => readLines F (number + 1) rest w

def read (F : Field) (text : Text) : Except Fault Witness :=
  readLines F 1 (splitLines text.points) empty

end Circuit.Witness
