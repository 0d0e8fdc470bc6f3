import Circuit.Text.Basic

/-!
# Blank characters

The blanks of Unicode text, the removal of blanks at both ends, and the division of a text
into words.

* `isBlank` is the table of blank characters.
* `isNumberBlank` leaves out the four separator controls, which may not surround a number.
* `stripBy` removes blanks at both ends, and `wordsBy` takes a row apart at them.
-/

namespace Circuit.Text

/-- The blank characters of Unicode, the separator controls U+001C to U+001F included. -/
def isBlank (c : Char) : Bool :=
  let n := c.toNat
  (9 ≤ n && n ≤ 13) || (0x1c ≤ n && n ≤ 0x20) || n == 0x85 || n == 0xa0 || n == 0x1680 ||
    (0x2000 ≤ n && n ≤ 0x200a) || n == 0x2028 || n == 0x2029 || n == 0x202f || n == 0x205f ||
    n == 0x3000

/-- The blanks that may stand around a number: all but the separator controls. -/
def isNumberBlank (c : Char) : Bool :=
  isBlank c && !(0x1c ≤ c.toNat && c.toNat ≤ 0x1f)

def isBlankPoint : CodePoint → Bool
  | .scalar c => isBlank c
  | .surrogate _ => false

/-- Removes the members of a class at both ends of a row. -/
def stripBy {α : Type} (p : α → Bool) (row : List α) : List α :=
  ((row.dropWhile p).reverse.dropWhile p).reverse

def strip (cs : List Char) : List Char :=
  stripBy isBlank cs

/-- The words of a row, when `word` holds the current word backwards. -/
def wordsAfter {α : Type} (p : α → Bool) (word : List α) : List α → List (List α)
  | [] => if word.isEmpty then [] else [word.reverse]
  | c :: cs =>
      if p c then
        if word.isEmpty then wordsAfter p [] cs else word.reverse :: wordsAfter p [] cs
      else wordsAfter p (c :: word) cs

/-- The maximal runs without a member of a class, in order. -/
def wordsBy {α : Type} (p : α → Bool) (row : List α) : List (List α) :=
  wordsAfter p [] row

end Circuit.Text
