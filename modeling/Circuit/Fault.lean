import Circuit.Text.Basic
import Circuit.Variable.Basic

/-!
# Faults

Everything that can go wrong outside the reading of a constraint file, by cause, and the wording of
each cause in one place.

* `Fault.message?` is the wording; a fault without one is not told apart further.
* `Fault.kind` sorts the faults by what is wrong.
* `Fault.isInvariant` marks the faults of a circuit that contradicts itself, as against faults of the
  data handed in.
-/

namespace Circuit

/-- More bytes, or members of a row, than any memory holds. -/
def memoryBound : Nat := 0x10000000000

/-- The cause of a failure. Values that the wording shows are held as text. -/
inductive Fault
  /-- A text that is no integer. -/
  | notInteger
  /-- A text that no bytes stand for. -/
  | unencodable
  /-- A value that is no number at all. -/
  | notNumeric
  /-- An infinite number where an integer is needed. -/
  | infiniteNumber
  /-- An integer beyond the range of what it is needed for: a floating-point number, or a count. -/
  | tooLarge
  /-- A result that no memory holds. -/
  | noMemory
  /-- A computation that never comes to an end. -/
  | endless
  /-- An integer with more digits than can be read or written. -/
  | digitLimit
  /-- An integer that is no element of the field. -/
  | outsideField (shown : Text)
  /-- A negative integer to be written as bytes. -/
  | negativeBytes (n : Int)
  /-- An integer that needs more bytes than `width`. -/
  | tooWide (n : Int) (width : String)
  /-- A negative count of bytes. -/
  | negativeWidth
  /-- An index other than zero for the constant wire. -/
  | constantIndex (index : Int)
  /-- A negative index for a public slot. -/
  | publicIndex (index : Int)
  /-- An id below one for a local wire. -/
  | localIndex (index : Int)
  /-- A text that names no variable. -/
  | notVariable (shown : String)
  /-- A public variable whose wire lies behind the public section. -/
  | outsidePublic (v : Variable) (wire : Nat) (shift : String)
  /-- A value that is no linear combination. -/
  | notLinear (shown : Text)
  /-- A variable without a value. -/
  | missingValue (v : Variable)
  /-- An assignment to a part of a value of a type whose values never change. -/
  | immutable (type : String)
  /-- A value without the operation asked of it. -/
  | noOperation
  /-- An operation on values that do not go together. -/
  | unsupported
  /-- A value that cannot be a member of a set. -/
  | notSetMember
  /-- A value that would have to be a text to be shown. -/
  | notText
  /-- A known solver with the wrong number of parameters. -/
  | solverParameters (name : Text) (parameters : String)
  /-- A known solver with the wrong numbers of inputs and outputs. -/
  | solverArity (solver : Text) (inputs : Nat) (outputs : Text) (givenInputs givenOutputs : Nat)
  /-- JSON data of another type than expected. -/
  | wrongType (what type shown : String)
  /-- An object without a field that it needs. -/
  | missingField (key : String)
  /-- A value that has no members to loop over. -/
  | notIterable
  /-- A row of other than two members where a pair is needed. -/
  | notPair
  /-- A statement of unknown type. -/
  | unknownType (shown : String)
  /-- A return count that is no natural number. -/
  | badReturnCount (shown : String)
  /-- A value that is no statement. -/
  | notStatement (shown : Text)
  /-- A public variable of a program without a value. -/
  | missingPublic (v : Variable)
  /-- A value that cannot supply statements. -/
  | notSource (shown : String)
  /-- A line of a witness file that is no pair of words. -/
  | malformedLine (number : Nat) (shown : String)
  /-- A second line of a witness file for one variable. -/
  | repeatedVariable (number : Nat) (v : Variable)
  /-- A value that is no program. -/
  | notProgram (type : String)
  /-- An integer outside the fixed width of its place in a file. -/
  | wordOverflow
  /-- A sink that takes no more bytes. -/
  | sinkFull
  /-- A register that does not exist. -/
  | noRegister
deriving DecidableEq, Repr

namespace Fault

def message? : Fault → Option Text
  | .outsideField shown => some ("필드 범위를 벗어난 값입니다: " ++ shown)
  | .negativeBytes n => some ("음수는 인코딩할 수 없습니다: " ++ Decimal.ofInt n)
  | .tooWide n width =>
      some (Decimal.ofInt n ++ "은 " ++ width ++ "바이트에 들어가지 않습니다")
  | .constantIndex i => some ("상수 배선의 인덱스는 0이어야 합니다: " ++ Decimal.ofInt i)
  | .publicIndex i => some ("공개 변수 인덱스는 0 이상이어야 합니다: " ++ Decimal.ofInt i)
  | .localIndex i => some ("로컬 변수 id는 1 이상이어야 합니다: " ++ Decimal.ofInt i)
  | .notVariable shown => some ("변수 형식이 아닙니다: " ++ shown)
  | .outsidePublic v wire shift =>
      some ("공개 변수 " ++ v.text ++ "의 배선 " ++ Decimal.ofNat wire ++ "이 공개 구역 크기 " ++
        shift ++ "를 넘습니다")
  | .notLinear shown => some ("LinComb로 변환할 수 없습니다: " ++ shown)
  | .missingValue v => some v.text
  | .immutable type => some (type ++ "은 불변(immutable) 객체입니다")
  | .solverParameters name parameters =>
      some ("솔버 " ++ name ++ "의 매개변수가 맞지 않습니다: " ++ parameters)
  | .solverArity solver inputs outputs givenInputs givenOutputs =>
      some ("솔버 " ++ solver ++ "는 입력 " ++ Decimal.ofNat inputs ++ "개, 출력 " ++ outputs ++
        "개를 받습니다 (입력 " ++ Decimal.ofNat givenInputs ++ "개, 출력 " ++
        Decimal.ofNat givenOutputs ++ "개 주어짐)")
  | .wrongType what type shown => some (what ++ "는 " ++ type ++ " 이어야 합니다: " ++ shown)
  | .missingField key => some key
  | .unknownType shown => some ("알 수 없는 문장 type 입니다: " ++ shown)
  | .badReturnCount shown => some ("return_count 가 잘못되었습니다: " ++ shown)
  | .notStatement shown => some ("알 수 없는 문장입니다: " ++ shown)
  | .missingPublic v => some ("위트니스에 공개 변수 " ++ v.text ++ "의 값이 없습니다")
  | .notSource shown => some ("문장 열로 사용할 수 없습니다: " ++ shown)
  | .malformedLine number shown =>
      some (Decimal.ofNat number ++ "번째 줄 형식이 잘못되었습니다: " ++ shown)
  | .repeatedVariable number v =>
      some (Decimal.ofNat number ++ "번째 줄: 변수 " ++ v.text ++ "가 중복되었습니다")
  | .notProgram type => some ("ProgIterator 가 필요합니다: " ++ type)
  | .sinkFull => some "disk full"
  | _ => none

/-- What is wrong, apart from where. -/
inductive Kind
  /-- A value of the right type that stands for nothing here. -/
  | value
  /-- A value of the wrong type. -/
  | type
  /-- Something that is looked up and not there. -/
  | absent
  /-- A part or an operation that the type of a value does not have. -/
  | access
  /-- A circuit that contradicts itself. -/
  | invariant
  /-- A number beyond its place in a file. -/
  | word
  /-- A file that cannot be written. -/
  | output
  /-- A register beyond the last one. -/
  | index
  /-- A number beyond the range of its type. -/
  | range
  /-- More than the memory holds. -/
  | memory
  /-- More nesting than can be followed. -/
  | depth
  /-- A text that no bytes stand for. -/
  | encoding
deriving DecidableEq, Repr

def kind : Fault → Kind
  | .unencodable => .encoding
  | .notNumeric | .notLinear _ | .unsupported | .notSetMember | .notText | .wrongType _ _ _
  | .notIterable | .notStatement _ | .notSource _ | .notProgram _ => .type
  | .missingValue _ | .missingField _ => .absent
  | .immutable _ | .noOperation => .access
  | .outsidePublic _ _ _ | .missingPublic _ => .invariant
  | .wordOverflow => .word
  | .sinkFull => .output
  | .noRegister => .index
  | .infiniteNumber | .tooLarge => .range
  | .noMemory => .memory
  | .endless => .depth
  | _ => .value

/-- Whether a circuit contradicts itself: it names a public slot that it does not have, or lacks
the value of a public variable. -/
def isInvariant : Fault → Bool
  | .outsidePublic _ _ _ => true
  | .missingPublic _ => true
  | _ => false

end Fault

end Circuit
