import Circuit.Field.Bytes

/-!
# Constraint files

What a constraint file holds, and what can be wrong with one.

* `File` is the content of a file.
* `FormatError.message` is the wording of each error.
-/

namespace Circuit.R1cs

/-- A linear combination of wires with plain integers as coefficients. -/
abbrev WireComb := List (Nat × Nat)

/-- The content of a constraint file. The sizes of its sections are listed as they appear. -/
structure File where
  version : Nat
  fieldSize : Nat
  prime : Nat
  wireCount : Nat
  publicOutputs : Nat
  publicInputs : Nat
  privateInputs : Nat
  labelCount : Nat
  constraintCount : Nat
  constraints : List (WireComb × WireComb × WireComb)
  labels : List Nat
  sectionSizes : List (Nat × Nat)
deriving DecidableEq, Repr

/-- What can be wrong with a constraint file. -/
inductive FormatError
  /-- The data end before `count` more bytes at `offset`. -/
  | truncated (offset count : Nat)
  | badMagic
  | badVersion (version : Nat)
  | repeatedSection (type : Nat)
  | trailingData
  | missingSection (type : Nat)
  | badHeaderSize
  | constraintCount (declared found : Nat)
  | labelCount (declared found : Nat)
deriving DecidableEq, Repr

def FormatError.message : FormatError → String
  | .truncated offset count =>
      "파일이 잘렸습니다: offset " ++ Decimal.ofNat offset ++ "에서 " ++ Decimal.ofNat count ++
        "바이트 필요"
  | .badMagic => "r1cs 매직 바이트가 아닙니다"
  | .badVersion version => "지원하지 않는 버전입니다: " ++ Decimal.ofNat version
  | .repeatedSection type => "섹션 " ++ Decimal.ofNat type ++ "이 중복되었습니다"
  | .trailingData => "마지막 섹션 뒤에 남은 데이터가 있습니다"
  | .missingSection type => "섹션 " ++ Decimal.ofNat type ++ "이 없습니다"
  | .badHeaderSize => "헤더 섹션 크기가 맞지 않습니다"
  | .constraintCount declared found =>
      "제약 개수 불일치: 헤더 " ++ Decimal.ofNat declared ++ ", 실제 " ++ Decimal.ofNat found
  | .labelCount declared found =>
      "레이블 개수 불일치: 헤더 " ++ Decimal.ofNat declared ++ ", 실제 " ++ Decimal.ofNat found

end Circuit.R1cs
