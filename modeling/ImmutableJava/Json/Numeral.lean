import ImmutableJava.RoundToBits

/-!
# Numerals of JSON documents

A numeral is kept as its digits, since the only questions asked of it are whether it
is a natural number and whether its magnitude stays finite as a double.

## Magnitudes

The magnitude of a numeral is worked out as a product of two doubles.  One is the
*significand*, the number that the digits denote as long as it fits into 64 bits;
digits that no longer fit are left away, and only the place of a digit before the
point still counts.  The other is a power of ten.  Both are rounded before they are
multiplied, so near the largest double the product can be too large although the
numeral is not: the double nearest to `1.7976931348623157159e308` is the largest one,
and the numeral is too large all the same.

A power of ten with an exponent below zero divides, which never makes anything too
large, and the exponents of powers go up to 308.
-/

namespace ImmutableJava

namespace Json

/-- A numeral by its parts. -/
structure Numeral where
  /-- Whether there is a minus sign. -/
  negative : Bool
  /-- The digits before the point. -/
  whole : List Char
  /-- The digits after the point; none without a point. -/
  fraction : List Char
  /-- The exponent, if there is one. -/
  exponent? : Option Int
  deriving DecidableEq, Repr

namespace Numeral

/-- The value of a digit. -/
def digitValue (c : Char) : Nat := c.toNat - '0'.toNat

/-- The natural number that digits denote. -/
def natOfDigits (cs : List Char) : Nat := cs.foldl (fun n c => 10 * n + digitValue c) 0

/-- The natural number that the numeral denotes, if it is written as one: without a
sign, a point and an exponent. -/
def toNat? (n : Numeral) : Option Nat :=
  if !n.negative && n.fraction.isEmpty && n.exponent?.isNone then some (natOfDigits n.whole)
  else none

/-! ## The magnitude -/

/-- The smallest number that does not fit into 64 bits. -/
def wordSize : Nat := Nat.pow 2 64

/-- The number of significant bits of a double. -/
def doubleBits : Nat := 53

/-- The smallest magnitude that rounds to infinity as a double: halfway from the
largest double to the next power of two. -/
def overflow : Nat := Nat.pow 2 1024 - Nat.pow 2 970

/-- The largest exponent of a power of ten that is a double. -/
def maxExponent : Nat := 308

/-- Appends digits to a number as long as it fits into 64 bits, and counts the digits
that are left over. -/
def append (n : Nat) : List Char → Nat × Nat
  | [] => (n, 0)
  | c :: cs =>
    if 10 * n + digitValue c < wordSize then append (10 * n + digitValue c) cs
    else (n, cs.length + 1)

/-- The significand and the exponent of its power of ten. -/
def scaled (n : Numeral) : Nat × Int :=
  let (whole, dropped) := append 0 n.whole
  let (significand, unused) := append whole n.fraction
  (significand, n.exponent?.getD 0 + dropped - (n.fraction.length - unused : Nat))

/-- Whether the magnitude is finite as a double. -/
def inRange (n : Numeral) : Bool :=
  match n.scaled with
  | (0, _) => true
  | (_, .negSucc _) => true
  | (significand, .ofNat exponent) =>
    exponent ≤ maxExponent &&
      roundToBits doubleBits significand * roundToBits doubleBits (Nat.pow 10 exponent) < overflow

/-! ## Reading -/

/-- Digits, at least one, and what follows them. -/
def digits? (cs : List Char) : Option (List Char × List Char) :=
  let digits := cs.takeWhile Char.isDigit
  if digits.isEmpty then none else some (digits, cs.dropWhile Char.isDigit)

/-- The digits before the point: a lone zero, or digits that start with no zero. -/
def whole? (cs : List Char) : Option (List Char × List Char) := do
  let (digits, rest) ← digits? cs
  if digits.head? = some '0' && 1 < digits.length then none else some (digits, rest)

/-- The digits after the point, if there is one. -/
def fraction? : List Char → Option (List Char × List Char)
  | '.' :: rest => digits? rest
  | rest => some ([], rest)

/-- The number after the exponent mark, which ends the numeral. -/
def exponentValue? : List Char → Option Int
  | '+' :: rest => unsigned? rest
  | '-' :: rest => (unsigned? rest).map (- ·)
  | rest => unsigned? rest
where
  unsigned? (cs : List Char) : Option Int := do
    let (digits, rest) ← digits? cs
    if rest.isEmpty then some (natOfDigits digits : Int) else none

/-- The exponent, if there is one; nothing else may follow. -/
def readExponent? : List Char → Option (Option Int)
  | [] => some none
  | 'e' :: rest => (exponentValue? rest).map some
  | 'E' :: rest => (exponentValue? rest).map some
  | _ => none

/-- The numeral that characters spell. -/
def ofChars? (cs : List Char) : Option Numeral := do
  let (negative, cs) :=
    match cs with
    | '-' :: rest => (true, rest)
    | _ => (false, cs)
  let (whole, rest) ← whole? cs
  let (fraction, rest) ← fraction? rest
  return ⟨negative, whole, fraction, ← readExponent? rest⟩

end Numeral

end Json

end ImmutableJava
