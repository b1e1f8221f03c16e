/-!
# Double-precision reals

A real of the language is a binary64 number, kept as sign, mantissa and exponent so that reading,
comparing and printing are exact integer arithmetic. Decimals are read by rounding the quotient they
denote to the nearest number, a tie going to the even mantissa.
-/

namespace DiceScript

/-- A binary64 number. `finite negative m e` is `± m · 2 ^ e`, with `m < 2 ^ 53`, `-1074 ≤ e`, and
`2 ^ 52 ≤ m` unless `e = -1074`, so that the two zeros are the only equal numbers with two forms. -/
inductive Binary64 where
  | nan
  | infinite (negative : Bool)
  | finite (negative : Bool) (mantissa : Nat) (exponent : Int)
deriving DecidableEq

namespace Binary64

/-- The two parts of a power of a base: `base ^ e` is the first over the second. -/
def powerParts (base : Nat) (e : Int) : Nat × Nat :=
  if 0 ≤ e then (base.pow e.toNat, 1) else (1, base.pow (-e).toNat)

/-- The quotient rounded to the nearest integer, a half going to the even neighbour. -/
def roundDiv (num den : Nat) : Nat :=
  let q := num / den
  let r := num % den
  if den < 2 * r || (2 * r == den && q % 2 == 1) then q + 1 else q

def toRat? : Binary64 → Option Rat
  | .finite negative m e =>
    let (num, den) := powerParts 2 e
    let magnitude := mkRat (m * num) den
    some (if negative then -magnitude else magnitude)
  | _ => none

/-- The largest exponent of a power of two not above `num / den`. -/
def floorLog2 (num den : Nat) : Int :=
  let k : Int := (num.log2 : Int) - (den.log2 : Int)
  let (up, down) := powerParts 2 k
  if den * up ≤ num * down then k else k - 1

/-- The binary64 number nearest to `± num / den`. -/
def ofQuotient (negative : Bool) (num den : Nat) : Binary64 :=
  if num = 0 then .finite negative 0 (-1074)
  else
    let e := max (floorLog2 num den - 52) (-1074)
    let (up, down) := powerParts 2 e
    let m := roundDiv (num * down) (den * up)
    let (m, e) := if m = Nat.pow 2 53 then (Nat.pow 2 52, e + 1) else (m, e)
    if 971 < e then .infinite negative else .finite negative m e

def decimalLength (n : Nat) : Nat :=
  (Nat.toDigits 10 n).length

/-- The binary64 number nearest to `± digits · 10 ^ e`. Values far outside the range are settled
without computing the power. -/
def ofDecimal (negative : Bool) (digits : Nat) (e : Int) : Binary64 :=
  let size : Int := decimalLength digits + e
  if digits = 0 || size < -330 then .finite negative 0 (-1074)
  else if 311 < size then .infinite negative
  else
    let (num, den) := powerParts 10 e
    ofQuotient negative (digits * num) den

/-- The number nearest to an integer; `none` when it is beyond the largest finite one. -/
def ofInt? (n : Int) : Option Binary64 :=
  match ofQuotient (decide (n < 0)) n.natAbs 1 with
  | .infinite _ => none
  | x => some x

/-- Numeric equality: the two zeros are equal and a `nan` equals nothing. -/
def same : Binary64 → Binary64 → Bool
  | .infinite a, .infinite b => a == b
  | x, y =>
    match x.toRat?, y.toRat? with
    | some a, some b => a == b
    | _, _ => false

/-- Strictly between zero and one. -/
def isProper (x : Binary64) : Bool :=
  match x.toRat? with
  | some q => decide (0 < q) && decide (q < 1)
  | none => false

def exceeds (x : Binary64) (q : Rat) : Bool :=
  match x.toRat? with
  | some v => decide (q < v)
  | none => x == .infinite false

end Binary64

end DiceScript
