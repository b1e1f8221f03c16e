import DiceScript.Numeral.Binary64

/-!
# The text of a real

A real is written with the fewest decimal digits that read back as the same number, and with the
digits nearest to it among those. The digits are found by testing, for one digit, two digits and so
on, the two neighbours of the number on that decimal grid against the interval of reals that round to
it; the interval contains its ends exactly when the mantissa is even.
-/

namespace DiceScript.Binary64

/-- A number with the interval of reals that round to it, over one denominator. -/
structure Rounding where
  low : Nat
  value : Nat
  high : Nat
  denominator : Nat
  closed : Bool

/-- The interval around `m · 2 ^ e`. Below a power of two the spacing is half as wide. -/
def rounding (m : Nat) (e : Int) : Rounding :=
  let (up, down) := powerParts 2 e
  let below := if m = Nat.pow 2 52 && decide (-1074 < e) then 1 else 2
  { low := (4 * m - below) * up, value := 4 * m * up, high := (4 * m + 2) * up,
    denominator := 4 * down, closed := m % 2 == 0 }

/-- Whether the grid point `t · 10 ^ unit` rounds to the number. -/
def Rounding.contains (r : Rounding) (t : Nat) (unit : Int) : Bool :=
  let (up, down) := powerParts 10 unit
  let point := t * up * r.denominator
  if r.closed then decide (r.low * down ≤ point) && decide (point ≤ r.high * down)
  else decide (r.low * down < point) && decide (point < r.high * down)

/-- The grid point below the number, and whether the one above is nearer (`none` for a tie). -/
def Rounding.below (r : Rounding) (unit : Int) : Nat × Option Bool :=
  let (up, down) := powerParts 10 unit
  let step := up * r.denominator
  let t := r.value * down / step
  let rest := 2 * (r.value * down % step)
  (t, if rest = step then none else some (decide (step < rest)))

/-- The grid point that rounds to the number, the nearer one if both do. -/
def Rounding.onGrid? (r : Rounding) (unit : Int) : Option Nat :=
  let (t, nearer) := r.below unit
  let lower := r.contains t unit
  let upper := r.contains (t + 1) unit
  if lower && upper then
    let up := nearer.getD (t % 2 == 1)
    some (if up then t + 1 else t)
  else if lower then some t
  else if upper then some (t + 1)
  else none

/-- The first grid with a point that rounds to the number, searching `fuel` grids of which the next
has `digits` digits. A number is below `10 ^ size`. -/
def Rounding.search (r : Rounding) (size : Int) : Nat → Nat → Nat × Int
  | 0, digits => ((r.below (size - digits)).1, size - digits)
  | fuel + 1, digits =>
    match r.onGrid? (size - digits) with
    | some t => (t, size - digits)
    | none => r.search size fuel (digits + 1)

/-- The number without its trailing zeros, and how many there were, looking at `fuel` of them. -/
def dropZeros : Nat → Nat → Nat × Nat
  | 0, t => (t, 0)
  | fuel + 1, t =>
    if t % 10 = 0 && t != 0 then
      let (s, zeros) := dropZeros fuel (t / 10)
      (s, zeros + 1)
    else (t, 0)

/-- The shortest decimal `digits · 10 ^ exponent` that reads back as `m · 2 ^ e`, for `m ≠ 0`. -/
def shortest (m : Nat) (e : Int) : Nat × Int :=
  let r := rounding m e
  let size : Int := (decimalLength (r.value * Nat.pow 10 400 / r.denominator) : Int) - 400
  let (t, unit) := r.search size 17 1
  let (digits, zeros) := dropZeros 20 t
  (digits, unit + zeros)

/-- Decimal digits, padded with zeros in front to a least width. -/
def paddedDigits (width n : Nat) : String :=
  let digits := String.ofList (Nat.toDigits 10 n)
  ("".pushn '0' (width - digits.length)) ++ digits

/-- A decimal is written positionally when its leading digit stands for `10 ^ -4` to `10 ^ 15`, with
at least one digit after the point; otherwise with an exponent of a sign and at least two digits. -/
def decimalText (digits : Nat) (exponent : Int) : String :=
  let ds := Nat.toDigits 10 digits
  let point : Int := ds.length + exponent
  if decide (-4 < point) && decide (point ≤ 16) then
    if point ≤ 0 then
      "0." ++ "".pushn '0' (-point).toNat ++ String.ofList ds
    else if (ds.length : Int) ≤ point then
      String.ofList ds ++ "".pushn '0' exponent.toNat ++ ".0"
    else
      String.ofList (ds.take point.toNat) ++ "." ++ String.ofList (ds.drop point.toNat)
  else
    let scale := point - 1
    let lead := String.ofList (ds.take 1)
    let tail := if ds.length = 1 then "" else "." ++ String.ofList (ds.drop 1)
    let sign := if scale < 0 then "-" else "+"
    lead ++ tail ++ "e" ++ sign ++ paddedDigits 2 scale.natAbs

def display : Binary64 → String
  | .nan => "nan"
  | .infinite negative => if negative then "-inf" else "inf"
  | .finite negative m e =>
    let magnitude :=
      if m = 0 then "0.0"
      else
        let (digits, exponent) := shortest m e
        decimalText digits exponent
    if negative then "-" ++ magnitude else magnitude

end DiceScript.Binary64
