import WebForm.Number.Double

/-!
# The shortest decimal text of a number

Among the decimals that round to the number, those with the fewest digits are taken, and of those
the nearest. A layout says where positional writing ends.
-/
namespace WebForm

/-- `digits * 10 ^ exponent` -/
structure Decimal where
  digits : Nat
  exponent : Int
  deriving DecidableEq, Repr

/-- Compares `a * 10 ^ i` with `n * 2 ^ j`. -/
def compareScaled (a : Nat) (i : Int) (n : Nat) (j : Int) : Ordering :=
  compare (a * raise 10 i * raise 2 (-j)) (n * raise 2 j * raise 10 (-i))

/-- The gap to the number below is half as wide as the gap above. -/
def Magnitude.isPowerOfTwo (x : Magnitude) : Bool := x.m == hiddenBit && -1074 < x.q

/-- Whether the decimal lies among the reals that round to `x`. The ends of that interval belong to
it when `m` is even. -/
def Magnitude.roundsFrom (x : Magnitude) (d : Decimal) : Bool :=
  let low := if x.isPowerOfTwo then 4 * x.m - 1 else 4 * x.m - 2
  let atLow := compareScaled d.digits d.exponent low (x.q - 2)
  let atHigh := compareScaled d.digits d.exponent (4 * x.m + 2) (x.q - 2)
  let even := x.m % 2 == 0
  (atLow == .gt || (even && atLow == .eq)) && (atHigh == .lt || (even && atHigh == .eq))

/-- The least `k` with `num / den < 10 ^ k`. -/
def decimalScale (num den : Nat) : Int :=
  if den ≤ num then (Nat.toDigits 10 (num / den)).length
  else
    let places := (Nat.toDigits 10 (den / num)).length
    if num * raise 10 ((places : Int) - 1) = den then 2 - (places : Int) else 1 - (places : Int)

/-- The nearer of the decimals of the grid `10 ^ exponent` that round to `x`, if there is one; a tie
goes to the even digit. -/
def Magnitude.onGrid? (x : Magnitude) (num den : Nat) (exponent : Int) : Option Decimal :=
  let num := num * raise 10 (-exponent)
  let den := den * raise 10 exponent
  let nearest := roundHalfEven num den
  let other := if nearest = num / den then nearest + 1 else num / den
  if x.roundsFrom ⟨nearest, exponent⟩ then some ⟨nearest, exponent⟩
  else if x.roundsFrom ⟨other, exponent⟩ then some ⟨other, exponent⟩
  else none

/-- The shortest decimal of a magnitude other than zero. Seventeen digits are enough for every
number. -/
def Magnitude.shortest (x : Magnitude) : Decimal :=
  let num := x.m * raise 2 x.q
  let den := raise 2 (-x.q)
  let k := decimalScale num den
  ((List.range 17).findSome? fun (n : Nat) => x.onGrid? num den (k - ((n : Int) + 1))).getD ⟨num, 0⟩

/-- How decimals are written. Magnitudes from `10 ^ (smallest - 1)` up to `10 ^ largest` are written
positionally, with a fraction of at least one digit; others with a signed exponent. -/
structure DecimalLayout where
  smallest : Int
  largest : Int
  exponentDigits : Nat

def Decimal.render (layout : DecimalLayout) (d : Decimal) : List Char :=
  let all := Nat.toDigits 10 d.digits
  let point : Int := all.length + d.exponent
  let digits := (all.reverse.dropWhile (· = '0')).reverse
  if layout.smallest ≤ point && point ≤ layout.largest then
    if point ≤ 0 then '0' :: '.' :: (List.replicate (-point).toNat '0' ++ digits)
    else
      let whole := digits.take point.toNat
      let fraction := digits.drop point.toNat
      whole ++ List.replicate (point.toNat - whole.length) '0' ++
        '.' :: (if fraction.isEmpty then ['0'] else fraction)
  else
    let e := point - 1
    let written := Nat.toDigits 10 e.natAbs
    let fraction := digits.drop 1
    digits.take 1 ++ (if fraction.isEmpty then [] else '.' :: fraction) ++
      'e' :: (if e < 0 then '-' else '+') ::
        (List.replicate (layout.exponentDigits - written.length) '0' ++ written)

def messageLayout : DecimalLayout := ⟨-3, 16, 2⟩

def Double.display (d : Double) : String :=
  match d.reading with
  | .nan => "nan"
  | .infinite negative => if negative then "-inf" else "inf"
  | .finite negative x =>
    let text := if x.m = 0 then ['0', '.', '0'] else x.shortest.render messageLayout
    String.ofList (if negative then '-' :: text else text)

end WebForm
