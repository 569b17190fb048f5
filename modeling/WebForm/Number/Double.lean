/-!
# Double-precision numbers

A number is its 64 bits. A finite one stands for `± m * 2 ^ q`; comparison and rounding are exact
arithmetic on `m` and `q`.
-/
namespace WebForm

structure Double where
  bits : UInt64
  deriving DecidableEq, Repr

structure Magnitude where
  m : Nat
  q : Int
  deriving DecidableEq, Repr

inductive Double.Reading where
  | nan
  | infinite (negative : Bool)
  | finite (negative : Bool) (magnitude : Magnitude)
  deriving DecidableEq, Repr

/-- `base ^ e`, and one when `e` is negative: a fraction keeps the powers of its two halves
apart. -/
def raise (base : Nat) (e : Int) : Nat := Nat.pow base e.toNat

/-- The magnitude's bits are 11 for the exponent and 52 for the fraction; this is `2 ^ 52`. -/
def hiddenBit : Nat := 0x10000000000000

def signBit : Nat := 0x8000000000000000

def infinityBits : Nat := 0x7FF * hiddenBit

def Magnitude.ofBits (b : Nat) : Magnitude :=
  let e : Nat := b / hiddenBit
  let f : Nat := b % hiddenBit
  if e = 0 then ⟨f, -1074⟩ else ⟨hiddenBit + f, (e : Int) - 1075⟩

def Double.reading (d : Double) : Double.Reading :=
  let n := d.bits.toNat
  let negative := signBit ≤ n
  let b := n % signBit
  if b < infinityBits then .finite negative (.ofBits b)
  else if b = infinityBits then .infinite negative
  else .nan

def Double.isNaN (d : Double) : Bool := d.reading == .nan

def Double.ofMagnitudeBits (negative : Bool) (b : Nat) : Double :=
  ⟨(b + if negative then signBit else 0).toUInt64⟩

def Double.nan : Double := ⟨0x7FF8000000000000⟩
def Double.infinity (negative : Bool) : Double := .ofMagnitudeBits negative infinityBits

/-- The whole number nearest to `num / den`; halves go to the even neighbour. -/
def roundHalfEven (num den : Nat) : Nat :=
  let floor := num / den
  let rest := num % den
  if 2 * rest < den || (2 * rest = den && floor % 2 = 0) then floor else floor + 1

/-- `num / den` as a power of two: `2 ^ e ≤ num / den < 2 ^ (e + 1)`. -/
def binaryExponent (num den : Nat) : Int :=
  let e : Int := (num.log2 : Int) - den.log2
  if num * raise 2 (-e) < den * raise 2 e then e - 1 else e

/-- The bits of the magnitude nearest to `num / den`. Halves go to even fractions, and what is too
large is infinite. A fraction that is rounded up to the next power of two carries into the
exponent. -/
def magnitudeBits (num den : Nat) : Nat :=
  if num = 0 then 0
  else
    let q := max (binaryExponent num den - 52) (-1074)
    let m := roundHalfEven (num * raise 2 (-q)) (den * raise 2 q)
    min (m + (q + 1074).toNat * hiddenBit) infinityBits

/-- The number nearest to `± digits * 10 ^ exponent`. Exponents far beyond the range are not
computed with. -/
def Double.ofDecimal (negative : Bool) (digits : Nat) (exponent : Int) : Double :=
  let scale := ((Nat.toDigits 10 digits).length : Int) + exponent
  if digits = 0 || scale < -400 then .ofMagnitudeBits negative 0
  else if 400 < scale then .infinity negative
  else
    .ofMagnitudeBits negative
      (magnitudeBits (digits * raise 10 exponent) (raise 10 (-exponent)))

/-- Numbers that can be compared exactly: integers and doubles that are not NaN. A finite one is
`n * 2 ^ q`. -/
inductive Rank where
  | bottom
  | at (n : Int) (q : Int)
  | top
  deriving DecidableEq, Repr

def Rank.ofInt (i : Int) : Rank := .at i 0

def Double.rank? (d : Double) : Option Rank :=
  match d.reading with
  | .nan => none
  | .infinite negative => some (if negative then .bottom else .top)
  | .finite negative ⟨m, q⟩ => some (.at (if negative then -(m : Int) else m) q)

def Rank.compare : Rank → Rank → Ordering
  | .bottom, .bottom => .eq
  | .bottom, _ => .lt
  | _, .bottom => .gt
  | .top, .top => .eq
  | .top, _ => .gt
  | _, .top => .lt
  | .at n q, .at n' q' =>
    let low := min q q'
    Ord.compare (n * raise 2 (q - low)) (n' * raise 2 (q' - low))

end WebForm
