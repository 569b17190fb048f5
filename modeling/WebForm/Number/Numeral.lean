import WebForm.Number.Double
import WebForm.Text.Blank
import WebForm.Text.Digit

/-!
# Numerals

Reading whole numbers written with the digits from 0 to 9 and decimal numbers written with the
digits of any script.
-/
namespace WebForm

def ofDigits (ds : List Nat) : Nat := ds.foldl (fun n d => 10 * n + d) 0

def takeSign : List Char → Bool × List Char
  | '-' :: r => (true, r)
  | '+' :: r => (false, r)
  | s => (false, s)

inductive IntegerFault where
  | empty
  | digit
  | tooManyDigits (count : Nat)
  | tooLarge
  | tooSmall
  deriving DecidableEq, Repr

/-- More digits than this are not read. -/
def digitLimit : Nat := 4300

def IntegerFault.message : IntegerFault → String
  | .empty => "cannot parse integer from empty string"
  | .digit => "invalid digit found in string"
  | .tooManyDigits n =>
    s!"Exceeds the limit ({digitLimit} digits) for integer string conversion: value has {n} " ++
      "digits; use sys.set_int_max_str_digits() to increase the limit"
  | .tooLarge => "number too large to fit in target type"
  | .tooSmall => "number too small to fit in target type"

/-- The least and the greatest number of a range, where they exist. -/
structure IntegerRange where
  least : Option Int
  greatest : Option Int
  deriving DecidableEq, Repr

def IntegerRange.ofBits (signed : Bool) : Option Nat → IntegerRange
  | none => ⟨if signed then none else some 0, none⟩
  | some bits =>
    if signed then ⟨some (-(Nat.pow 2 (bits - 1) : Int)), some ((Nat.pow 2 (bits - 1) : Int) - 1)⟩
    else ⟨some 0, some ((Nat.pow 2 bits : Int) - 1)⟩

/-- Negative numbers below a range that starts at zero count as badly written. -/
def IntegerRange.check (r : IntegerRange) (n : Int) : Except IntegerFault Int :=
  if r.greatest.any (· < n) then .error .tooLarge
  else if r.least.any (n < ·) then
    if n < 0 ∧ r.least = some 0 then .error .digit else .error .tooSmall
  else .ok n

def readInteger (s : List Char) : Except IntegerFault Int :=
  if s.isEmpty then .error .empty
  else
    let (negative, r) := takeSign s
    match r.mapM Text.asciiDigit? with
    | none | some [] => .error .digit
    | some ds =>
      if digitLimit < ds.length then .error (.tooManyDigits ds.length)
      else .ok (if negative then -(ofDigits ds : Int) else ofDigits ds)

def takeDigits (s : List Char) : List Nat × List Char :=
  ((s.takeWhile (Text.digitValue? · |>.isSome)).filterMap Text.digitValue?,
    s.dropWhile (Text.digitValue? · |>.isSome))

/-- What follows the digits of a decimal number: nothing, or an exponent. -/
def readExponent : List Char → Option Int
  | [] => some 0
  | c :: r =>
    if c = 'e' || c = 'E' then
      let (negative, r) := takeSign r
      match takeDigits r with
      | ([], _) => none
      | (ds, []) => some (if negative then -(ofDigits ds : Int) else ofDigits ds)
      | _ => none
    else none

def lowerAscii (s : List Char) : String := String.ofList (s.map Char.toLower)

/-- Reads a decimal number with optional sign, fraction and exponent, or the name of infinity or of
no number. -/
def readDouble (s : List Char) : Option Double :=
  let (negative, r) := takeSign s
  let word := lowerAscii r
  if word = "inf" || word = "infinity" then some (.infinity negative)
  else if word = "nan" then some .nan
  else
    let (whole, r) := takeDigits r
    let (fraction, r) :=
      match r with
      | '.' :: r => takeDigits r
      | r => ([], r)
    if whole.isEmpty && fraction.isEmpty then none
    else
      (readExponent r).map fun e =>
        .ofDecimal negative (ofDigits (whole ++ fraction)) (e - fraction.length)

end WebForm
