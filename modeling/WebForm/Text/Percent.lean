import WebForm.Text.Utf8

/-!
# Percent encoding

Form encoding writes a space as `+` and an octet as `%` and two hexadecimal digits. Decoding takes
each run of ASCII characters as octets of UTF-8; a `%` without two digits stands for itself.
-/
namespace WebForm.Text

def hexValue? (c : Char) : Option Nat :=
  if '0' ≤ c && c ≤ '9' then some (c.toNat - 48)
  else if 'a' ≤ c && c ≤ 'f' then some (c.toNat - 87)
  else if 'A' ≤ c && c ≤ 'F' then some (c.toNat - 55)
  else none

def percentOctets : List Char → Octets
  | '%' :: a :: b :: r =>
    match hexValue? a, hexValue? b with
    | some x, some y => (16 * x + y).toUInt8 :: percentOctets r
    | _, _ => 0x25 :: percentOctets (a :: b :: r)
  | c :: r => c.toNat.toUInt8 :: percentOctets r
  | [] => []

def isAscii (c : Char) : Bool := c.toNat < 0x80

def percentDecode : List Char → List Char
  | [] => []
  | c :: r =>
    if isAscii c then
      decodeLossy (percentOctets (c :: r.takeWhile isAscii)) ++ percentDecode (r.dropWhile isAscii)
    else c :: percentDecode r
termination_by s => s.length
decreasing_by
  · exact Nat.lt_succ_of_le (List.dropWhile_sublist _).length_le
  · simp

def formDecode (s : List Char) : List Char :=
  percentDecode (s.map fun c => if c = '+' then ' ' else c)

/-- The characters that form encoding leaves as they are. -/
def isUnreserved (c : Char) : Bool :=
  c.isAlphanum || c = '_' || c = '.' || c = '-' || c = '~'

def percentEscape (b : UInt8) : List Char :=
  ['%', (Nat.digitChar (b.toNat / 16)).toUpper, (Nat.digitChar (b.toNat % 16)).toUpper]

def formEncodeChar (c : Char) : List Char :=
  if isUnreserved c then [c]
  else if c = ' ' then ['+']
  else (encodeChar c).flatMap percentEscape

def formEncode (s : List Char) : List Char := s.flatMap formEncodeChar

end WebForm.Text
