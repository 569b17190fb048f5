import WebForm.Text.Percent

/-!
# Transfer encodings

The data of a part may be encoded. It is decoded while it arrives, so a decoder holds back what it
cannot decode yet.
-/
namespace WebForm.Body

inductive TransferEncoding where
  | plain
  | base64
  | quotedPrintable
  deriving DecidableEq, Repr

def sextet? (b : UInt8) : Option Nat :=
  let c := Char.ofNat b.toNat
  if 'A' ≤ c && c ≤ 'Z' then some (b.toNat - 65)
  else if 'a' ≤ c && c ≤ 'z' then some (b.toNat - 71)
  else if '0' ≤ c && c ≤ '9' then some (b.toNat + 4)
  else if c = '+' then some 62
  else if c = '/' then some 63
  else none

/-- Padding ends the text once it fills the group of four. -/
structure Base64Group where
  digits : Nat
  /-- The bits of the last digit that are not yet part of an octet. -/
  left : Nat
  pads : Nat

/-- Decodes base64. What is no digit is skipped; digits without the padding they need are
refused. -/
def decodeBase64From (g : Base64Group) : Text.Octets → Option Text.Octets
  | [] => if g.digits = 0 then some [] else none
  | b :: r =>
    if b = 0x3D then
      if g.digits < 2 then decodeBase64From g r
      else if 4 ≤ g.digits + (g.pads + 1) then some []
      else decodeBase64From { g with pads := g.pads + 1 } r
    else
      match sextet? b with
      | none => decodeBase64From g r
      | some x =>
        match g.digits with
        | 0 => decodeBase64From ⟨1, x, 0⟩ r
        | 1 => (decodeBase64From ⟨2, x % 16, 0⟩ r).map ((g.left * 4 + x / 16).toUInt8 :: ·)
        | 2 => (decodeBase64From ⟨3, x % 4, 0⟩ r).map ((g.left * 16 + x / 4).toUInt8 :: ·)
        | _ => (decodeBase64From ⟨0, 0, 0⟩ r).map ((g.left * 64 + x).toUInt8 :: ·)

def decodeBase64 (bs : Text.Octets) : Option Text.Octets := decodeBase64From ⟨0, 0, 0⟩ bs

def hexOctet? (a b : UInt8) : Option UInt8 :=
  match Text.hexValue? (Char.ofNat a.toNat), Text.hexValue? (Char.ofNat b.toNat) with
  | some x, some y => some (16 * x + y).toUInt8
  | _, _ => none

def afterLine (bs : Text.Octets) : Text.Octets := (bs.dropWhile (· ≠ 0x0A)).drop 1

theorem length_afterLine_le (bs : Text.Octets) : (afterLine bs).length ≤ bs.length :=
  Nat.le_trans (List.drop_sublist _ _).length_le (List.dropWhile_sublist _).length_le

/-- Decodes quoted-printable text: octets by number, and line breaks that do not count. -/
def decodeQuotedPrintable : Text.Octets → Text.Octets
  | [] => []
  | [b] => if b = 0x3D then [] else [b]
  | b :: c :: r =>
    if b ≠ 0x3D then b :: decodeQuotedPrintable (c :: r)
    else if c = 0x0A || c = 0x0D then decodeQuotedPrintable (afterLine (c :: r))
    else if c = 0x3D then 0x3D :: decodeQuotedPrintable r
    else
      match r with
      | [] => [0x3D, c]
      | d :: t =>
        match hexOctet? c d with
        | some x => x :: decodeQuotedPrintable t
        | none => 0x3D :: decodeQuotedPrintable (c :: d :: t)
termination_by bs => bs.length
decreasing_by
  · simp
  · have := length_afterLine_le (c :: r)
    simp only [List.length_cons] at this ⊢
    omega
  all_goals (simp only [List.length_cons]; omega)

structure Decoder where
  encoding : TransferEncoding
  held : Text.Octets
  deriving DecidableEq, Repr

namespace Decoder

/-- How many octets at the end of a quoted-printable text may belong to an octet by number or to a
soft line break. -/
def unfinished (bs : Text.Octets) : Nat :=
  match bs.reverse with
  | 0x3D :: _ => 1
  | _ :: 0x3D :: _ => 2
  | _ => 0

def write (d : Decoder) (bs : Text.Octets) : Option (List Text.Octets × Decoder) :=
  let all := d.held ++ bs
  match d.encoding with
  | .plain => some ([bs], d)
  | .base64 =>
    let whole := all.length / 4 * 4
    let d := { d with held := all.drop whole }
    if whole = 0 then some ([], d) else (decodeBase64 (all.take whole)).map fun out => ([out], d)
  | .quotedPrintable =>
    let whole := all.length - unfinished all
    let d := { d with held := all.drop whole }
    some (if whole = 0 then [] else [decodeQuotedPrintable (all.take whole)], d)

def finish (d : Decoder) : Option (List Text.Octets) :=
  match d.encoding, d.held with
  | _, [] => some []
  | .plain, _ => some []
  | .base64, _ => none
  | .quotedPrintable, held => some [decodeQuotedPrintable held]

end Decoder

end WebForm.Body
