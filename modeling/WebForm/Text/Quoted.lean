import WebForm.Text.Printable
import WebForm.Text.Split

/-!
# Quoted text

Text and octets as they are shown in messages: between quotation marks, with a backslash before the
mark, before a backslash and in place of what cannot be printed.
-/
namespace WebForm.Text

/-- Apostrophes are the marks, unless the text has apostrophes and no double quotes. -/
def quotationMark (s : List Char) : Char :=
  if s.contains '\x27' && !s.contains '\x22' then '\x22' else '\x27'

/-- The shortest escape that can hold the code point. -/
def codeEscape (n : Nat) : List Char :=
  if n < 0x100 then '\\' :: 'x' :: hex 2 n
  else if n < 0x10000 then '\\' :: 'u' :: hex 4 n
  else '\\' :: 'U' :: hex 8 n

def escapeChar (mark c : Char) : List Char :=
  if c = mark || c = '\\' then ['\\', c]
  else if c = '\t' then ['\\', 't']
  else if c = '\n' then ['\\', 'n']
  else if c = '\r' then ['\\', 'r']
  else if isPrintable c then [c]
  else codeEscape c.toNat

def quotedChars (s : List Char) : List Char :=
  let mark := quotationMark s
  mark :: (s.flatMap (escapeChar mark) ++ [mark])

def quoted (s : String) : String := String.ofList (quotedChars s.toList)

def octetChar (b : UInt8) : Char := Char.ofNat b.toNat

/-- Octets are shown as the ASCII characters they stand for, the others by number. -/
def quotedOctets (bs : List UInt8) : String :=
  let s := bs.map octetChar
  let mark := quotationMark s
  let body := s.flatMap fun c => if c.toNat < 0x80 then escapeChar mark c else codeEscape c.toNat
  String.ofList ('b' :: mark :: (body ++ [mark]))

end WebForm.Text
