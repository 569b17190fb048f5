/-!
# UTF-8

Encoding, strict decoding that says which octets are wrong and why, and decoding that puts a
replacement character in place of every malformed sequence.
-/
namespace WebForm.Text

abbrev Octets := List UInt8

def encodeChar (c : Char) : Octets :=
  let n := c.toNat
  if n < 0x80 then [n.toUInt8]
  else if n < 0x800 then [(0xC0 + n / 0x40).toUInt8, (0x80 + n % 0x40).toUInt8]
  else if n < 0x10000 then
    [(0xE0 + n / 0x1000).toUInt8, (0x80 + n / 0x40 % 0x40).toUInt8, (0x80 + n % 0x40).toUInt8]
  else
    [(0xF0 + n / 0x40000).toUInt8, (0x80 + n / 0x1000 % 0x40).toUInt8,
      (0x80 + n / 0x40 % 0x40).toUInt8, (0x80 + n % 0x40).toUInt8]

def encode (s : List Char) : Octets := s.flatMap encodeChar

def encodeString (s : String) : Octets := encode s.toList

inductive Utf8Fault where
  | startByte
  | continuationByte
  | endOfData
  deriving DecidableEq, Repr

def Utf8Fault.message : Utf8Fault → String
  | .startByte => "invalid start byte"
  | .continuationByte => "invalid continuation byte"
  | .endOfData => "unexpected end of data"

def isContinuation (b : UInt8) : Bool := 0x80 ≤ b && b < 0xC0

/-- The first octets of a text: a character and how many octets it takes, or a malformed sequence,
its length and what is wrong with it. -/
inductive Utf8Head where
  | char (c : Char) (length : Nat)
  | malformed (fault : Utf8Fault) (length : Nat)
  deriving DecidableEq, Repr

/-- The second octet that may follow the start octet `b`. Some start octets allow fewer than all
continuation octets, so that every character has one encoding and surrogates have none. -/
def isSecond (b second : UInt8) : Bool :=
  isContinuation second &&
    (b != 0xE0 || 0xA0 ≤ second) && (b != 0xED || second < 0xA0) &&
    (b != 0xF0 || 0x90 ≤ second) && (b != 0xF4 || second < 0x90)

def low6 (b : UInt8) : Nat := b.toNat % 0x40

def utf8Head (b : UInt8) (rest : Octets) : Utf8Head :=
  if b < 0x80 then .char (Char.ofNat b.toNat) 1
  else if b < 0xC2 || 0xF4 < b then .malformed .startByte 1
  else
    match rest with
    | [] => .malformed .endOfData 1
    | b2 :: r2 =>
      if !isSecond b b2 then .malformed .continuationByte 1
      else if b < 0xE0 then .char (Char.ofNat (b.toNat % 0x20 * 0x40 + low6 b2)) 2
      else
        match r2 with
        | [] => .malformed .endOfData 2
        | b3 :: r3 =>
          if !isContinuation b3 then .malformed .continuationByte 2
          else if b < 0xF0 then
            .char (Char.ofNat (b.toNat % 0x10 * 0x1000 + low6 b2 * 0x40 + low6 b3)) 3
          else
            match r3 with
            | [] => .malformed .endOfData 3
            | b4 :: _ =>
              if !isContinuation b4 then .malformed .continuationByte 3
              else
                .char (Char.ofNat
                  (b.toNat % 8 * 0x40000 + low6 b2 * 0x1000 + low6 b3 * 0x40 + low6 b4)) 4

/-- Where and why decoding stopped: the octets from `start` up to `stop` are malformed. -/
structure Utf8Problem where
  octets : Octets
  start : Nat
  stop : Nat
  fault : Utf8Fault
  deriving DecidableEq, Repr

def Utf8Problem.message (p : Utf8Problem) : String :=
  let place :=
    if p.stop = p.start + 1 then
      "byte 0x" ++ String.ofList (((p.octets[p.start]?).map fun b =>
        let ds := Nat.toDigits 16 b.toNat
        if ds.length < 2 then '0' :: ds else ds).getD []) ++ s!" in position {p.start}"
    else s!"bytes in position {p.start}-{p.stop - 1}"
  "'utf-8' codec can't decode " ++ place ++ ": " ++ p.fault.message

/-- Decodes `bs`, which starts at position `pos` of the octets `all`. -/
def decodeFrom (all : Octets) (pos : Nat) : Octets → Except Utf8Problem (List Char)
  | [] => .ok []
  | b :: r =>
    match utf8Head b r with
    | .char c n =>
      match decodeFrom all (pos + n) (r.drop (n - 1)) with
      | .ok cs => .ok (c :: cs)
      | .error p => .error p
    | .malformed f n => .error ⟨all, pos, pos + n, f⟩
termination_by bs => bs.length
decreasing_by simp only [List.length_drop, List.length_cons]; omega

def decode (bs : Octets) : Except Utf8Problem (List Char) := decodeFrom bs 0 bs

/-- Decodes with a replacement character for every malformed sequence. -/
def decodeLossy : Octets → List Char
  | [] => []
  | b :: r =>
    match utf8Head b r with
    | .char c n => c :: decodeLossy (r.drop (n - 1))
    | .malformed _ n => '\uFFFD' :: decodeLossy (r.drop (n - 1))
termination_by bs => bs.length
decreasing_by all_goals (simp only [List.length_drop, List.length_cons]; omega)

def latin1 (bs : Octets) : List Char := bs.map fun b => Char.ofNat b.toNat

/-- The octets of the characters' numbers, for characters that fit into an octet. -/
def octetsOf (s : List Char) : Octets := s.map fun c => c.toNat.toUInt8

def encodeLatin1? (s : List Char) : Option Octets :=
  s.mapM fun c => if c.toNat < 0x100 then some c.toNat.toUInt8 else none

end WebForm.Text
