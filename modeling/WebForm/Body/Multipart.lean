import WebForm.Body.MediaHeader
import WebForm.Body.Reader
import WebForm.Body.Transfer

/-!
# Multipart bodies

Parts between boundary lines, each with headers of its own. The reader goes through the body octet
by octet. Data ends with a line end and the boundary; an octet that does not fit shows that what
looked like a boundary so far is data after all. Only spaces and tabs can stand between a boundary
and the end of its line.
-/
namespace WebForm.Body.Multipart

abbrev Header := Text.Octets × Text.Octets

structure Part where
  name : Text.Octets
  fileName : Option Text.Octets
  contentType : Option Text.Octets
  isFile : Bool
  decoder : Decoder
  contents : Contents

/-- How far an end of the data has been recognized. -/
inductive Ending where
  /-- So many octets of the line end and boundary. -/
  | boundary (matched : Nat)
  /-- The whole of it and the start of a line end. -/
  | line
  /-- The whole of it and a dash. -/
  | dash
  /-- The whole of it and blanks. -/
  | padding
  /-- The whole of it, blanks and the start of a line end. -/
  | paddedLine
  deriving DecidableEq, Repr

inductive Stage where
  | start
  /-- In lines before the first boundary. -/
  | preamble
  /-- Inside of the first boundary, of which this is left. -/
  | opening (left : Text.Octets)
  | opened
  | openedLine
  | openedDash
  /-- Headers: those that are complete, and how many octets the current one may still have. -/
  | headerName (headers : List Header) (name : Text.Octets) (room : Nat)
  | headerValueStart (headers : List Header) (name : Text.Octets) (room : Nat)
  | headerValue (headers : List Header) (name value : Text.Octets) (room : Nat)
  | headerLine (headers : List Header)
  | headersEnd (headers : List Header)
  /-- Data: what of this chunk is not written yet, newest first; the recognized end; and how many
  octets of that came with earlier chunks. -/
  | data (part : Part) (unwritten : Text.Octets) (ending : Ending) (carried : Nat)
  | done

structure Rules where
  boundary : Text.Octets
  storage : Storage
  /-- Whether an unknown transfer encoding is an error. -/
  knownEncodings : Bool

def cr : UInt8 := 0x0D
def lf : UInt8 := 0x0A
def dash : UInt8 := 0x2D
def colon : UInt8 := 0x3A
def space : UInt8 := 0x20
def tab : UInt8 := 0x09

def headerLimit : Nat := 8

/-- The name and value of a header may have so many octets, with the colon and the spaces between
them. -/
def headerSizeLimit : Nat := 4224

def isTokenOctet (b : UInt8) : Bool :=
  let c := Char.ofNat b.toNat
  c.isAlphanum || "!#$%&'*+-.^_\x60|~".toList.contains c

def isPadding (b : UInt8) : Bool := b = space || b = tab

def Rules.opening (r : Rules) : Text.Octets := dash :: dash :: r.boundary
def Rules.closing (r : Rules) : Text.Octets := cr :: lf :: r.opening

def lowerAscii (bs : Text.Octets) : Text.Octets :=
  bs.map fun b => if 0x41 ≤ b && b ≤ 0x5A then b + 0x20 else b

/-- The last header with a name counts, in any case. -/
def header? (headers : List Header) (name : String) : Option Text.Octets :=
  (headers.reverse.find? fun h => lowerAscii h.1 = Text.encodeString name).map (·.2)

def encoding? (value : Text.Octets) : Option TransferEncoding :=
  let v := lowerAscii (Text.octetsOf (MediaHeader.trim (Text.latin1 value)))
  if v ∈ ["binary", "8bit", "7bit"].map Text.encodeString then some .plain
  else if v = Text.encodeString "base64" then some .base64
  else if v = Text.encodeString "quoted-printable" then some .quotedPrintable
  else none

def partOf (r : Rules) (headers : List Header) : Option Part := do
  let disposition ←
    MediaHeader.ofChars? (Text.latin1 ((header? headers "content-disposition").getD []))
  let name ← disposition.get? "name"
  let fileName := (disposition.get? "filename").map MediaHeader.withoutPath
  let encoding ←
    match header? headers "content-transfer-encoding" with
    | none => some .plain
    | some v => (encoding? v).or (if r.knownEncodings then none else some .plain)
  some
    { name := name
      fileName := fileName
      contentType := header? headers "content-type"
      isFile := fileName.isSome
      decoder := ⟨encoding, []⟩
      contents := .empty }

namespace Part

def append (r : Rules) (p : Part) (bs : Text.Octets) : Except Halt Part :=
  if p.isFile then
    (p.contents.append r.storage p.fileName bs).map fun contents => { p with contents }
  else .ok { p with contents := { p.contents with octets := p.contents.octets ++ bs } }

def write (r : Rules) (p : Part) (bs : Text.Octets) : Except Halt Part :=
  if bs.isEmpty then .ok p
  else
    match p.decoder.write bs with
    | some (pieces, decoder) => pieces.foldlM (append r) { p with decoder }
    | none => .error .malformed

def toItem (p : Part) : Item :=
  if p.isFile then .file p.name p.fileName p.contentType p.contents.octets
  else .value p.name p.contents.octets

def finish (r : Rules) (p : Part) : Except Halt Item :=
  match p.decoder.finish with
  | some pieces => (pieces.foldlM (append r) p).map toItem
  | none => .error .malformed

end Part

def Ending.absent : Ending := .boundary 0

/-- The octets of a recognized end that may turn out to be data. -/
def Ending.octets (r : Rules) : Ending → Text.Octets
  | .boundary n => r.closing.take n
  | .line => r.closing ++ [cr]
  | .dash => r.closing ++ [Multipart.dash]
  | .padding | .paddedLine => []

/-- Whether the data may end before `bs`, the rest of a chunk: the line end and boundary follow, or
the chunk is too short to hold them. -/
def Rules.mayEnd (r : Rules) (bs : Text.Octets) : Bool :=
  r.closing.isPrefixOf bs || (bs.drop r.closing.length).isEmpty

inductive DataStep where
  | more (part : Part) (unwritten : Text.Octets) (ending : Ending) (carried : Nat)
  /-- The data ended, and the message too if it was the `last` part. -/
  | ended (last : Bool)

namespace DataStep

def fresh (r : Rules) (part : Part) (unwritten : Text.Octets) (b : UInt8) (rest : Text.Octets) :
    DataStep :=
  if b = cr && r.mayEnd (b :: rest) then .more part unwritten (.boundary 1) 0
  else .more part (b :: unwritten) .absent 0

/-- What was recognized is data. Octets of earlier chunks are written on their own. -/
def refuted (r : Rules) (part : Part) (unwritten : Text.Octets) (e : Ending) (carried : Nat)
    (b : UInt8) (rest : Text.Octets) : Except Halt DataStep := do
  let held := e.octets r
  let part ← part.write r (held.take carried)
  .ok (fresh r part ((held.drop carried).reverse ++ unwritten) b rest)

/-- The octet `b` of data, which `rest` follows in the chunk. -/
def next (r : Rules) (part : Part) (unwritten : Text.Octets) (e : Ending) (carried : Nat)
    (b : UInt8) (rest : Text.Octets) : Except Halt DataStep :=
  let go (e : Ending) : Except Halt DataStep := .ok (.more part unwritten e carried)
  match e with
  | .boundary 0 => .ok (fresh r part unwritten b rest)
  | .boundary n =>
    match r.closing[n]? with
    | some c => if b = c then go (.boundary (n + 1)) else refuted r part unwritten e carried b rest
    | none =>
      if b = cr then go .line
      else if b = Multipart.dash then go .dash
      else if isPadding b then go .padding
      else refuted r part unwritten e carried b rest
  | .line => if b = lf then .ok (.ended false) else refuted r part unwritten e carried b rest
  | .dash =>
    if b = Multipart.dash then .ok (.ended true) else refuted r part unwritten e carried b rest
  | .padding =>
    if isPadding b then go .padding else if b = cr then go .paddedLine else .error .malformed
  | .paddedLine => if b = lf then .ok (.ended false) else .error .malformed

end DataStep

def Stage.header (headers : List Header) : Stage := .headerName headers [] headerSizeLimit

/-- The octet `b` of the body, which `rest` follows in the chunk. -/
def step (r : Rules) (s : Stage) (b : UInt8) (rest : Text.Octets) : Delivery Stage :=
  match s with
  | .start => if b = cr || b = lf then .silent .preamble else opening r.opening
  | .preamble => if b = dash then opening r.opening else .silent .preamble
  | .opening left => opening left
  | .opened =>
    if b = dash then .silent .openedDash else if b = cr then .silent .openedLine else .malformed
  | .openedLine => if b = lf then .silent (.header []) else .malformed
  | .openedDash => if b = dash then .silent .done else .malformed
  | .headerName headers name room =>
    if b = cr && name.isEmpty then .silent (.headersEnd headers)
    else
      sized room fun room =>
        if b = colon then
          if name.isEmpty then .malformed
          else .silent (.headerValueStart headers name.reverse room)
        else if isTokenOctet b && headers.length < headerLimit then
          .silent (.headerName headers (b :: name) room)
        else .malformed
  | .headerValueStart headers name room =>
    if b = cr then .silent (.headerLine (headers ++ [(name, [])]))
    else
      sized room fun room =>
        if b = space then .silent (.headerValueStart headers name room)
        else .silent (.headerValue headers name [b] room)
  | .headerValue headers name value room =>
    if b = cr then .silent (.headerLine (headers ++ [(name, value.reverse)]))
    else sized room fun room => .silent (.headerValue headers name (b :: value) room)
  | .headerLine headers => if b = lf then .silent (.header headers) else .malformed
  | .headersEnd headers =>
    if b = lf then
      match partOf r headers with
      | some p => .silent (.data p [] .absent 0)
      | none => .malformed
    else .malformed
  | .data part unwritten e carried =>
    match DataStep.next r part unwritten e carried b rest with
    | .error h => .halted h
    | .ok (.more part unwritten e carried) => .silent (.data part unwritten e carried)
    | .ok (.ended last) =>
      match part.write r unwritten.reverse >>= Part.finish r with
      | .ok i => ⟨[i], .ok (if last then .done else .header [])⟩
      | .error h => .halted h
  | .done => .silent .done
where
  opening : Text.Octets → Delivery Stage
    | [] => .malformed
    | [c] => if b = c then .silent .opened else .malformed
    | c :: left => if b = c then .silent (.opening left) else .malformed
  sized (room : Nat) (next : Nat → Delivery Stage) : Delivery Stage :=
    match room with
    | 0 => .malformed
    | room + 1 => next room

def readAll (r : Rules) (d : Delivery Stage) : Text.Octets → Delivery Stage
  | [] => d
  | b :: rest => readAll r (d.andThen (step r · b rest)) rest

/-- At the end of a chunk all data is written that is not part of a recognized end. -/
def flush (r : Rules) : Stage → Delivery Stage
  | .preamble => .silent .start
  | .data part unwritten e _ =>
    .ofExcept ((part.write r unwritten.reverse).map fun p => .data p [] e (e.octets r).length)
  | s => .silent s

end Multipart

open Multipart in
/-- A part that is not complete at the end of the body is dropped. -/
def Reader.multipart (r : Multipart.Rules) : Reader where
  State := Stage
  start := .start
  write s bs := (readAll r (.silent s) bs).andThen (flush r)
  finish _ := .silent ()
  submission := rawSubmission

end WebForm.Body
