import WebForm.Text.Digit
import WebForm.Text.Percent
import WebForm.Text.Quoted

/-!
# Internet addresses

Reading and writing addresses of version 4, as four decimal octets, and of version 6, as eight
groups of four hexadecimal digits with at most one gap of zeros and an optional scope.
-/
namespace WebForm

inductive AddressVersion where
  | four
  | six
  deriving DecidableEq, Repr

structure Address where
  version : AddressVersion
  number : Nat
  scope : Option String
  deriving DecidableEq, Repr

inductive AddressFault where
  | slash (text : String)
  | empty
  | octetCount (text : String)
  | emptyOctet (text : String)
  | octetDigits (octet text : String)
  | octetLength (octet text : String)
  | octetZero (octet text : String)
  | octetRange (n : Nat) (text : String)
  | scope (text : String)
  | fewParts (text : String)
  | embedded (fault : AddressFault) (text : String)
  | colons (text : String)
  | gaps (text : String)
  | leading (text : String)
  | trailing (text : String)
  | fullGap (text : String)
  | partCount (text : String)
  | groupDigits (group text : String)
  | groupLength (group text : String)
  | neither (text : String)
  deriving DecidableEq, Repr

def AddressFault.message : AddressFault → String
  | .slash t => "Unexpected '/' in " ++ Text.quoted t
  | .empty => "Address cannot be empty"
  | .octetCount t => "Expected 4 octets in " ++ Text.quoted t
  | .emptyOctet t => "Empty octet not permitted in " ++ Text.quoted t
  | .octetDigits o t =>
    "Only decimal digits permitted in " ++ Text.quoted o ++ " in " ++ Text.quoted t
  | .octetLength o t =>
    "At most 3 characters permitted in " ++ Text.quoted o ++ " in " ++ Text.quoted t
  | .octetZero o t =>
    "Leading zeros are not permitted in " ++ Text.quoted o ++ " in " ++ Text.quoted t
  | .octetRange n t => s!"Octet {n} (> 255) not permitted in " ++ Text.quoted t
  | .scope t => "Invalid IPv6 address: \"" ++ Text.quoted t ++ "\""
  | .fewParts t => "At least 3 parts expected in " ++ Text.quoted t
  | .embedded f t => f.message ++ " in " ++ Text.quoted t
  | .colons t => "At most 8 colons permitted in " ++ Text.quoted t
  | .gaps t => "At most one '::' permitted in " ++ Text.quoted t
  | .leading t => "Leading ':' only permitted as part of '::' in " ++ Text.quoted t
  | .trailing t => "Trailing ':' only permitted as part of '::' in " ++ Text.quoted t
  | .fullGap t => "Expected at most 7 other parts with '::' in " ++ Text.quoted t
  | .partCount t => "Exactly 8 parts expected without '::' in " ++ Text.quoted t
  | .groupDigits g t =>
    "Only hex digits permitted in " ++ Text.quoted g ++ " in " ++ Text.quoted t
  | .groupLength g t =>
    "At most 4 characters permitted in " ++ Text.quoted g ++ " in " ++ Text.quoted t
  | .neither t => Text.quoted t ++ " does not appear to be an IPv4 or IPv6 address"

namespace Address

/-- The number written by digits of the given base, the most significant first. -/
def ofBase (base : Nat) (ds : List Nat) : Nat := ds.foldl (fun n d => base * n + d) 0

def readOctet (text : String) (s : List Char) : Except AddressFault Nat :=
  let octet := String.ofList s
  if s.isEmpty then .error (.emptyOctet text)
  else
    match s.mapM Text.asciiDigit? with
    | none => .error (.octetDigits octet text)
    | some ds =>
      if 3 < s.length then .error (.octetLength octet text)
      else if s ≠ ['0'] ∧ s.head? = some '0' then .error (.octetZero octet text)
      else
        let n := ofBase 10 ds
        if 255 < n then .error (.octetRange n text) else .ok n

def readFour (s : List Char) : Except AddressFault Nat :=
  let text := String.ofList s
  if s.contains '/' then .error (.slash text)
  else if s.isEmpty then .error .empty
  else
    let octets := Text.splitOn '.' s
    if octets.length ≠ 4 then .error (.octetCount text)
    else (octets.mapM (readOctet text)).map (ofBase 256)

def readGroup (text : String) (s : List Char) : Except AddressFault Nat :=
  let group := String.ofList s
  match s.mapM Text.hexValue? with
  | none => .error (.groupDigits group text)
  | some ds => if 4 < s.length then .error (.groupLength group text) else .ok (ofBase 16 ds)

/-- The parts between the colons; a version 4 address at the end counts as two groups. -/
def partsOfSix (text : String) (s : List Char) : Except AddressFault (List (List Char)) :=
  let parts := Text.splitOn ':' s
  if parts.length < 3 then .error (.fewParts text)
  else
    let last := parts.getLastD []
    if last.contains '.' then
      match readFour last with
      | .error f => .error (.embedded f text)
      | .ok n =>
        .ok (parts.dropLast ++ [Nat.toDigits 16 (n / 0x10000), Nat.toDigits 16 (n % 0x10000)])
    else .ok parts

def innerGaps (parts : List (List Char)) : List Nat :=
  (List.range parts.length).filter fun i =>
    0 < i && i + 1 < parts.length && (parts.getD i []).isEmpty

/-- The groups before and after the gap, and how many groups of zeros the gap stands for. -/
def layOut (text : String) (parts : List (List Char)) :
    Except AddressFault (List (List Char) × List (List Char) × Nat) :=
  if 9 < parts.length then .error (.colons text)
  else
    let startsEmpty := (parts.headD []).isEmpty
    let endsEmpty := (parts.getLastD []).isEmpty
    match innerGaps parts with
    | [] =>
      if parts.length ≠ 8 then .error (.partCount text)
      else if startsEmpty then .error (.leading text)
      else if endsEmpty then .error (.trailing text)
      else .ok (parts, [], 0)
    | [gap] =>
      let before := parts.take gap
      let after := parts.drop (gap + 1)
      if startsEmpty && before.length ≠ 1 then .error (.leading text)
      else if endsEmpty && after.length ≠ 1 then .error (.trailing text)
      else
        let before := if startsEmpty then [] else before
        let after := if endsEmpty then [] else after
        if 7 < before.length + after.length then .error (.fullGap text)
        else .ok (before, after, 8 - (before.length + after.length))
    | _ => .error (.gaps text)

def readSix (s : List Char) : Except AddressFault Nat := do
  let text := String.ofList s
  if s.isEmpty then .error .empty
  else
    let parts ← partsOfSix text s
    let (before, after, zeros) ← layOut text parts
    let high ← before.mapM (readGroup text)
    let low ← after.mapM (readGroup text)
    .ok (ofBase 0x10000 (high ++ List.replicate zeros 0 ++ low))

def ofFour (s : String) : Except AddressFault Address :=
  (readFour s.toList).map fun n => ⟨.four, n, none⟩

def ofSix (s : String) : Except AddressFault Address :=
  let cs := s.toList
  if cs.contains '/' then .error (.slash s)
  else
    match Text.cutAt '%' cs with
    | (a, none) => (readSix a).map fun n => ⟨.six, n, none⟩
    | (a, some scope) =>
      if scope.isEmpty || scope.contains '%' then .error (.scope s)
      else (readSix a).map fun n => ⟨.six, n, some (String.ofList scope)⟩

def ofText (version : Option AddressVersion) (s : String) : Except AddressFault Address :=
  match version with
  | some .four => ofFour s
  | some .six => ofSix s
  | none =>
    match ofFour s with
    | .ok a => .ok a
    | .error _ =>
      match ofSix s with
      | .ok a => .ok a
      | .error _ => .error (.neither s)

/-- The digits of a number in a base, as many as there are places. -/
def digitsOf (base : Nat) : Nat → Nat → List Nat
  | 0, _ => []
  | k + 1, n => digitsOf base k (n / base) ++ [n % base]

/-- The longest run of zeros that starts a list's suffixes: its start and its length. The first of
equally long runs wins. -/
def longestZeros : Nat → List Nat → Nat × Nat
  | _, [] => (0, 0)
  | i, n :: r =>
    let run := ((n :: r).takeWhile (· = 0)).length
    let best := longestZeros (i + 1) r
    if best.2 ≤ run then (i, run) else best

def displayFour (n : Nat) : String :=
  ".".intercalate ((digitsOf 256 4 n).map toString)

def groupsText (gs : List Nat) : String :=
  ":".intercalate (gs.map fun g => String.ofList (Nat.toDigits 16 g))

/-- A run of at least two groups of zeros is left out, the longest one. -/
def displaySix (n : Nat) : String :=
  let groups := digitsOf 0x10000 8 n
  let (start, length) := longestZeros 0 groups
  if length < 2 then groupsText groups
  else groupsText (groups.take start) ++ "::" ++ groupsText (groups.drop (start + length))

def display (a : Address) : String :=
  match a.version with
  | .four => displayFour a.number
  | .six => displaySix a.number ++ (match a.scope with | some s => "%" ++ s | none => "")

end Address

end WebForm
