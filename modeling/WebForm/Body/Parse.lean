import WebForm.Body.Multipart
import WebForm.Body.Urlencoded

/-!
# Parsing bodies

A body is read by the reader for its media type, chunk by chunk and up to a size limit. Its fields
go into a form as they are delivered. What is wrong with the body itself are errors of the form,
which come before all others; a contextual form keeps them in its context.
-/
namespace WebForm.Body

structure Rules where
  sizeLimit : Option Int
  fieldCount : Option Int
  fieldSize : Option Int
  storage : Storage
  knownEncodings : Bool

def boundaryLimit : Nat := 256

def limit? : Option Int → Option (Option Nat)
  | none => some none
  | some i => if i < 0 then none else some (some i.toNat)

inductive Format where
  | urlencoded (limits : FieldLimits)
  | multipart (rules : Multipart.Rules)
  | octetStream (storage : Storage)

def Format.reader : Format → Reader
  | urlencoded limits => .urlencoded limits
  | multipart rules => .multipart rules
  | octetStream storage => .octetStream storage

def format? (rules : Rules) (contentType : Option String) : Option Format := do
  let text ← contentType
  let header ← MediaHeader.ofChars? text.toList
  if rules.sizeLimit.any (· < 1) then none
  else
    match String.ofList (Text.latin1 header.value) with
    | "application/x-www-form-urlencoded" | "application/x-url-encoded" =>
      some (.urlencoded ⟨← limit? rules.fieldCount, ← limit? rules.fieldSize⟩)
    | "multipart/form-data" =>
      let boundary ← header.get? "boundary"
      if boundaryLimit < boundary.length then none
      else some (.multipart ⟨boundary, rules.storage, rules.knownEncodings⟩)
    | "application/octet-stream" => some (.octetStream rules.storage)
    | _ => none

def malformed : Submission := .error (.ofKind (.unreadable .multipart .body))

def tooLarge (limit : Int) : Submission :=
  .error ⟨.invalidLength none (some (.int limit)), .form, none, none⟩

/-- The items of a delivery, and an error if the body turned out to be malformed. Items that come
together with a fault are lost. -/
def Reader.submissions {σ : Type} (r : Reader) (d : Delivery σ) : List Submission :=
  match d.state with
  | .ok _ => d.items.map r.submission
  | .error .malformed => d.items.map r.submission ++ [malformed]
  | .error (.fault f) => [.fault f]

/-- All that the chunks of a body contain. Reading stops at a chunk that goes past the limit, which
is not read any more. -/
def submissionsFrom (r : Reader) (limit : Option Int) (received : Nat) (s : r.State) :
    List Text.Octets → List Submission
  | [] => r.submissions (r.finish s)
  | chunk :: chunks =>
    let received := received + chunk.length
    match limit.filter (· < (received : Int)) with
    | some l => [tooLarge l]
    | none =>
      let d := r.write s chunk
      r.submissions d ++
        match d.state with
        | .ok s => submissionsFrom r limit received s chunks
        | .error _ => []

def submissions (rules : Rules) (contentType : Option String) (chunks : List Text.Octets) :
    List Submission :=
  match format? rules contentType with
  | some f => submissionsFrom f.reader rules.sizeLimit 0 f.reader.start chunks
  | none => [malformed]

def chunksOf (size : Int) (bs : Text.Octets) : List Text.Octets :=
  go size (.ofOctets bs)
where
  go (size : Int) (s : Source) : List Text.Octets :=
    if (s.read size).1 = [] then [] else (s.read size).1 :: go size (s.read size).2
  termination_by s.rest.length
  decreasing_by exact s.length_read _ ‹_›

def isError : Submission → Bool
  | .error _ => true
  | _ => false

def errorsOf (items : List Submission) : FormErrors :=
  items.filterMap fun
    | .error e => some e
    | _ => none

end WebForm.Body

namespace WebForm.Schema

/-- What a form makes of the submissions of a body. Only a contextual form sees the errors among
them; any other fails with them and with its own. -/
def parseBody (s : Schema) (form : Form) (mode : Mode) (items : List Submission) :
    Outcome Value :=
  if form.isContextual then s.parseAll form mode items
  else
    match Body.errorsOf items with
    | [] => s.parseAll form mode items
    | es =>
      match s.parseAll form mode (items.filter (!Body.isError ·)) with
      | .ok _ => .error (.errors es)
      | .error (.errors more) => .error (.errors (es ++ more))
      | .error (.fault f) => .error (.fault f)

end WebForm.Schema
