import WebForm.Form.Upload
import WebForm.Parser.Session
import WebForm.Text.Percent

/-!
# Readers of bodies

A body arrives in chunks. A reader cuts it into items and delivers each as soon as it is complete,
until it halts.
-/
namespace WebForm.Body

/-- What a body consists of: values and files, as octets. -/
inductive Item where
  | value (name value : Text.Octets)
  | file (name : Text.Octets) (fileName : Option Text.Octets) (contentType : Option Text.Octets)
      (content : Text.Octets)
  deriving DecidableEq, Repr

inductive Halt where
  | malformed
  | fault (f : Fault)
  deriving DecidableEq, Repr

/-- The items that a step completes, and the state after it, unless the reader halts. -/
structure Delivery (σ : Type) where
  items : List Item
  state : Except Halt σ

namespace Delivery

variable {σ τ : Type}

def silent (s : σ) : Delivery σ := ⟨[], .ok s⟩
def halted (h : Halt) : Delivery σ := ⟨[], .error h⟩
def malformed : Delivery σ := halted .malformed

def ofExcept (r : Except Halt σ) : Delivery σ := ⟨[], r⟩

def andThen (d : Delivery σ) (next : σ → Delivery τ) : Delivery τ :=
  match d.state with
  | .error h => ⟨d.items, .error h⟩
  | .ok s =>
    let e := next s
    ⟨d.items ++ e.items, e.state⟩

end Delivery

structure Reader where
  State : Type
  start : State
  write : State → Text.Octets → Delivery State
  finish : State → Delivery Unit
  submission : Item → Submission

def formText (bs : Text.Octets) : String := String.ofList (Text.formDecode (Text.latin1 bs))

def lossyText (bs : Text.Octets) : String := String.ofList (Text.decodeLossy bs)

/-- A file becomes a data field. An empty file name is none. -/
def fileSubmission (name : Text.Octets) (fileName contentType : Option Text.Octets)
    (content : Text.Octets) : Submission :=
  .field (.data
    { name := .ofName (.ofString (lossyText name))
      data := .ofOctets content
      fileName := (fileName.filter (· ≠ [])).map lossyText
      contentType := contentType.map fun t => String.ofList (Text.latin1 t) })

def encodedSubmission : Item → Submission
  | .value name value => .field (.value (.ofText (formText name) (formText value)))
  | .file name fileName type content => fileSubmission name fileName type content

/-- Values that are not encoded must be UTF-8. -/
def rawSubmission : Item → Submission
  | .value name value =>
    match Text.decode value with
    | .ok cs => .field (.value (.ofText (lossyText name) (String.ofList cs)))
    | .error p =>
      .error ((Error.ofKind (.unreadable .utf8 (.encoding p))).named
        (.ofName (.ofString (lossyText name))))
  | .file name fileName type content => fileSubmission name fileName type content

/-- The content of a file, and whether it is still in memory. -/
structure Contents where
  octets : Text.Octets
  inMemory : Bool

namespace Contents

def empty : Contents := ⟨[], true⟩

/-- Appends octets. A file that cannot be stored makes the body malformed. -/
def append (storage : Storage) (fileName : Option Text.Octets) (c : Contents) (bs : Text.Octets) :
    Except Halt Contents :=
  let octets := c.octets ++ bs
  match storage.keep fileName c.inMemory octets.length with
  | .ok (some inMemory) => .ok ⟨octets, inMemory⟩
  | .ok none => .error .malformed
  | .error f => .error (.fault f)

end Contents

/-- The whole body is one file without a name. There must be at least one chunk of it. -/
def Reader.octetStream (storage : Storage) : Reader where
  State := Option Contents
  start := none
  write c bs :=
    let c := c.getD .empty
    .ofExcept ((if bs.isEmpty then .ok c else c.append storage none bs).map some)
  finish
    | some c => ⟨[.file [] none none c.octets], .ok ()⟩
    | none => .halted (.fault .noBody)
  submission := rawSubmission

end WebForm.Body
