import WebForm.Form.Enumeration
import WebForm.Form.Upload

/-!
# Forms

A form says what a number of fields should become. A leaf becomes of a single field; the other forms
share out their fields among parts, or change how a part is parsed. A record is known by its type,
so that record types can refer to each other and to themselves.
-/
namespace WebForm

/-- Strict forms reject fields that nothing takes and leaves that are submitted twice. Lenient forms
ignore both. -/
inductive Mode where
  | lenient
  | strict
  deriving DecidableEq, Repr

def Mode.isStrict : Mode → Bool
  | .lenient => false
  | .strict => true

inductive Leaf where
  /-- Text; a source of octets is read up to the limit. -/
  | text (limit : Option Int)
  | octets (limit : Option Int)
  | integer (signed : Bool) (bits : Option Nat)
  | float
  | boolean
  | address (version : Option AddressVersion)
  | date
  | time
  | dateTime
  | choice (e : Enumeration)
  | upload (rules : UploadRules)
  | nothing

inductive Form where
  | leaf (l : Leaf)
  | list (item : Form)
  | dict (key value : Form)
  | pair (left right : Form)
  | record (type : RecordType)
  | optional (item : Form)
  /-- The item or the errors that keep it from being one. -/
  | result (item : Form)
  /-- The item in a mode of its own. -/
  | forced (mode : Mode) (item : Form)
  /-- The item, if there is one, together with all that was submitted and all errors. -/
  | contextual (item : Form)
  | unimplemented

namespace Form

def standardLimit : Int := 8 * 1024

def text : Form := .leaf (.text (some standardLimit))
def octets : Form := .leaf (.octets (some standardLimit))
def integer : Form := .leaf (.integer true none)

/-- Integers of so many bits; one of the bits of signed integers is the sign. -/
def fixedInteger (signed : Bool) (bits : Int) : Except Fault Form :=
  if bits < (if signed then 1 else 0) then .error .tooFewBits
  else .ok (.leaf (.integer signed (some bits.toNat)))

def float : Form := .leaf .float
def boolean : Form := .leaf .boolean
def upload : Form := .leaf (.upload .standard)

def isContextual : Form → Bool
  | .contextual _ => true
  | _ => false

end Form

end WebForm
