import WebForm.Text.Quoted
import WebForm.Value.Basic

/-!
# Fields

What a parser is fed: a name with a text, or a name with a source of octets. The name is a view that
stands on the key that the receiver looks at, and is shifted by one key on the way to a part.
-/
namespace WebForm

/-- A source of octets that are read from front to back. A read may give fewer octets than were
asked for: `portions` says how many the next reads give at most. -/
structure Source where
  rest : Text.Octets
  portions : List Nat
  deriving DecidableEq, Repr

namespace Source

def ofOctets (bs : Text.Octets) : Source := ⟨bs, []⟩

/-- Reads at most `size` octets, or all of them if `size` is negative. A read of one octet or more
gives at least one as long as there are any. -/
def read (s : Source) (size : Int) : Text.Octets × Source :=
  if size < 0 then (s.rest, ⟨[], s.portions⟩)
  else if size = 0 then ([], s)
  else
    match s.portions with
    | [] => (s.rest.take size.toNat, ⟨s.rest.drop size.toNat, []⟩)
    | p :: ps =>
      let n := min size.toNat (max p 1)
      (s.rest.take n, ⟨s.rest.drop n, ps⟩)

theorem read_append (s : Source) (size : Int) :
    (s.read size).1 ++ (s.read size).2.rest = s.rest := by
  unfold read
  split
  · simp
  · split
    · simp
    · split <;> simp

theorem length_read (s : Source) (size : Int) (h : (s.read size).1 ≠ []) :
    (s.read size).2.rest.length < s.rest.length := by
  have whole := congrArg List.length (s.read_append size)
  have : (s.read size).1.length ≠ 0 := by simpa using h
  simp only [List.length_append] at whole
  omega

end Source

structure ValueField where
  name : View
  value : String
  deriving DecidableEq, Repr

structure DataField where
  name : View
  data : Source
  fileName : Option String
  contentType : Option String
  deriving DecidableEq, Repr

namespace ValueField

def ofText (name value : String) : ValueField := ⟨.ofName (.ofString name), value⟩

def nameless (value : String) : ValueField := ofText "" value

/-- Splits at the first equals sign; a text without one is a name with an empty value. -/
def parse (s : String) : ValueField :=
  match Text.cutAt '=' s.toList with
  | (name, value) => ofText (String.ofList name) (String.ofList (value.getD []))

def shift (f : ValueField) : ValueField := { f with name := f.name.shift }

def error (f : ValueField) (k : Kind Value) : FormError :=
  ⟨k, .valueField, some (.ofName f.name.source), some f.value⟩

def unexpected (f : ValueField) : FormError := f.error .unexpected
def missing (f : ValueField) : FormError := f.error .missing

def same (f g : ValueField) : Bool :=
  f.name.asName.keys == g.name.asName.keys && f.value == g.value

def shownLength : Nat := 97

def quoted (f : ValueField) : String :=
  let value :=
    if f.value.length > shownLength then
      String.ofList ((Text.quotedChars (f.value.toList.take shownLength)).dropLast) ++ "...'"
    else Text.quoted f.value
  "ValueField(name=" ++ Text.quoted f.name.source.text ++ ", value=" ++ value ++ ")"

end ValueField

namespace DataField

def shift (f : DataField) : DataField := { f with name := f.name.shift }

def unexpected (f : DataField) : FormError :=
  ⟨.unexpected, .dataField, some (.ofName f.name.source), none⟩

def quoted (f : DataField) : String :=
  let optional : Option String → String
    | none => "None"
    | some s => Text.quoted s
  "DataField(name=" ++ Text.quoted f.name.source.text ++ ", file_name=" ++ optional f.fileName ++
    ", content_type=" ++ optional f.contentType ++ ")"

end DataField

inductive Field where
  | value (f : ValueField)
  | data (f : DataField)
  deriving DecidableEq, Repr

namespace Field

def name : Field → View
  | value f => f.name
  | data f => f.name

def shift : Field → Field
  | value f => .value f.shift
  | data f => .data f.shift

def unexpected : Field → FormError
  | value f => f.unexpected
  | data f => f.unexpected

end Field

end WebForm
