import WebForm.Name.Display

/-!
# Places

The ways to write down a place in a form. All of them lead to a path, and all of them have a text,
which can be taken for a name.
-/
namespace WebForm

inductive Place where
  | text (s : String)
  | name (n : Name)
  | view (v : View)
  | path (p : Path)
  /-- The parts of a path, not yet put together. -/
  | parts (stem : Option Name) (suffix : String)
  | nowhere
  | number (i : Int)
  deriving DecidableEq, Repr

namespace Place

def display : Place → String
  | .text s => s
  | .name n => n.text
  | .view v => v.asName.text
  | .path p => p.display
  | .parts stem suffix =>
    "(" ++ stem.elim "None" Name.quoted ++ ", " ++ Text.quoted suffix ++ ")"
  | .nowhere => "None"
  | .number i => toString i

def toName : Place → Name
  | .name n => n
  | .view v => v.asName
  | p => .ofString p.display

def toView : Place → View
  | .view v => v
  | p => .ofName p.toName

def toPath : Place → Path
  | .path p => p
  | .parts stem suffix => .ofParts stem suffix
  | .nowhere => .ofName ⟨[]⟩
  | p => .ofName p.toName

def keys? : Place → Option (List Key)
  | .parts _ _ | .nowhere | .number _ => none
  | p => some p.toPath.keys

/-- Plain texts compare as texts, everything else by keys. -/
def same : Place → Place → Bool
  | .text s, .text t => s == t
  | .parts stem suffix, .parts stem' suffix' =>
    suffix == suffix' && (stem.map Name.keys) == (stem'.map Name.keys)
  | .nowhere, .nowhere => true
  | .number i, .number j => i == j
  | p, q =>
    match p.keys?, q.keys? with
    | some ks, some ls => ks == ls
    | _, _ => false

end Place

end WebForm
