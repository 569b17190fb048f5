import WebForm.Name.View

/-!
# Paths

An error names the place it belongs to by a path: a name, or the path of a record or entry and the
rest of the way. A path displays with dots between its parts, which have keys of their own.
-/
namespace WebForm

inductive Path where
  | name (n : Name)
  | child (front : Path) (suffix : String)
  deriving DecidableEq, Repr

namespace Path

def keys : Path → List Key
  | name n => n.keys
  | child p s => p.keys ++ (Name.ofString s).keys

def isEmpty : Path → Bool
  | name n => n.isEmpty
  | child p s => p.isEmpty && s == ""

/-- Two parts with a dot between them, unless one of them is empty. -/
def joined (front suffix : String) : String :=
  if front = "" then suffix else if suffix = "" then front else front ++ "." ++ suffix

def display : Path → String
  | name n => n.text
  | child p s => joined p.display s

def front : Path → Path
  | child p _ => p
  | p => p

def suffix : Path → String
  | child _ s => s
  | name _ => ""

def ofName (n : Name) : Path := name n
def ofView (v : View) : Path := name v.asName

/-- The place of a part of a record, whose own place may be the top of the form. -/
def ofParts (parent : Option Name) (suffix : String) : Path :=
  child (name (parent.getD ⟨[]⟩)) suffix

def Same (p q : Path) : Prop := p.keys = q.keys

instance (p q : Path) : Decidable (Same p q) := inferInstanceAs (Decidable (p.keys = q.keys))

end Path

end WebForm
