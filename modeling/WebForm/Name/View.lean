import WebForm.Text.Split

/-!
# Field names

A field name is a path of keys: `a.b[c:d]` has the keys `a`, `b` and `c:d`. A key is a list of
indices between colons. Names are the same when their keys are, so `a.b`, `a[b]` and `a.[b]` are one
name in three spellings. A view stands on one key of a name and moves along its text.
-/
namespace WebForm

abbrev Key := String

/-- The indices of a key, empty ones included. -/
def Key.indices (k : Key) : List String := (Text.splitOn ':' k.toList).map String.ofList

structure Name where
  chars : List Char
  deriving DecidableEq, Repr

/-- The text before the current key, that of the current key with its marks, and the text after
it. -/
structure View where
  before : List Char
  span : List Char
  after : List Char
  deriving DecidableEq, Repr

def Name.ofString (s : String) : Name := ⟨s.toList⟩
def Name.text (n : Name) : String := String.ofList n.chars
def Name.isEmpty (n : Name) : Bool := n.chars.isEmpty

namespace View

/-- Cuts off the next key with its marks. A bracket that is not closed before the next dot ends
there, and an equals sign in place of a key ends the name. -/
def cut : List Char → List Char × List Char
  | [] => ([], [])
  | c :: r =>
    if c = '=' then ([], c :: r)
    else if c = '[' then
      let inner := r.takeWhile fun c => c ≠ ']' ∧ c ≠ '.'
      match r.dropWhile fun c => c ≠ ']' ∧ c ≠ '.' with
      | ']' :: rest => (c :: (inner ++ [']']), rest)
      | rest => (c :: inner, rest)
    else
      (c :: r.takeWhile fun c => c ≠ '.' ∧ c ≠ '[', r.dropWhile fun c => c ≠ '.' ∧ c ≠ '[')

theorem cut_append (s : List Char) : (cut s).1 ++ (cut s).2 = s := by
  unfold cut
  split
  · rfl
  · split
    · rfl
    · split
      · split
        · next h => simp [← h]
        · next h => simp
      · simp

theorem length_cut (s : List Char) : (cut s).1.length + (cut s).2.length = s.length := by
  rw [← List.length_append, cut_append]

def shift (v : View) : View := ⟨v.before ++ v.span, (cut v.after).1, (cut v.after).2⟩

def shiftBy (v : View) : Nat → View
  | 0 => v
  | n + 1 => v.shift.shiftBy n

def ofName (n : Name) : View := shift ⟨[], [], n.chars⟩

def bareKey : List Char → List Char
  | [] => []
  | c :: r =>
    if c = '.' then r
    else if c = '[' ∧ r.getLast? = some ']' then r.dropLast
    else c :: r

def keyText (v : View) : Key := String.ofList (bareKey v.span)

def key? (v : View) : Option Key := if v.keyText = "" then none else some v.keyText

def start (v : View) : Nat := v.before.length
def stop (v : View) : Nat := v.before.length + v.span.length

def source (v : View) : Name := ⟨v.before ++ v.span ++ v.after⟩

def asName (v : View) : Name := ⟨v.before ++ v.span⟩

def parent? (v : View) : Option Name := if v.before.isEmpty then none else some ⟨v.before⟩

def isTerminal (v : View) : Bool := v.span.isEmpty && v.after.isEmpty

/-- The views from `v` on, until the name ends or stops moving. -/
def walk (v : View) : List View :=
  if v.isTerminal then []
  else if v.shift.span = [] then [v]
  else v :: v.shift.walk
termination_by v.after.length
decreasing_by
  have h := length_cut v.after
  have : (cut v.after).1.length ≠ 0 := by simpa [shift] using ‹¬v.shift.span = []›
  simp only [shift]
  omega

end View

namespace Name

def keys (n : Name) : List Key := (View.ofName n).walk.map View.keyText

/-- The names that end at the first key, at the second, and so on. -/
def leading (n : Name) : List Name := (View.ofName n).walk.map View.asName

def Same (m n : Name) : Prop := m.keys = n.keys

instance (m n : Name) : Decidable (Same m n) := inferInstanceAs (Decidable (m.keys = n.keys))

def length (n : Name) : Nat := n.chars.length

/-- The part of a name from one position to another; negative positions count from the end. -/
def slice (n : Name) (start stop : Option Int) : Name :=
  let length : Int := n.chars.length
  let place (i : Int) : Nat := (min (if i < 0 then max (i + length) 0 else i) length).toNat
  let low := (start.map place).getD 0
  let high := (stop.map place).getD n.chars.length
  ⟨(n.chars.take high).drop low⟩

end Name

end WebForm
