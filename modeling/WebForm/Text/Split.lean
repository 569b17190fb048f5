/-!
# Cutting text

Cutting at a separator, and joining.
-/
namespace WebForm.Text

/-- The pieces between the separators; a text without separators is one piece. -/
def splitOn {α : Type} [DecidableEq α] (sep : α) : List α → List (List α)
  | [] => [[]]
  | c :: r =>
    if c = sep then [] :: splitOn sep r
    else
      match splitOn sep r with
      | [] => [[c]]
      | p :: ps => (c :: p) :: ps

theorem splitOn_ne_nil {α : Type} [DecidableEq α] (sep : α) (s : List α) : splitOn sep s ≠ [] := by
  cases s with
  | nil => simp [splitOn]
  | cons c r =>
    unfold splitOn
    split
    · simp
    · split <;> simp

/-- What comes before the first separator and what comes after it, if there is one. -/
def cutAt {α : Type} [DecidableEq α] (sep : α) (s : List α) : List α × Option (List α) :=
  match s.dropWhile (· ≠ sep) with
  | [] => (s, none)
  | _ :: r => (s.takeWhile (· ≠ sep), some r)

def occursIn {α : Type} [DecidableEq α] (t : List α) : List α → Bool
  | [] => t.isEmpty
  | c :: r => t.isPrefixOf (c :: r) || occursIn t r

def padLeft (width : Nat) (fill : Char) (s : List Char) : List Char :=
  List.replicate (width - s.length) fill ++ s

def hex (width n : Nat) : List Char := padLeft width '0' (Nat.toDigits 16 n)

def decimal (width n : Nat) : List Char := padLeft width '0' (Nat.toDigits 10 n)

def commaSeparated (parts : List String) : String := ", ".intercalate parts

end WebForm.Text
