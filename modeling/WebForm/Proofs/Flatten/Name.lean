import Mathlib
import WebForm.Field

/-!
# Names in brackets

A name in which every key stands in brackets gives its keys back one after the other, as long as no
key is empty or has a dot or a closing bracket in it.
-/
namespace WebForm

def Key.marked (k : Key) : List Char := '[' :: (k.toList ++ [']'])

/-- The key can be read back from between brackets. -/
def Key.Sound (k : Key) : Prop := k ≠ "" ∧ ∀ c ∈ k.toList, c ≠ ']' ∧ c ≠ '.'

def keyPath (ks : List Key) : String := String.ofList (ks.flatMap Key.marked)

namespace View

variable {k : Key} {ks : List Key} {b rest : List Char}

/-- The view of the first of the keys that are left, with `b` before it. -/
def along (b : List Char) : List Key → View
  | [] => ⟨b, [], []⟩
  | k :: ks => ⟨b, k.marked, ks.flatMap Key.marked⟩

theorem cut_marked (h : k.Sound) : cut (k.marked ++ rest) = (k.marked, rest) := by
  have hinner : ∀ c ∈ k.toList, decide (c ≠ ']' ∧ c ≠ '.') = true := by
    intro c hc
    exact decide_eq_true (h.2 c hc)
  have htake : (k.toList ++ ']' :: rest).takeWhile (fun c => c ≠ ']' ∧ c ≠ '.') = k.toList := by
    rw [List.takeWhile_append_of_pos hinner, List.takeWhile_cons_of_neg (by decide),
      List.append_nil]
  have hdrop : (k.toList ++ ']' :: rest).dropWhile (fun c => c ≠ ']' ∧ c ≠ '.') = ']' :: rest := by
    rw [List.dropWhile_append_of_pos hinner, List.dropWhile_cons_of_neg (by decide)]
  have hmarked : k.marked ++ rest = '[' :: (k.toList ++ ']' :: rest) := by simp [Key.marked]
  rw [hmarked, cut, if_neg (by decide), if_pos rfl, hdrop, htake]
  rfl

theorem cut_flatMap (h : ∀ k ∈ ks, k.Sound) :
    cut (ks.flatMap Key.marked) = ((along b ks).span, (along b ks).after) := by
  cases ks with
  | nil => rfl
  | cons k ks => exact cut_marked (h k List.mem_cons_self)

theorem shift_along (h : ∀ k ∈ ks, k.Sound) :
    (along b (k :: ks)).shift = along (b ++ k.marked) ks := by
  have hcut := cut_flatMap (b := b ++ k.marked) h
  rw [shift, along, hcut]
  cases ks <;> rfl

theorem ofName_keyPath (h : ∀ k ∈ ks, k.Sound) :
    ofName (.ofString (keyPath ks)) = along [] ks := by
  have hcut := cut_flatMap (b := []) h
  rw [ofName, Name.ofString, keyPath, String.toList_ofList, shift, hcut]
  cases ks <;> rfl

theorem keyText_along (b : List Char) (k : Key) (ks : List Key) :
    (along b (k :: ks)).keyText = k := by
  have hbare : bareKey k.marked = k.toList := by simp [Key.marked, bareKey]
  rw [keyText, along, hbare, String.ofList_toList]

theorem key_along (h : k ≠ "") : (along b (k :: ks)).key? = some k := by
  rw [key?, keyText_along, if_neg h]

end View

end WebForm
