import Mathlib
import WebForm.Text.Split

/-!
# Pieces of text

What becomes of the pieces of a text if it is put together of two, or if its characters are written
in another way.
-/
namespace WebForm.Text

variable {α β : Type} [DecidableEq α] [DecidableEq β] {sep : α} {xs ys : List α}

theorem exists_splitOn (sep : α) (xs : List α) :
    ∃ pieces last, splitOn sep xs = pieces ++ [last] ∧ sep ∉ last ∧
      ∀ ys, splitOn sep (xs ++ ys) = pieces ++ splitOn sep (last ++ ys) := by
  induction xs with
  | nil => exact ⟨[], [], rfl, List.not_mem_nil, fun ys => rfl⟩
  | cons c xs ih =>
    obtain ⟨pieces, last, hxs, hlast, happend⟩ := ih
    by_cases hc : c = sep
    · refine ⟨[] :: pieces, last, ?_, hlast, fun ys => ?_⟩
      · rw [splitOn, if_pos hc, hxs, List.cons_append]
      · rw [List.cons_append, splitOn, if_pos hc, happend, List.cons_append]
    · cases pieces with
      | nil =>
        refine ⟨[], c :: last, ?_, ?_, fun ys => ?_⟩
        · rw [splitOn, if_neg hc, hxs]
          rfl
        · exact fun h => (List.mem_cons.1 h).elim (fun h => hc h.symm) hlast
        · rw [List.cons_append, List.nil_append, splitOn, if_neg hc, happend, List.cons_append,
            splitOn, if_neg hc, List.nil_append]
      | cons p pieces =>
        refine ⟨(c :: p) :: pieces, last, ?_, hlast, fun ys => ?_⟩
        · rw [splitOn, if_neg hc, hxs]
          rfl
        · rw [List.cons_append, splitOn, if_neg hc, happend]
          rfl

theorem splitOn_append_left {p : List α} {pieces : List (List α)} (hxs : sep ∉ xs)
    (hys : splitOn sep ys = p :: pieces) : splitOn sep (xs ++ ys) = (xs ++ p) :: pieces := by
  induction xs with
  | nil => exact hys
  | cons c xs ih =>
    have hc : c ≠ sep := fun hc => hxs (hc ▸ List.mem_cons_self)
    rw [List.cons_append, splitOn, if_neg hc, ih fun h => hxs (List.mem_cons_of_mem c h)]
    rfl

theorem splitOn_of_notMem (hxs : sep ∉ xs) : splitOn sep xs = [xs] := by
  have h : splitOn sep (xs ++ []) = [xs ++ []] := splitOn_append_left hxs rfl
  rwa [List.append_nil] at h

theorem cutAt_cons (c : α) (xs : List α) :
    cutAt sep (c :: xs) =
      if c = sep then ([], some xs) else (c :: (cutAt sep xs).1, (cutAt sep xs).2) := by
  unfold cutAt
  by_cases h : c = sep
  · simp [h]
  · rw [List.dropWhile_cons_of_pos (by simpa using h),
      List.takeWhile_cons_of_pos (by simpa using h), if_neg h]
    cases xs.dropWhile (· ≠ sep) <;> rfl

section Map

variable {g : α → β} {sep' : β}

theorem splitOn_map (hg : ∀ c ∈ xs, g c = sep' ↔ c = sep) :
    splitOn sep' (xs.map g) = (splitOn sep xs).map (List.map g) := by
  induction xs with
  | nil => rfl
  | cons c xs ih =>
    have hc := hg c List.mem_cons_self
    have ih := ih fun d hd => hg d (List.mem_cons_of_mem c hd)
    rw [List.map_cons, splitOn, splitOn, ih]
    by_cases h : c = sep
    · rw [if_pos h, if_pos (hc.2 h)]
      rfl
    · rw [if_neg h, if_neg (h ∘ hc.1)]
      cases splitOn sep xs <;> rfl

theorem cutAt_map (hg : ∀ c ∈ xs, g c = sep' ↔ c = sep) :
    cutAt sep' (xs.map g) = (cutAt sep xs).map (List.map g) (Option.map (List.map g)) := by
  induction xs with
  | nil => rfl
  | cons c xs ih =>
    have hc := hg c List.mem_cons_self
    have ih := ih fun d hd => hg d (List.mem_cons_of_mem c hd)
    rw [List.map_cons, cutAt_cons, cutAt_cons, ih]
    by_cases h : c = sep
    · rw [if_pos h, if_pos (hc.2 h)]
      rfl
    · rw [if_neg h, if_neg (h ∘ hc.1)]
      rfl

end Map

theorem mem_of_splitOn {p : List α} (hp : p ∈ splitOn sep xs) : ∀ c ∈ p, c ∈ xs := by
  induction xs generalizing p with
  | nil =>
    obtain rfl := List.mem_singleton.1 hp
    exact fun c hc => hc
  | cons d xs ih =>
    rw [splitOn] at hp
    by_cases hd : d = sep
    · rw [if_pos hd] at hp
      rcases List.mem_cons.1 hp with rfl | hp
      · exact fun c hc => absurd hc List.not_mem_nil
      · exact fun c hc => List.mem_cons_of_mem d (ih hp c hc)
    · rw [if_neg hd] at hp
      cases hxs : splitOn sep xs with
      | nil => exact absurd hxs (splitOn_ne_nil sep xs)
      | cons q qs =>
        rw [hxs] at hp ih
        rcases List.mem_cons.1 hp with rfl | hp
        · exact fun c hc => List.mem_cons.2 ((List.mem_cons.1 hc).imp_right
            (ih List.mem_cons_self c))
        · exact fun c hc => List.mem_cons_of_mem d (ih (List.mem_cons_of_mem q hp) c hc)

theorem mem_of_cutAt {c : α}
    (hc : c ∈ (cutAt sep xs).1 ∨ c ∈ (cutAt sep xs).2.getD []) : c ∈ xs := by
  induction xs with
  | nil => exact hc.elim id id
  | cons d xs ih =>
    rw [cutAt_cons] at hc
    by_cases hd : d = sep
    · rw [if_pos hd] at hc
      exact List.mem_cons_of_mem d (hc.resolve_left List.not_mem_nil)
    · rw [if_neg hd, List.mem_cons, or_assoc] at hc
      exact List.mem_cons.2 (hc.imp_right ih)

end WebForm.Text
