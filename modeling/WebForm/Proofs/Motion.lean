import Mathlib
import WebForm.Name.Place
import WebForm.Proofs.Keys

/-!
# Views in motion

A view moves over the spans of a name one by one and stands still after the last. So the spans make
up the text to the place where the name ends, and the keys and the leading names of a name are those
of the views on the way. The leading names have one key more each time, unless an equals sign ends
the name at its very beginning: such a name still has an empty key, which the only name that leads
to it lacks.
-/
namespace WebForm

/-- The text of the name is over at the position, or an equals sign stands in place of a key. -/
def Name.EndsAt (n : Name) (position : Nat) : Prop :=
  position = n.length ∨ n.chars[position]? = some '='

instance (n : Name) (position : Nat) : Decidable (n.EndsAt position) :=
  inferInstanceAs (Decidable (_ ∨ _))

namespace View

theorem length_source (v : View) : v.source.length = v.stop + v.after.length := by
  simp only [Name.length, source, stop, List.length_append]

theorem start_shift (v : View) : v.shift.start = v.stop := by
  simp only [start, stop, shift, List.length_append]

theorem stop_shift (v : View) : v.shift.stop = v.stop + (cut v.after).1.length := by
  simp only [stop, shift, List.length_append]

theorem stop_shift_le (v : View) : v.stop + (cut v.after).1.length ≤ v.source.length := by
  have hlen := length_cut v.after
  have hsource := v.length_source
  omega

theorem endsAt_stop (v : View) : v.source.EndsAt v.stop ↔ (cut v.after).1 = [] := by
  have hget : v.source.chars[v.stop]? = v.after.head? := by
    rw [source, stop, ← List.length_append, List.getElem?_append_right le_rfl, Nat.sub_self,
      List.head?_eq_getElem?]
  have hlength : v.stop = v.source.length ↔ v.after = [] := by
    rw [length_source, Nat.left_eq_add, List.length_eq_zero_iff]
  rw [Name.EndsAt, hget, hlength, cut_eq_nil]

theorem stop_lt_shift (v : View) : v.stop < v.shift.stop ↔ ¬v.source.EndsAt v.stop := by
  rw [stop_shift, endsAt_stop, Nat.lt_add_right_iff_pos, List.length_pos_iff]

theorem shift_of_ended {v : View} (hspan : v.span = []) (hnext : v.shift.span = []) :
    v.shift = v := by
  have hafter : (cut v.after).2 = v.after := by
    have happend := cut_append v.after
    rwa [show (cut v.after).1 = [] from hnext, List.nil_append] at happend
  rcases v with ⟨before, span, after⟩
  obtain rfl : span = [] := hspan
  rw [shift, hafter, show (cut after).1 = [] from hnext, List.append_nil]

theorem length_spans_le (s : List Char) : (spans s).length ≤ s.length := by
  induction s using spans.induct with
  | case1 s h => rw [spans_of_nil h]; exact Nat.zero_le _
  | case2 s h ih =>
    have hlen := length_cut s
    have hpos := List.length_pos_of_ne_nil h
    rw [(spans_cut h).2, List.length_cons]
    omega

variable {n : Name} {k : Nat}

theorem start_shiftBy (n : Name) (k : Nat) :
    ((ofName n).shiftBy k).start = ((spans n.chars).take k).flatten.length := by
  rw [start, before_shiftBy]

theorem stop_shiftBy (n : Name) (k : Nat) :
    ((ofName n).shiftBy k).stop = ((spans n.chars).take (k + 1)).flatten.length := by
  rw [← start_shiftBy, shiftBy_succ, start_shift]

theorem span_shiftBy_eq_nil : ((ofName n).shiftBy k).span = [] ↔ (spans n.chars).length ≤ k := by
  rw [span_shiftBy]
  rcases lt_or_ge k (spans n.chars).length with hk | hk
  · obtain ⟨r, hr⟩ := isSpan_of_mem_spans (List.getElem_mem hk)
    rw [List.getElem?_eq_getElem hk, Option.getD_some]
    exact iff_of_false hr.ne_nil (Nat.not_le.2 hk)
  · rw [List.getElem?_eq_none hk]
    exact iff_of_true rfl hk

theorem endsAt_shiftBy :
    n.EndsAt ((ofName n).shiftBy k).stop ↔ (spans n.chars).length ≤ k + 1 := by
  have hends := ((ofName n).shiftBy k).endsAt_stop
  rw [source_ofName] at hends
  rw [hends, ← span_shiftBy_eq_nil, shiftBy_succ]
  rfl

theorem stays_at_end {j : Nat} (h : n.EndsAt ((ofName n).shiftBy j).stop) (hjk : j < k) :
    ((ofName n).shiftBy k).start = ((ofName n).shiftBy j).stop ∧
      ((ofName n).shiftBy k).stop = ((ofName n).shiftBy j).stop := by
  have hj := endsAt_shiftBy.1 h
  rw [start_shiftBy, stop_shiftBy, stop_shiftBy, List.take_of_length_le hj,
    List.take_of_length_le (by omega), List.take_of_length_le (by omega)]
  exact ⟨rfl, rfl⟩

theorem shiftBy_moves : (ofName n).shiftBy (k + 1) ≠ (ofName n).shiftBy k ↔
    k < (spans n.chars).length := by
  constructor
  · intro h
    by_contra hk
    have hk : (spans n.chars).length ≤ k := Nat.not_lt.1 hk
    rw [shiftBy_succ] at h
    refine h (shift_of_ended (span_shiftBy_eq_nil.2 hk) ?_)
    rw [← shiftBy_succ]
    exact span_shiftBy_eq_nil.2 (Nat.le_succ_of_le hk)
  · intro hk h
    have hstart := congrArg start h
    rw [shiftBy_succ, start_shift] at hstart
    have hspan : ((ofName n).shiftBy k).span ≠ [] := fun hs =>
      Nat.not_le.2 hk (span_shiftBy_eq_nil.1 hs)
    have hpos := List.length_pos_of_ne_nil hspan
    unfold stop start at hstart
    omega

theorem spans_passed (n : Name) :
    (List.range (spans n.chars).length).map (fun k => ((ofName n).shiftBy k).span) =
      spans n.chars := by
  refine List.ext_getElem (by simp) fun k hk hk' => ?_
  rw [List.getElem_map, List.getElem_range, span_shiftBy, List.getElem?_eq_getElem hk',
    Option.getD_some]

/-- The spans make up the text to the place where the view stops. -/
theorem flatten_spans (n : Name) :
    (spans n.chars).flatten = n.chars.take ((ofName n).shiftBy (spans n.chars).length).stop := by
  have hstop : ((ofName n).shiftBy (spans n.chars).length).stop =
      (spans n.chars).flatten.length := by
    rw [stop_shiftBy, List.take_of_length_le (Nat.le_succ _)]
  have hspan := (span_shiftBy_eq_nil (n := n)).2 le_rfl
  have hsource := congrArg Name.chars (source_ofName n (spans n.chars).length)
  rw [source, hspan, before_shiftBy, List.take_length, List.append_nil] at hsource
  calc (spans n.chars).flatten
    _ = ((spans n.chars).flatten ++ ((ofName n).shiftBy (spans n.chars).length).after).take
          (spans n.chars).flatten.length := List.take_left.symm
    _ = n.chars.take ((ofName n).shiftBy (spans n.chars).length).stop := by
      rw [hstop]
      exact congrArg _ hsource

/-- A walk meets the views that have a span, or just the first view if there is none of them but
there is a text. -/
theorem walk_ofName (n : Name) :
    (ofName n).walk = (List.range (if n.chars = [] then 0 else max 1 (spans n.chars).length)).map
      (ofName n).shiftBy := by
  by_cases hcut : (cut n.chars).1 = []
  · have hspan : (ofName n).span = [] := hcut
    rw [spans_of_nil hcut]
    by_cases hn : n.chars = []
    · rw [if_pos hn, walk, if_pos (by simp [isTerminal, ofName, shift, hn, cut])]
      rfl
    · have hafter : (ofName n).after = n.chars := by
        have happend := cut_append n.chars
        rwa [hcut, List.nil_append] at happend
      have hnext : (ofName n).shift.span = [] := by
        rw [shift, hafter]
        exact hcut
      rw [if_neg hn, walk, if_neg (by simp [isTerminal, hafter, hn]), if_pos hnext]
      rfl
  · have hn : n.chars ≠ [] := by
      rintro hn
      rw [hn] at hcut
      exact hcut rfl
    have hlen : (spans (ofName n).after).length + 1 = (spans n.chars).length := by
      rw [(spans_cut hcut).2, List.length_cons]
      rfl
    rw [walk_eq_map _ hcut, hlen, if_neg hn, max_eq_right (by omega)]

theorem length_walk_le (n : Name) : (ofName n).walk.length ≤ max 1 n.length := by
  have hlen : (spans n.chars).length ≤ n.length := length_spans_le n.chars
  rw [walk_ofName, List.length_map, List.length_range]
  split_ifs <;> omega

/-- The views of a name cut its text into spans without a gap, and each shift goes further until the
name ends, where the views stay. At most as many shifts as there are characters do anything, and the
walks that give the keys and the leading names are no longer, or of one view. -/
theorem shiftBy_tiles (n : Name) :
    (ofName n).start = 0 ∧ (0 < (ofName n).stop ↔ ¬n.EndsAt 0) ∧
      (∀ k, ((ofName n).shiftBy k).source = n ∧
        ((ofName n).shiftBy (k + 1)).start = ((ofName n).shiftBy k).stop ∧
        ((ofName n).shiftBy k).stop + (cut ((ofName n).shiftBy k).after).1.length ≤ n.length ∧
        (((ofName n).shiftBy k).stop < ((ofName n).shiftBy (k + 1)).stop ↔
          ¬n.EndsAt ((ofName n).shiftBy k).stop)) ∧
      (∀ j k, n.EndsAt ((ofName n).shiftBy j).stop → j < k →
        ((ofName n).shiftBy k).start = ((ofName n).shiftBy j).stop ∧
          ((ofName n).shiftBy k).stop = ((ofName n).shiftBy j).stop) ∧
      ∃ m ≤ n.length,
        (∀ k, (ofName n).shiftBy (k + 1) ≠ (ofName n).shiftBy k ↔ k < m) ∧
        n.EndsAt ((ofName n).shiftBy m).stop ∧
        ((List.range m).map fun k => ((ofName n).shiftBy k).span).flatten =
          n.chars.take ((ofName n).shiftBy m).stop ∧
        (ofName n).walk =
          (List.range (if n.chars = [] then 0 else max 1 m)).map (ofName n).shiftBy ∧
        n.keys.length ≤ max 1 n.length ∧ n.leading.length ≤ max 1 n.length := by
  refine ⟨rfl, stop_lt_shift ⟨[], [], n.chars⟩, fun k => ⟨source_ofName n k, ?_, ?_, ?_⟩,
    fun _ _ => stays_at_end, (spans n.chars).length, length_spans_le _, fun _ => shiftBy_moves,
    endsAt_shiftBy.2 (Nat.le_succ _), ?_, walk_ofName n, ?_, ?_⟩
  · rw [shiftBy_succ, start_shift]
  · have hle := stop_shift_le ((ofName n).shiftBy k)
    rwa [source_ofName] at hle
  · rw [shiftBy_succ, stop_lt_shift, source_ofName]
  · rw [spans_passed, flatten_spans]
  · rw [Name.keys, List.length_map]
    exact length_walk_le n
  · rw [Name.leading, List.length_map]
    exact length_walk_le n

/-- An equals sign after the keys stops a view long before it has been shifted by all characters. -/
theorem equals_sign_stops :
    (Name.ofString "a[b]=c").EndsAt ((ofName (.ofString "a[b]=c")).shiftBy 1).stop ∧
      ((ofName (.ofString "a[b]=c")).shiftBy 9).start = 4 ∧
      ((ofName (.ofString "a[b]=c")).shiftBy 9).stop = 4 := by
  obtain ⟨-, -, -, hstay, -⟩ := shiftBy_tiles (.ofString "a[b]=c")
  have hends : (Name.ofString "a[b]=c").EndsAt ((ofName (.ofString "a[b]=c")).shiftBy 1).stop := by
    decide
  exact ⟨hends, hstay 1 9 hends (by decide)⟩

end View

namespace Place

variable {m n : Name}

theorem same_name_iff : same (.name m) (.name n) = true ↔ m.keys = n.keys := beq_iff_eq

theorem same_view_iff {v : View} : same (.view v) (.name n) = true ↔ v.asName.keys = n.keys :=
  beq_iff_eq

end Place

namespace Name

open View

variable {n : Name}

theorem keys_last_leading (h : n.Begins) {m : Name} (hm : n.leading.getLast? = some m) :
    m.keys = n.keys := by
  have hlast := congrArg List.getLast? (leading_keys h)
  rw [List.getLast?_map, hm, Option.map_some, List.getLast?_map, List.getLast?_range] at hlast
  split_ifs at hlast with hk
  · cases hlast
  · rw [Option.map_some, Option.some.injEq] at hlast
    rw [hlast, List.take_of_length_le (by omega)]

/-- There is a leading name for each key. The first has the first key, the second the first two, and
so on; the last is the name, and so is what the view on the last key shows. Just the names that an
equals sign ends at once are excepted: all that leads to them and that a view shows of them has no
keys. -/
theorem leading_iff_begins (n : Name) :
    n.leading.length = n.keys.length ∧
      (n.leading.map keys = (List.range n.keys.length).map (fun k => n.keys.take (k + 1)) ↔
        n.Begins) ∧
      (n.leading.getLast?.all (fun m => Place.same (.name m) (.name n)) = true ↔ n.Begins) ∧
      (Place.same (.view ((ofName n).shiftBy (n.keys.length - 1))) (.name n) = true ↔ n.Begins) ∧
      (n.Begins ∨ n.keys = [""] ∧ n.leading = [⟨[]⟩]) := by
  refine ⟨by rw [leading, keys, List.length_map, List.length_map], ?_⟩
  by_cases h : n.Begins
  · simp only [h, iff_true, true_or, and_true]
    refine ⟨leading_keys h, ?_, ?_⟩
    · rw [Option.all_eq_true]
      exact fun m hm => Place.same_name_iff.2 (keys_last_leading h hm)
    · rw [Place.same_view_iff, keys_asName h, List.take_of_length_le (by omega)]
  · obtain ⟨hkeys, hleading⟩ := keys_of_not_begins h
    have hnone : keys ⟨[]⟩ = [] := keys_eq_nil_iff.2 rfl
    have hview : (ofName n).asName = ⟨[]⟩ := by
      obtain ⟨t, ht⟩ := List.head?_eq_some_iff.1 (not_not.1 h)
      rw [asName, ofName, shift, ht]
      rfl
    simp only [h, iff_false, false_or]
    refine ⟨?_, ?_, ?_, hkeys, hleading⟩
    · rw [hleading, hkeys, List.map_singleton, hnone]
      decide
    · rw [hleading, List.getLast?_singleton, Option.all_some, Place.same_name_iff, hnone, hkeys]
      exact (List.cons_ne_nil _ _).symm
    · rw [hkeys, List.length_singleton, shiftBy, Place.same_view_iff, hview, hnone, hkeys]
      exact (List.cons_ne_nil _ _).symm

end Name

end WebForm
