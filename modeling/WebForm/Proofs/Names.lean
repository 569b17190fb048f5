import Mathlib
import WebForm.Name.Path

/-!
# Names in spans

A view moves over the text of a name span by span, and all it shows of the name hangs on the spans. A
text made of the first few spans of a name is cut in the same places as the name. So the keys of the
name up to a view are the first keys of the whole name, however the keys are spelled.
-/
namespace WebForm

theorem takeWhile_append_stop {α : Type} {p : α → Bool} {as bs : List α} (ha : ∀ a ∈ as, p a = true)
    (hb : ∀ b ∈ bs.head?, p b = false) :
    (as ++ bs).takeWhile p = as ∧ (as ++ bs).dropWhile p = bs := by
  rw [List.takeWhile_append_of_pos ha, List.dropWhile_append_of_pos ha]
  cases bs with
  | nil => simp
  | cons b bs => simp [hb b rfl]

theorem exists_takeWhile {α : Type} (p : α → Bool) (s : List α) :
    ∃ as bs, s = as ++ bs ∧ (∀ a ∈ as, p a = true) ∧ ∀ b ∈ bs.head?, p b = false := by
  refine ⟨s.takeWhile p, s.dropWhile p, List.takeWhile_append_dropWhile.symm,
    fun a ha => List.mem_takeWhile_imp ha, ?_⟩
  intro b hb
  have h := List.head?_dropWhile_not p s
  rw [Option.mem_def.1 hb] at h
  simpa using h

namespace View

/-- A span with a rest of this text after it. A bracket that is not closed is ended by a dot, and a
key without marks by a mark. -/
inductive IsSpan (rest : List Char) : List Char → Prop
  | closed {inner} : (∀ c ∈ inner, c ≠ ']' ∧ c ≠ '.') → IsSpan rest ('[' :: (inner ++ [']']))
  | unclosed {inner} : (∀ c ∈ inner, c ≠ ']' ∧ c ≠ '.') → (∀ c ∈ rest.head?, c = '.') →
    IsSpan rest ('[' :: inner)
  | plain {c inner} : c ≠ '=' → c ≠ '[' → (∀ c ∈ inner, c ≠ '.' ∧ c ≠ '[') →
    (∀ c ∈ rest.head?, c = '.' ∨ c = '[') → IsSpan rest (c :: inner)

theorem cut_of_isSpan {a r : List Char} (h : IsSpan r a) : cut (a ++ r) = (a, r) := by
  cases h with
  | @closed inner hi =>
    have hstop : ∀ b ∈ (']' :: r).head?, decide (b ≠ ']' ∧ b ≠ '.') = false := by simp
    obtain ⟨htake, hdrop⟩ := takeWhile_append_stop (p := fun b => b ≠ ']' ∧ b ≠ '.')
      (by simpa using hi) hstop
    simp only [List.cons_append, List.append_assoc, List.nil_append, cut, htake, hdrop]
    rfl
  | @unclosed inner hi hr =>
    have hstop : ∀ b ∈ r.head?, decide (b ≠ ']' ∧ b ≠ '.') = false := by
      intro b hb
      simp [hr b hb]
    obtain ⟨htake, hdrop⟩ := takeWhile_append_stop (p := fun b => b ≠ ']' ∧ b ≠ '.')
      (by simpa using hi) hstop
    simp only [List.cons_append, cut, htake, hdrop]
    cases r with
    | nil => rfl
    | cons d r =>
      obtain rfl := hr d rfl
      rfl
  | @plain c inner hc hb hi hr =>
    have hstop : ∀ b ∈ r.head?, decide (b ≠ '.' ∧ b ≠ '[') = false := by
      intro b hb
      rcases hr b hb with rfl | rfl <;> simp
    obtain ⟨htake, hdrop⟩ := takeWhile_append_stop (p := fun b => b ≠ '.' ∧ b ≠ '[')
      (by simpa using hi) hstop
    simp only [List.cons_append, cut, htake, hdrop, if_neg hc, if_neg hb]

theorem exists_isSpan {s : List Char} (hne : s ≠ []) (heq : s.head? ≠ some '=') :
    ∃ a r, s = a ++ r ∧ IsSpan r a := by
  cases s with
  | nil => exact absurd rfl hne
  | cons c t =>
    have hc : c ≠ '=' := fun h => heq (by rw [h, List.head?_cons])
    by_cases hb : c = '['
    · subst hb
      obtain ⟨inner, rest, rfl, hi, hr⟩ := exists_takeWhile (fun b => b ≠ ']' ∧ b ≠ '.') t
      have hi : ∀ b ∈ inner, b ≠ ']' ∧ b ≠ '.' := by simpa using hi
      cases rest with
      | nil => exact ⟨_, [], by simp, .unclosed hi (by simp)⟩
      | cons d rest =>
        by_cases hd : d = ']'
        · subst hd
          exact ⟨_, rest, by simp, .closed hi⟩
        · have hdot : d = '.' := by simpa [hd] using hr d rfl
          exact ⟨_, d :: rest, by simp, .unclosed hi (by simp [hdot])⟩
    · obtain ⟨inner, rest, rfl, hi, hr⟩ := exists_takeWhile (fun b => b ≠ '.' ∧ b ≠ '[') t
      refine ⟨c :: inner, rest, rfl, .plain hc hb (by simpa using hi) ?_⟩
      intro d hd
      by_contra hn
      simpa [not_or.1 hn] using hr d hd

theorem IsSpan.ne_nil {a r : List Char} (h : IsSpan r a) : a ≠ [] := by
  cases h <;> exact List.cons_ne_nil _ _

theorem cut_eq_iff {s a r : List Char} (ha : a ≠ []) :
    cut s = (a, r) ↔ s = a ++ r ∧ IsSpan r a := by
  constructor
  · intro h
    have hne : s ≠ [] := by
      rintro rfl
      exact ha (Prod.mk.inj h).1.symm
    have heq : s.head? ≠ some '=' := by
      intro he
      obtain ⟨t, rfl⟩ := List.head?_eq_some_iff.1 he
      exact ha (Prod.mk.inj h).1.symm
    obtain ⟨b, t, rfl, hb⟩ := exists_isSpan hne heq
    rw [cut_of_isSpan hb] at h
    obtain ⟨rfl, rfl⟩ := Prod.mk.inj h
    exact ⟨rfl, hb⟩
  · rintro ⟨rfl, h⟩
    exact cut_of_isSpan h

theorem cut_eq_nil {s : List Char} : (cut s).1 = [] ↔ s = [] ∨ s.head? = some '=' := by
  constructor
  · intro h
    by_contra hn
    obtain ⟨hne, heq⟩ := not_or.1 hn
    obtain ⟨a, r, rfl, ha⟩ := exists_isSpan hne heq
    rw [cut_of_isSpan ha] at h
    exact ha.ne_nil h
  · rintro (rfl | h)
    · rfl
    · obtain ⟨t, rfl⟩ := List.head?_eq_some_iff.1 h
      rfl

theorem IsSpan.of_head {a r t : List Char} (h : IsSpan r a) (ht : ∀ c ∈ t.head?, c ∈ r.head?) :
    IsSpan t a := by
  cases h with
  | closed hi => exact .closed hi
  | unclosed hi hr => exact .unclosed hi fun c hc => hr c (ht c hc)
  | plain hc hb hi hr => exact .plain hc hb hi fun d hd => hr d (ht d hd)

/-- The spans of a text, up to where the name ends. -/
def spans (s : List Char) : List (List Char) :=
  if _h : (cut s).1 = [] then [] else (cut s).1 :: spans (cut s).2
termination_by s.length
decreasing_by
  have hlen := length_cut s
  have hpos := List.length_pos_of_ne_nil _h
  omega

theorem spans_of_nil {s : List Char} (h : (cut s).1 = []) : spans s = [] := by
  rw [spans, dif_pos h]

theorem spans_append {a r : List Char} (h : IsSpan r a) : spans (a ++ r) = a :: spans r := by
  rw [spans, cut_of_isSpan h, dif_neg h.ne_nil]

theorem spans_cut {s : List Char} (h : (cut s).1 ≠ []) :
    IsSpan (cut s).2 (cut s).1 ∧ spans s = (cut s).1 :: spans (cut s).2 :=
  ⟨((cut_eq_iff h).1 rfl).2, by rw [spans, dif_neg h]⟩

theorem head_flatten_take {s : List Char} {k : Nat} :
    ∀ c ∈ ((spans s).take k).flatten.head?, c ∈ s.head? := by
  cases k with
  | zero => simp
  | succ k =>
    by_cases h : (cut s).1 = []
    · simp [spans_of_nil h]
    · rw [(spans_cut h).2, List.take_succ_cons, List.flatten_cons]
      intro c hc
      rw [← cut_append s, List.head?_append_of_ne_nil _ h]
      rwa [List.head?_append_of_ne_nil _ h] at hc

theorem spans_flatten_take (s : List Char) (k : Nat) :
    spans ((spans s).take k).flatten = (spans s).take k := by
  induction k generalizing s with
  | zero => exact spans_of_nil rfl
  | succ k ih =>
    by_cases h : (cut s).1 = []
    · rw [spans_of_nil h]
      exact spans_of_nil rfl
    · obtain ⟨hspan, hs⟩ := spans_cut h
      rw [hs, List.take_succ_cons, List.flatten_cons,
        spans_append (hspan.of_head head_flatten_take), ih]

theorem shiftBy_shift (v : View) (k : Nat) :
    (v.shift.shiftBy k).before = v.before ++ v.span ++ ((spans v.after).take k).flatten ∧
      (v.shift.shiftBy k).span = (spans v.after)[k]?.getD [] := by
  induction k generalizing v with
  | zero =>
    refine ⟨by simp [shiftBy, shift], ?_⟩
    by_cases h : (cut v.after).1 = []
    · simp [shiftBy, shift, spans_of_nil h, h]
    · simp [shiftBy, shift, (spans_cut h).2]
  | succ k ih =>
    obtain ⟨hb, hs⟩ := ih v.shift
    rw [shiftBy, hb, hs]
    by_cases h : (cut v.after).1 = []
    · have hrest : (cut v.after).2 = v.after := by
        have := cut_append v.after
        rwa [h, List.nil_append] at this
      simp [shift, h, hrest, spans_of_nil h]
    · simp [shift, (spans_cut h).2]

theorem source_shift (v : View) : v.shift.source = v.source := by
  simp [source, shift, cut_append]

theorem source_shiftBy (v : View) (k : Nat) : (v.shiftBy k).source = v.source := by
  induction k generalizing v with
  | zero => rfl
  | succ k ih => exact (ih v.shift).trans v.source_shift

theorem shiftBy_succ (v : View) (k : Nat) : v.shiftBy (k + 1) = (v.shiftBy k).shift := by
  induction k generalizing v with
  | zero => rfl
  | succ k ih => exact ih v.shift

def keyIn (span : List Char) : Key := String.ofList (bareKey span)

theorem walk_eq_map (v : View) (h : v.span ≠ []) :
    v.walk = (List.range ((spans v.after).length + 1)).map v.shiftBy := by
  induction v using walk.induct with
  | case1 v ht => simp [isTerminal, h] at ht
  | case2 v ht hs =>
    rw [walk, if_neg ht, if_pos hs, spans_of_nil hs]
    rfl
  | case3 v ht hs ih =>
    have hcut : (cut v.after).1 ≠ [] := hs
    rw [(spans_cut hcut).2, List.length_cons, List.range_succ_eq_map, List.map_cons, List.map_map,
      walk, if_neg ht, if_neg hs, ih hs]
    rfl

theorem walk_keys (v : View) (h : v.span ≠ []) :
    v.walk.map keyText = keyIn v.span :: (spans v.after).map keyIn := by
  induction v using walk.induct with
  | case1 v ht => simp [isTerminal, h] at ht
  | case2 v ht hs =>
    rw [walk, if_neg ht, if_pos hs, spans_of_nil hs]
    rfl
  | case3 v ht hs ih =>
    have hcut : (cut v.after).1 ≠ [] := hs
    rw [walk, if_neg ht, if_neg hs, List.map_cons, ih hs, (spans_cut hcut).2]
    rfl

end View

namespace Name

open View

/-- An equals sign does not end the name before its first key. -/
def Begins (n : Name) : Prop := n.chars.head? ≠ some '='

instance (n : Name) : Decidable n.Begins := inferInstanceAs (Decidable (_ ≠ _))

variable {n : Name} {k : Nat}

theorem keys_eq (h : n.Begins) : n.keys = (spans n.chars).map keyIn := by
  unfold keys
  by_cases hn : (cut n.chars).1 = []
  · have hnil : n.chars = [] := (cut_eq_nil.1 hn).resolve_right h
    rw [spans_of_nil hn, walk, if_pos (by simp [isTerminal, ofName, shift, hnil, cut])]
    rfl
  · rw [walk_keys _ hn, (spans_cut hn).2]
    rfl

theorem keys_eq_nil (h : n.Begins) : n.keys = [] ↔ n.chars = [] := by
  rw [keys_eq h, List.map_eq_nil_iff]
  constructor
  · intro hs
    by_contra hne
    have hcut : (cut n.chars).1 ≠ [] := fun hc => (cut_eq_nil.1 hc).elim hne h
    rw [(spans_cut hcut).2] at hs
    cases hs
  · intro hn
    rw [hn]
    exact spans_of_nil rfl

theorem keys_flatten_take (h : n.Begins) (k : Nat) :
    keys ⟨((spans n.chars).take k).flatten⟩ = n.keys.take k := by
  have hb : Begins ⟨((spans n.chars).take k).flatten⟩ := fun hc => h (head_flatten_take _ hc)
  rw [keys_eq hb, keys_eq h, spans_flatten_take, List.map_take]

end Name

namespace View

open Name

variable {n : Name} {k : Nat}

theorem before_shiftBy (n : Name) (k : Nat) :
    ((ofName n).shiftBy k).before = ((spans n.chars).take k).flatten := by
  rw [ofName, (shiftBy_shift _ k).1]
  rfl

theorem span_shiftBy (n : Name) (k : Nat) :
    ((ofName n).shiftBy k).span = (spans n.chars)[k]?.getD [] := by
  rw [ofName, (shiftBy_shift _ k).2]

theorem source_ofName (n : Name) (k : Nat) : ((ofName n).shiftBy k).source = n := by
  rw [source_shiftBy, ofName, source_shift]
  rfl

theorem text_ofString (s : String) : (ofName (.ofString s)).source.text = s := by
  change ((ofName (.ofString s)).shiftBy 0).source.text = s
  rw [source_ofName, text, Name.ofString, String.ofList_toList]

theorem keys_before (h : n.Begins) (k : Nat) :
    keys ⟨((ofName n).shiftBy k).before⟩ = n.keys.take k := by
  rw [before_shiftBy, keys_flatten_take h]

theorem keys_asName (h : n.Begins) (k : Nat) :
    ((ofName n).shiftBy k).asName.keys = n.keys.take (k + 1) := by
  rw [← keys_flatten_take h, asName, before_shiftBy, span_shiftBy, List.take_add_one,
    List.flatten_append]
  cases (spans n.chars)[k]? <;> simp

theorem keyText_shiftBy (h : n.Begins) (k : Nat) :
    ((ofName n).shiftBy k).keyText = n.keys[k]?.getD "" := by
  rw [keyText, span_shiftBy, keys_eq h, List.getElem?_map]
  cases (spans n.chars)[k]? <;> rfl

theorem before_eq_nil (h : n.Begins) :
    ((ofName n).shiftBy k).before = [] ↔ n.keys.take k = [] := by
  have hb : Begins ⟨((ofName n).shiftBy k).before⟩ := by
    rw [before_shiftBy]
    exact fun hc => h (head_flatten_take _ hc)
  rw [← keys_before h, keys_eq_nil hb]

theorem asName_isEmpty (h : n.Begins) :
    ((ofName n).shiftBy k).asName.isEmpty = true ↔ n.keys = [] := by
  have hsucc : ((ofName n).shiftBy k).asName = ⟨((ofName n).shiftBy (k + 1)).before⟩ := by
    rw [shiftBy_succ]
    rfl
  rw [hsucc, Name.isEmpty, List.isEmpty_iff, before_eq_nil h, List.take_eq_nil_iff]
  simp

end View

namespace Name

open View

variable {n : Name}

/-- The names that lead to a name have its first keys, one more each time. -/
theorem leading_keys (h : n.Begins) :
    n.leading.map keys = (List.range n.keys.length).map fun k => n.keys.take (k + 1) := by
  by_cases hn : (cut n.chars).1 = []
  · have hnil : n.chars = [] := (cut_eq_nil.1 hn).resolve_right h
    have hwalk : (ofName n).walk = [] := by
      rw [walk, if_pos (by simp [isTerminal, ofName, shift, hnil, cut])]
    rw [(keys_eq_nil h).2 hnil, leading, hwalk]
    rfl
  · have hlen : (spans (ofName n).after).length + 1 = n.keys.length := by
      rw [keys_eq h, List.length_map, (spans_cut hn).2, List.length_cons]
      rfl
    rw [leading, walk_eq_map _ hn, hlen, List.map_map, List.map_map]
    exact List.map_congr_left fun k _ => keys_asName h k

theorem keys_of_not_begins (h : ¬n.Begins) : n.keys = [""] ∧ n.leading = [⟨[]⟩] := by
  obtain ⟨t, ht⟩ := List.head?_eq_some_iff.1 (not_not.1 h)
  have hwalk : (ofName n).walk = [⟨[], [], '=' :: t⟩] := by
    have hview : ofName n = ⟨[], [], '=' :: t⟩ := by
      rw [ofName, shift, ht]
      rfl
    have hstop : (shift ⟨[], [], '=' :: t⟩).span = [] := rfl
    rw [hview, walk, if_neg (by simp [isTerminal]), if_pos hstop]
  rw [keys, leading, hwalk]
  exact ⟨rfl, rfl⟩

theorem keys_eq_nil_iff : n.keys = [] ↔ n.chars = [] := by
  by_cases hb : n.Begins
  · exact keys_eq_nil hb
  · rw [(keys_of_not_begins hb).1]
    refine ⟨nofun, fun hnil => absurd ?_ hb⟩
    rw [Begins, hnil]
    exact nofun

end Name

end WebForm
