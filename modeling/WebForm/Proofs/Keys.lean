import Mathlib
import WebForm.Proofs.Names

/-!
# Names and lists of keys

A key of a name has no dot, and not both of the brackets. Every list of such keys is that of a name:
each key is written with a dot before it, or between brackets if it has an opening bracket of its
own. So names and lists of such keys are the same thing, up to the spelling.
-/
namespace WebForm

open View

namespace Key

variable {k : Key}

/-- A key that a name can have. -/
def IsWritable (k : Key) : Prop := '.' ∉ k.toList ∧ ¬('[' ∈ k.toList ∧ ']' ∈ k.toList)

instance (k : Key) : Decidable k.IsWritable := inferInstanceAs (Decidable (_ ∧ ¬(_ ∧ _)))

def written (k : Key) : List Char :=
  if '[' ∈ k.toList then '[' :: (k.toList ++ [']']) else '.' :: k.toList

theorem keyIn_written (k : Key) : keyIn k.written = k := by
  unfold written
  split_ifs <;> simp [keyIn, bareKey]

theorem head_written (k : Key) : ∃ c cs, k.written = c :: cs ∧ (c = '.' ∨ c = '[') := by
  unfold written
  split_ifs
  · exact ⟨'[', _, rfl, .inr rfl⟩
  · exact ⟨'.', _, rfl, .inl rfl⟩

theorem isSpan_written (h : k.IsWritable) {rest : List Char}
    (hrest : ∀ c ∈ rest.head?, c = '.' ∨ c = '[') : IsSpan rest k.written := by
  obtain ⟨hdot, hboth⟩ := h
  by_cases hopen : '[' ∈ k.toList
  · have hclose : ']' ∉ k.toList := fun hc => hboth ⟨hopen, hc⟩
    rw [written, if_pos hopen]
    refine .closed fun c hc => ⟨?_, ?_⟩
    · rintro rfl
      exact hclose hc
    · rintro rfl
      exact hdot hc
  · rw [written, if_neg hopen]
    refine .plain (by decide) (by decide) (fun c hc => ⟨?_, ?_⟩) hrest
    · rintro rfl
      exact hdot hc
    · rintro rfl
      exact hopen hc

end Key

theorem View.isSpan_of_mem_spans {s a : List Char} (h : a ∈ spans s) : ∃ r, IsSpan r a := by
  induction s using spans.induct with
  | case1 s hs =>
    rw [spans_of_nil hs] at h
    cases h
  | case2 s hs ih =>
    obtain ⟨hspan, hsplit⟩ := spans_cut hs
    rw [hsplit] at h
    rcases List.mem_cons.1 h with rfl | h
    · exact ⟨_, hspan⟩
    · exact ih h

theorem View.isWritable_keyIn {r a : List Char} (h : IsSpan r a) : (keyIn a).IsWritable := by
  unfold Key.IsWritable keyIn
  rw [String.toList_ofList]
  cases h with
  | @closed inner hi =>
    have hbare : bareKey ('[' :: (inner ++ [']'])) = inner := by simp [bareKey]
    rw [hbare]
    exact ⟨fun hd => (hi _ hd).2 rfl, fun hb => (hi _ hb.2).1 rfl⟩
  | @unclosed inner hi hr =>
    have hlast : inner.getLast? ≠ some ']' := fun hl => (hi _ (List.mem_of_getLast? hl)).1 rfl
    have hbare : bareKey ('[' :: inner) = '[' :: inner := by simp [bareKey, hlast]
    rw [hbare]
    refine ⟨fun hd => ?_, fun hb => ?_⟩
    · exact (hi _ ((List.mem_cons.1 hd).resolve_left (by decide))).2 rfl
    · exact (hi _ ((List.mem_cons.1 hb.2).resolve_left (by decide))).1 rfl
  | @plain c inner hc hb hi hr =>
    by_cases hdot : c = '.'
    · have hbare : bareKey (c :: inner) = inner := by simp [bareKey, hdot]
      rw [hbare]
      exact ⟨fun hd => (hi _ hd).1 rfl, fun hb => (hi _ hb.1).2 rfl⟩
    · have hbare : bareKey (c :: inner) = c :: inner := by simp [bareKey, hdot, hb]
      rw [hbare]
      refine ⟨fun hd => ?_, fun ho => ?_⟩
      · exact (hi _ ((List.mem_cons.1 hd).resolve_left fun h => hdot h.symm)).1 rfl
      · exact (hi _ ((List.mem_cons.1 ho.1).resolve_left fun h => hb h.symm)).2 rfl

namespace Name

variable {n : Name} {ks : List Key}

def ofKeys (ks : List Key) : Name := ⟨ks.flatMap Key.written⟩

theorem head_ofKeys (ks : List Key) : ∀ c ∈ (ofKeys ks).chars.head?, c = '.' ∨ c = '[' := by
  cases ks with
  | nil => exact nofun
  | cons k ks =>
    obtain ⟨d, ds, hk, hmark⟩ := k.head_written
    intro c hc
    rw [ofKeys, List.flatMap_cons, hk, List.cons_append, List.head?_cons] at hc
    rwa [← Option.some.inj hc]

theorem spans_ofKeys (h : ∀ k ∈ ks, k.IsWritable) :
    spans (ofKeys ks).chars = ks.map Key.written := by
  induction ks with
  | nil => exact spans_of_nil rfl
  | cons k ks ih =>
    have htext : (ofKeys (k :: ks)).chars = k.written ++ (ofKeys ks).chars := List.flatMap_cons
    have hspan := Key.isSpan_written (h k List.mem_cons_self) (head_ofKeys ks)
    rw [htext, spans_append hspan, ih fun l hl => h l (List.mem_cons_of_mem _ hl), List.map_cons]

theorem keys_ofKeys (h : ∀ k ∈ ks, k.IsWritable) : (ofKeys ks).keys = ks := by
  have hbegins : (ofKeys ks).Begins := by
    intro he
    rcases head_ofKeys ks _ he with hc | hc <;> cases hc
  rw [keys_eq hbegins, spans_ofKeys h, List.map_map]
  exact (List.map_congr_left fun k _ => k.keyIn_written).trans (List.map_id ks)

theorem isWritable_of_mem_keys {k : Key} (h : k ∈ n.keys) : k.IsWritable := by
  by_cases hb : n.Begins
  · rw [keys_eq hb] at h
    obtain ⟨a, ha, rfl⟩ := List.mem_map.1 h
    obtain ⟨r, hspan⟩ := isSpan_of_mem_spans ha
    exact isWritable_keyIn hspan
  · rw [(keys_of_not_begins hb).1] at h
    obtain rfl := List.mem_singleton.1 h
    decide

/-- The lists of keys of names are those of keys that can be written, and the name of such a list
has no other keys. So to write the keys of a name anew gives a spelling of that name. -/
theorem keys_correspond (n : Name) (ks : List Key) :
    (∀ k ∈ n.keys, k.IsWritable) ∧ ((ofKeys ks).keys = ks ↔ ∀ k ∈ ks, k.IsWritable) ∧
      (ofKeys n.keys).Same n := by
  have hkeys : ∀ k ∈ n.keys, k.IsWritable := fun k hk => isWritable_of_mem_keys hk
  refine ⟨hkeys, ⟨fun h k hk => ?_, keys_ofKeys⟩, keys_ofKeys hkeys⟩
  rw [← h] at hk
  exact isWritable_of_mem_keys hk

/-- Brackets that a dot tears apart stay in the keys; a key can be empty or begin with an equals
sign. -/
theorem torn_keys_correspond :
    (ofKeys (ofString "a[b.c]").keys).Same (ofString "a[b.c]") ∧
      (ofKeys ["a", "[b", "c]", "", "=x"]).text = ".a[[b].c]..=x" ∧
      (ofKeys ["a", "[b", "c]", "", "=x"]).keys = ["a", "[b", "c]", "", "=x"] := by
  obtain ⟨-, hkeys, hsame⟩ := keys_correspond (ofString "a[b.c]") ["a", "[b", "c]", "", "=x"]
  exact ⟨hsame, by decide, hkeys.2 (by decide)⟩

end Name

end WebForm
