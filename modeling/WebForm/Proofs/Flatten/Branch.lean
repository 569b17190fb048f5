import Mathlib
import WebForm.Proofs.Flatten.Name
import WebForm.Proofs.Run.Dict
import WebForm.Proofs.Run.List
import WebForm.Proofs.Run.Pair
import WebForm.Proofs.Run.Record
import WebForm.Proofs.Splitting

/-!
# Fields in branches

What is submitted for a form with parts comes in branches, one for each part: all names of a branch
go on from one key. The form finds its parts again by their keys.
-/
namespace WebForm

/-- A text and the keys that lead to it. -/
structure Placed where
  keys : List Key
  text : String

namespace Placed

def under (k : Key) (p : Placed) : Placed := { p with keys := k :: p.keys }

def Sound (p : Placed) : Prop := ∀ k ∈ p.keys, k.Sound

def field (p : Placed) : Field := .value (.ofText (keyPath p.keys) p.text)

def fieldFrom (b : List Char) (p : Placed) : Field := .value ⟨.along b p.keys, p.text⟩

theorem field_eq {p : Placed} (h : p.Sound) : p.field = p.fieldFrom [] := by
  rw [field, fieldFrom, ValueField.ofText, View.ofName_keyPath h]

end Placed

/-- All that is placed below one key. -/
structure Branch where
  key : Key
  placed : List Placed

namespace Branch

def Sound (r : Branch) : Prop := r.key.Sound ∧ ∀ p ∈ r.placed, p.Sound

def fields (b : List Char) (r : Branch) : List Field :=
  r.placed.map fun p => (p.under r.key).fieldFrom b

def inner (b : List Char) (r : Branch) : List Field :=
  r.placed.map (Placed.fieldFrom (b ++ r.key.marked))

def spread (rs : List Branch) : List Placed := rs.flatMap fun r => r.placed.map (Placed.under r.key)

variable {b : List Char} {r : Branch} {rs : List Branch} {f : Field}

theorem map_spread (b : List Char) (rs : List Branch) :
    (spread rs).map (Placed.fieldFrom b) = rs.flatMap (fields b) := by
  rw [spread, List.map_flatMap]
  refine List.flatMap_congr fun r _ => ?_
  rw [List.map_map]
  rfl

theorem spread_sound (h : ∀ r ∈ rs, r.Sound) : ∀ p ∈ spread rs, p.Sound := by
  intro p hp
  obtain ⟨r, hr, hp⟩ := List.mem_flatMap.1 hp
  obtain ⟨q, hq, rfl⟩ := List.mem_map.1 hp
  intro k hk
  rcases List.mem_cons.1 hk with rfl | hk
  · exact (h r hr).1
  · exact (h r hr).2 q hq k hk

theorem keyText_of_mem (hf : f ∈ r.fields b) : f.name.keyText = r.key := by
  obtain ⟨p, -, rfl⟩ := List.mem_map.1 hf
  exact View.keyText_along b r.key p.keys

theorem key_of_mem (h : r.Sound) (hf : f ∈ r.fields b) : f.name.key? = some r.key := by
  obtain ⟨p, -, rfl⟩ := List.mem_map.1 hf
  exact View.key_along h.1.1

theorem map_shift (h : r.Sound) : (r.fields b).map Field.shift = r.inner b := by
  rw [fields, inner, List.map_map]
  refine List.map_congr_left fun p hp => ?_
  have hname : (View.along b (r.key :: p.keys)).shift = .along (b ++ r.key.marked) p.keys :=
    View.shift_along (h.2 p hp)
  change Field.value ⟨(View.along b (r.key :: p.keys)).shift, p.text⟩ = _
  rw [hname]
  rfl

theorem fields_eq_nil : r.fields b = [] ↔ r.placed = [] := List.map_eq_nil_iff

theorem inner_eq_nil : r.inner b = [] ↔ r.placed = [] := List.map_eq_nil_iff

theorem filter_branches {q : Field → Bool} {q' : Key → Bool}
    (hq : ∀ r ∈ rs, ∀ f ∈ r.fields b, q f = q' r.key) :
    (rs.flatMap (fields b)).filter q = (rs.filter (q' ·.key)).flatMap (fields b) := by
  induction rs with
  | nil => rfl
  | cons r rs ih =>
    have ih := ih fun s hs => hq s (List.mem_cons_of_mem _ hs)
    have hr := hq r List.mem_cons_self
    rw [List.flatMap_cons, List.filter_append, ih]
    by_cases hk : q' r.key = true
    · have hall : (r.fields b).filter q = r.fields b :=
        List.filter_eq_self.2 fun f hf => (hr f hf).trans hk
      rw [hall, List.filter_cons, if_pos hk, List.flatMap_cons]
    · have hnone : (r.fields b).filter q = [] :=
        List.filter_eq_nil_iff.2 fun f hf => by rw [hr f hf]; exact hk
      rw [hnone, List.filter_cons, if_neg hk, List.nil_append]

theorem handed_branches {q : Field → Bool} {q' : Key → Bool} (h : ∀ r ∈ rs, r.Sound)
    (hq : ∀ r ∈ rs, ∀ f ∈ r.fields b, q f = q' r.key) :
    handed q (rs.flatMap (fields b)) = (rs.filter (q' ·.key)).flatMap (inner b) := by
  rw [handed, filter_branches hq, List.map_flatMap]
  exact List.flatMap_congr fun r hr => map_shift (h r (List.mem_filter.1 hr).1)

theorem filter_key (hn : (rs.map key).Nodup) (hr : r ∈ rs) :
    rs.filter (fun s => decide (s.key = r.key)) = [r] := by
  induction rs with
  | nil => cases hr
  | cons s rs ih =>
    obtain ⟨hs, hn⟩ := List.nodup_cons.1 hn
    rcases List.mem_cons.1 hr with rfl | hr
    · have hnone : rs.filter (fun s => decide (s.key = r.key)) = [] := by
        refine List.filter_eq_nil_iff.2 fun t ht => ?_
        have hne : t.key ≠ r.key := fun hk => hs (hk ▸ List.mem_map_of_mem ht)
        simpa using hne
      rw [List.filter_cons_of_pos (by simp), hnone]
    · have hne : s.key ≠ r.key := fun hk => hs (hk ▸ List.mem_map_of_mem hr)
      rw [List.filter_cons_of_neg (by simpa using hne), ih hn hr]

section List

theorem pieces_branches (h : ∀ r ∈ rs, r.Sound) (hne : ∀ r ∈ rs, r.placed ≠ [])
    (hc : rs.IsChain fun r s => r.key ≠ s.key) :
    pieces (rs.flatMap (fields b)) = rs.map (inner b) := by
  have hjoins {r s : Branch} (hr : r.Sound) (hs : s.Sound) {f g : Field} (hf : f ∈ r.fields b)
      (hg : g ∈ s.fields b) : f.joins g = decide (r.key = s.key) := by
    rw [Field.joins, key_of_mem hr hf, key_of_mem hs hg]
    by_cases hk : r.key = s.key <;> simp [hk]
  have hsplit : (rs.map (fields b)).flatten.splitBy Field.joins = rs.map (fields b) := by
    refine List.splitBy_flatten ?_ ?_ ?_
    · intro hmem
      obtain ⟨r, hr, hnil⟩ := List.mem_map.1 hmem
      exact hne r hr (fields_eq_nil.1 hnil)
    · intro g hg
      obtain ⟨r, hr, rfl⟩ := List.mem_map.1 hg
      refine List.Pairwise.isChain (List.pairwise_of_forall_mem_list fun f hf g hg => ?_)
      rw [hjoins (h r hr) (h r hr) hf hg]
      exact decide_eq_true rfl
    · rw [List.isChain_map]
      refine List.IsChain.imp_of_mem_imp (fun r s hr hs hrs => ?_) hc
      have hr' : r.fields b ≠ [] := fun hnil => hne r hr (fields_eq_nil.1 hnil)
      have hs' : s.fields b ≠ [] := fun hnil => hne s hs (fields_eq_nil.1 hnil)
      refine ⟨hr', hs', ?_⟩
      rw [hjoins (h r hr) (h s hs) (List.getLast_mem hr') (List.head_mem hs')]
      exact decide_eq_false hrs
  rw [pieces, List.flatMap_def, hsplit, List.map_map]
  exact List.map_congr_left fun r hr => map_shift (h r hr)

end List

section Dict

def Single (r : Branch) : Prop := ':' ∉ r.key.toList

theorem target_of_mem (h : r.Sound) (hr : r.Single) (hf : f ∈ r.fields b) :
    f.target = .entry r.key := by
  have hindices : r.key.indices = [r.key] := by
    rw [Key.indices, Text.splitOn_of_notMem hr, List.map_singleton, String.ofList_toList]
  rw [Field.target, key_of_mem h hf, DictTarget.ofKey, Option.map_some, hindices]
  rfl

theorem foldl_enter {is : List String} {i : String} {fs : List Field} (hi : i ∉ is) (hne : fs ≠ [])
    (hfs : ∀ f ∈ fs, f.target = .entry i) : fs.foldl enter is = is ++ [i] := by
  induction fs using List.reverseRecOn with
  | nil => exact absurd rfl hne
  | append_singleton fs f ih =>
    have hf : f.target.index? = some i := by rw [hfs f (by simp)]; rfl
    rw [List.foldl_append]
    by_cases hnil : fs = []
    · subst hnil
      simp [enter, hf, hi]
    · rw [ih hnil fun g hg => hfs g (List.mem_append_left _ hg)]
      simp [enter, hf]

theorem entered_branches (h : ∀ r ∈ rs, r.Sound) (hs : ∀ r ∈ rs, r.Single)
    (hne : ∀ r ∈ rs, r.placed ≠ []) (hn : (rs.map key).Nodup) :
    entered (rs.flatMap (fields b)) = rs.map key := by
  have hfold (is : List String) (his : ∀ r ∈ rs, r.key ∉ is) :
      (rs.flatMap (fields b)).foldl enter is = is ++ rs.map key := by
    induction rs generalizing is with
    | nil => simp
    | cons r rs ih =>
      obtain ⟨hr, hn⟩ := List.nodup_cons.1 hn
      have hfields : r.fields b ≠ [] := fun hnil =>
        hne r List.mem_cons_self (fields_eq_nil.1 hnil)
      have hentry := foldl_enter (his r List.mem_cons_self) hfields fun f hf =>
        target_of_mem (h r List.mem_cons_self) (hs r List.mem_cons_self) hf
      rw [List.flatMap_cons, List.foldl_append, hentry,
        ih (fun s hs' => h s (List.mem_cons_of_mem _ hs'))
          (fun s hs' => hs s (List.mem_cons_of_mem _ hs'))
          (fun s hs' => hne s (List.mem_cons_of_mem _ hs')) hn]
      · simp
      · intro s hs'
        have hsr : s.key ≠ r.key := fun hk => hr (hk ▸ List.mem_map_of_mem hs')
        simpa [hsr] using his s (List.mem_cons_of_mem _ hs')
  rw [entered, hfold [] fun _ _ => List.not_mem_nil, List.nil_append]

theorem valueFields_branch (h : ∀ r ∈ rs, r.Sound) (hs : ∀ r ∈ rs, r.Single)
    (hn : (rs.map key).Nodup) (hr : r ∈ rs) :
    valueFields r.key (rs.flatMap (fields b)) = r.inner b := by
  have hq (s : Branch) (hs' : s ∈ rs) (f : Field) (hf : f ∈ s.fields b) :
      f.isValueOf r.key = decide (s.key = r.key) := by
    rw [Field.isValueOf, target_of_mem (h s hs') (hs s hs') hf]
    exact Option.some_beq_some
  have hhanded := @handed_branches b rs _ (fun k => decide (k = r.key)) h hq
  rw [valueFields, hhanded, filter_key hn hr, List.flatMap_singleton]

theorem keyFields_branch (h : ∀ r ∈ rs, r.Sound) (hs : ∀ r ∈ rs, r.Single)
    (hne : ∀ r ∈ rs, r.placed ≠ []) (hn : (rs.map key).Nodup) (hr : r ∈ rs) :
    keyFields r.key (rs.flatMap (fields b)) = [.value (.nameless r.key)] := by
  have htarget (f : Field) (hf : f ∈ rs.flatMap (fields b)) : ∃ i, f.target = .entry i := by
    obtain ⟨s, hs', hf⟩ := List.mem_flatMap.1 hf
    exact ⟨s.key, target_of_mem (h s hs') (hs s hs') hf⟩
  have hentered : r.key ∈ entered (rs.flatMap (fields b)) := by
    rw [entered_branches h hs hne hn]
    exact List.mem_map_of_mem hr
  obtain ⟨o, ho⟩ := opener_some hentered
  obtain ⟨i, hi⟩ := htarget o (List.mem_of_find?_eq_some ho)
  have hkeys : handed (Field.isKeyOf r.key) (rs.flatMap (fields b)) = [] := by
    rw [handed, List.map_eq_nil_iff, List.filter_eq_nil_iff]
    intro f hf
    obtain ⟨j, hj⟩ := htarget f hf
    simp [Field.isKeyOf, hj, DictTarget.toKey?]
  rw [keyFields, ho, hkeys, Option.any_some, hi]
  rfl

end Dict

end Branch

end WebForm
