import Mathlib
import WebForm.Proofs.Routes

/-!
# Fields that meet

Two fields meet if a form without lists leads them to the same leaf. They may be moved about among
the others as long as those that meet stay in order.
-/
namespace WebForm

namespace Schema

variable {s : Schema}

/-- The two fields come to the same leaf. -/
inductive Meets (s : Schema) : Form → Field → Field → Prop
  | leaf {l f g} : Meets s (.leaf l) f g
  | optional {item f g} : Meets s item f g → Meets s (.optional item) f g
  | left {left right f g} : f.isFor "0" = true → g.isFor "0" = true →
    Meets s left f.shift g.shift → Meets s (.pair left right) f g
  | right {left right f g} : f.isFor "1" = true → g.isFor "1" = true →
    Meets s right f.shift g.shift → Meets s (.pair left right) f g
  | key {key value i f g} : f.isKeyOf i = true → g.isKeyOf i = true →
    Meets s key f.shift g.shift → Meets s (.dict key value) f g
  | value {key value i f g} : f.isValueOf i = true → g.isValueOf i = true →
    Meets s value f.shift g.shift → Meets s (.dict key value) f g
  | member {t ps j m f g} : s.declaration t = .ok ps → f.owner ps = some j → g.owner ps = some j →
    ps[j]? = some (.member m) → Meets s m.form f.shift g.shift → Meets s (.record t) f g

variable {form left right key value item : Form} {t : RecordType} {ps : List RecordPart}
  {m : Member} {j : Nat} {i : String} {f g h : Field}

theorem meets_optional : s.Meets (.optional item) f g ↔ s.Meets item f g :=
  ⟨fun h => by cases h; assumption, .optional⟩

theorem isFor_inj {k l : Key} (hk : f.isFor k = true) (hl : f.isFor l = true) : k = l := by
  unfold Field.isFor at hk hl
  exact Option.some.inj ((of_decide_eq_true hk).symm.trans (of_decide_eq_true hl))

theorem meets_left (hf : f.isFor "0" = true) :
    s.Meets (.pair left right) f g ↔ g.isFor "0" = true ∧ s.Meets left f.shift g.shift := by
  constructor
  · intro h
    cases h with
    | left _ hg h => exact ⟨hg, h⟩
    | right hf' _ _ => exact absurd (isFor_inj hf hf') (by decide)
  · exact fun h => .left hf h.1 h.2

theorem meets_right (hf : f.isFor "1" = true) :
    s.Meets (.pair left right) f g ↔ g.isFor "1" = true ∧ s.Meets right f.shift g.shift := by
  constructor
  · intro h
    cases h with
    | right _ hg h => exact ⟨hg, h⟩
    | left hf' _ _ => exact absurd (isFor_inj hf hf') (by decide)
  · exact fun h => .right hf h.1 h.2

theorem not_key_and_value {k : String} (hk : f.isKeyOf k = true) (hv : f.isValueOf i = true) :
    False := by
  unfold Field.isKeyOf at hk
  unfold Field.isValueOf at hv
  cases hf : f.target <;> rw [hf] at hk hv <;> first | cases hk | cases hv

theorem meets_key (hf : f.isKeyOf i = true) :
    s.Meets (.dict key value) f g ↔ g.isKeyOf i = true ∧ s.Meets key f.shift g.shift := by
  constructor
  · intro h
    cases h with
    | @key _ _ k _ _ hf' hg h =>
      unfold Field.isKeyOf at hf hf'
      obtain rfl : k = i := Option.some.inj ((eq_of_beq hf').symm.trans (eq_of_beq hf))
      exact ⟨hg, h⟩
    | value hf' _ _ => exact (not_key_and_value hf hf').elim
  · exact fun h => .key hf h.1 h.2

theorem meets_value (hf : f.isValueOf i = true) :
    s.Meets (.dict key value) f g ↔ g.isValueOf i = true ∧ s.Meets value f.shift g.shift := by
  constructor
  · intro h
    cases h with
    | @value _ _ k _ _ hf' hg h =>
      unfold Field.isValueOf at hf hf'
      obtain rfl : k = i := Option.some.inj ((eq_of_beq hf').symm.trans (eq_of_beq hf))
      exact ⟨hg, h⟩
    | key hf' _ _ => exact (not_key_and_value hf' hf).elim
  · exact fun h => .value hf h.1 h.2

theorem meets_member (hd : s.declaration t = .ok ps) (ho : f.owner ps = some j)
    (hm : ps[j]? = some (.member m)) :
    s.Meets (.record t) f g ↔ g.owner ps = some j ∧ s.Meets m.form f.shift g.shift := by
  constructor
  · intro h
    cases h with
    | member hd' ho' hg hm' h =>
      obtain rfl := Except.ok.inj (hd.symm.trans hd')
      obtain rfl := Option.some.inj (ho.symm.trans ho')
      obtain rfl := RecordPart.member.inj (Option.some.inj (hm.symm.trans hm'))
      exact ⟨hg, h⟩
  · exact fun h => .member hd ho h.1 hm h.2

theorem meets_common (hg : s.Meets form f g) (hh : s.Meets form f h) : s.Meets form g h := by
  induction hg generalizing h with
  | leaf => exact .leaf
  | optional _ ih => exact .optional (ih (meets_optional.1 hh))
  | left hf hg _ ih =>
    obtain ⟨hh, hmeet⟩ := (meets_left hf).1 hh
    exact .left hg hh (ih hmeet)
  | right hf hg _ ih =>
    obtain ⟨hh, hmeet⟩ := (meets_right hf).1 hh
    exact .right hg hh (ih hmeet)
  | key hf hg _ ih =>
    obtain ⟨hh, hmeet⟩ := (meets_key hf).1 hh
    exact .key hg hh (ih hmeet)
  | value hf hg _ ih =>
    obtain ⟨hh, hmeet⟩ := (meets_value hf).1 hh
    exact .value hg hh (ih hmeet)
  | member hd hf hg hm _ ih =>
    obtain ⟨hh, hmeet⟩ := (meets_member hd hf hm).1 hh
    exact .member hd hg hh hm (ih hmeet)

end Schema

section Reorders

variable {s : Schema} {form part : Form} {fs gs : List Field}

/-- The second fields are the first in an order in which those that meet have not changed places. -/
structure Schema.Reorders (s : Schema) (form : Form) (fs gs : List Field) : Prop where
  perm : fs.Perm gs
  order : ∀ f ∈ fs, ∀ meets : Field → Bool, (∀ g, meets g = true ↔ s.Meets form f g) →
    fs.filter meets = gs.filter meets

namespace Schema.Reorders

theorem symm (h : s.Reorders form fs gs) : s.Reorders form gs fs :=
  ⟨h.perm.symm, fun f hf meets hmeets => (h.order f (h.perm.mem_iff.2 hf) meets hmeets).symm⟩

theorem of_iff (h : s.Reorders form fs gs) (hiff : ∀ f g, s.Meets form f g ↔ s.Meets part f g) :
    s.Reorders part fs gs := by
  refine ⟨h.perm, fun f hf meets hmeets => h.order f hf meets fun g => ?_⟩
  rw [hmeets, hiff]

theorem eq_of_meets (h : s.Reorders form fs gs) (hmeet : ∀ f g, s.Meets form f g) : fs = gs := by
  cases fs with
  | nil => exact h.perm.nil_eq
  | cons f fs =>
    have horder := h.order f List.mem_cons_self (fun _ => true) fun g => by simp [hmeet]
    rwa [List.filter_true, List.filter_true] at horder

theorem handed {q : Field → Bool} (h : s.Reorders form fs gs)
    (hq : ∀ f g, q f = true →
      (s.Meets form f g ↔ q g = true ∧ s.Meets part f.shift g.shift)) :
    s.Reorders part (handed q fs) (handed q gs) := by
  refine ⟨(h.perm.filter q).map _, ?_⟩
  intro f' hf' meets hmeets
  obtain ⟨f, hf, hqf, rfl⟩ := mem_handed.1 hf'
  have hfilter (hs : List Field) : (WebForm.handed q hs).filter meets =
      (hs.filter fun g => q g && meets g.shift).map Field.shift := by
    rw [WebForm.handed, List.filter_map, List.filter_filter]
    simp only [Function.comp_def, Bool.and_comm]
  rw [hfilter, hfilter, h.order f hf]
  intro g
  rw [Bool.and_eq_true, hmeets, hq f g hqf]

end Schema.Reorders

def moved (fs : List Field) (σ : Equiv.Perm (Fin fs.length)) : List Field :=
  List.ofFn fun i => fs.get (σ.symm i)

/-- A permutation that keeps the order of any two fields that meet reorders them. -/
theorem Schema.reorders_moved (σ : Equiv.Perm (Fin fs.length))
    (hσ : ∀ i j, i < j → s.Meets form (fs.get i) (fs.get j) → σ i < σ j) :
    s.Reorders form fs (moved fs σ) := by
  have hfs : (List.finRange fs.length).map fs.get = fs := by
    rw [← List.ofFn_eq_map, List.ofFn_get]
  have hmoved : ((List.finRange fs.length).map σ.symm).map fs.get = moved fs σ := by
    rw [moved, List.ofFn_eq_map, List.map_map]
    rfl
  have hperm : (List.finRange fs.length).Perm ((List.finRange fs.length).map σ.symm) := by
    refine (List.perm_ext_iff_of_nodup (List.nodup_finRange _) ?_).2 fun i => ?_
    · exact (List.nodup_finRange _).map σ.symm.injective
    · simp [σ.symm.surjective i]
  constructor
  · have hmap := hperm.map fs.get
    rwa [hfs, hmoved] at hmap
  · intro f hf meets hmeets
    have hsorted : (List.finRange fs.length).filter (meets ∘ fs.get) =
        ((List.finRange fs.length).map σ.symm).filter (meets ∘ fs.get) := by
      refine List.Perm.eq_of_pairwise ?_ ((List.pairwise_lt_finRange _).filter _) ?_
        (hperm.filter _)
      · intro i j _ _ hij hji
        exact absurd hij hji.asymm
      · rw [List.pairwise_filter, List.pairwise_map]
        refine (List.pairwise_lt_finRange _).imp ?_
        intro a b hab ha hb
        by_contra hlt
        have hne : σ.symm b ≠ σ.symm a := fun h => hab.ne (σ.symm.injective h).symm
        have hmeet : s.Meets form (fs.get (σ.symm b)) (fs.get (σ.symm a)) :=
          meets_common ((hmeets _).1 hb) ((hmeets _).1 ha)
        have hba := hσ _ _ (lt_of_le_of_ne (not_lt.1 hlt) hne) hmeet
        rw [Equiv.apply_symm_apply, Equiv.apply_symm_apply] at hba
        exact hab.asymm hba
    rw [← hmoved, List.filter_map, ← hsorted, ← List.filter_map, hfs]

end Reorders

end WebForm
