import Mathlib
import WebForm.Proofs.Interference

/-!
# The share of a member

Every member of a record gets the fields that lead to it, whatever becomes of the others.
-/
namespace WebForm

def shareOf (ps : List RecordPart) (j : Nat) (fs : List Field) : List Field :=
  handed (fun f => f.owner ps = some j) fs

variable {ps : List RecordPart} {part : RecordPart} {m : Member} {fs as bs : List Field} {f : Field}
  {j k : Nat}

theorem owner_cons_zero : f.owner (part :: ps) = some 0 ↔ part.isFor f.name.keyText = true := by
  rw [Field.owner, List.findIdx?_cons]
  cases part.isFor f.name.keyText with
  | false => simp
  | true => simp

theorem owner_cons_succ :
    f.owner (part :: ps) = some (j + 1) ↔
      part.isFor f.name.keyText = false ∧ f.owner ps = some j := by
  rw [Field.owner, Field.owner, List.findIdx?_cons]
  cases part.isFor f.name.keyText with
  | false => simp
  | true => simp

theorem shareOf_cons_succ :
    shareOf (part :: ps) (j + 1) fs =
      shareOf ps j (fs.filter fun f => !part.isFor f.name.keyText) := by
  rw [shareOf, shareOf, handed, handed, List.filter_filter]
  congr 2
  funext f
  rw [Bool.eq_iff_iff]
  simp [owner_cons_succ, and_comm]

theorem shares_eq : shares ps fs = ps.mapIdx fun j part => (part, shareOf ps j fs) := by
  induction ps generalizing fs with
  | nil => rfl
  | cons part ps ih =>
    rw [List.mapIdx_cons]
    simp only [shareOf_cons_succ, ← ih]
    have hzero : shareOf (part :: ps) 0 fs =
        handed (fun f => part.isFor f.name.keyText) fs := by
      simp only [shareOf, owner_cons_zero, Bool.decide_eq_true]
    rw [hzero]
    cases part with
    | constant a x =>
      simp [shares, RecordPart.isFor, handed]
    | member m => rfl

theorem forall₂_shares {β : Type} {R : RecordPart × List Field → β → Prop} {xs : List β} :
    List.Forall₂ R (shares ps fs) xs ↔
      xs.length = ps.length ∧
        ∀ j part x, ps[j]? = some part → xs[j]? = some x → R (part, shareOf ps j fs) x := by
  rw [List.forall₂_iff_get, shares_eq]
  refine and_congr (by rw [List.length_mapIdx, eq_comm]) ?_
  constructor
  · intro h j part x hpart hx
    obtain ⟨hj, rfl⟩ := List.getElem?_eq_some_iff.1 hpart
    obtain ⟨hj', rfl⟩ := List.getElem?_eq_some_iff.1 hx
    simpa using h j (by simpa using hj) hj'
  · intro h j hj hj'
    have hpart := List.getElem?_eq_getElem (by simpa using hj : j < ps.length)
    simpa using h j _ _ hpart (List.getElem?_eq_getElem hj')

theorem shares_forall₂ {gs : List Field}
    {R : RecordPart × List Field → RecordPart × List Field → Prop}
    (h : ∀ j part, ps[j]? = some part → R (part, shareOf ps j fs) (part, shareOf ps j gs)) :
    List.Forall₂ R (shares ps fs) (shares ps gs) := by
  rw [forall₂_shares, shares_eq, List.length_mapIdx]
  refine ⟨rfl, ?_⟩
  intro j part x hpart hx
  rw [List.getElem?_mapIdx, hpart, Option.map_some] at hx
  obtain rfl := Option.some.inj hx
  exact h j part hpart

theorem shareOf_append : shareOf ps j (as ++ bs) = shareOf ps j as ++ shareOf ps j bs :=
  handed_append _ as bs

theorem shareOf_insert (h : f.owner ps = some j) :
    shareOf ps j (as ++ f :: bs) = shareOf ps j as ++ f.shift :: shareOf ps j bs := by
  rw [shareOf, handed_append, ← List.singleton_append, handed_append, handed_single,
    if_pos (decide_eq_true h)]
  rfl

theorem shareOf_other (h : f.owner ps ≠ some j) :
    shareOf ps j (as ++ f :: bs) = shareOf ps j (as ++ bs) := by
  rw [shareOf, handed_append, ← List.singleton_append, handed_append, handed_single,
    if_neg (by simpa using h), List.nil_append, ← handed_append]
  rfl

end WebForm
