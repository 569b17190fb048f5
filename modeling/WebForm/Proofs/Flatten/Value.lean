import Mathlib
import WebForm.Proofs.Flatten.Branch
import WebForm.Proofs.Numerals

/-!
# Values as fields

A value that is made of texts, whole numbers and truth values can be written out as fields, one for
each of these, with names that lead to them.
-/
namespace WebForm

def Value.asKey : Value → Key
  | .text k => k
  | _ => ""

mutual
/-- The texts that a value is written as. -/
def Value.placed (s : Schema) : Value → List Placed
  | .text t => [⟨[], t⟩]
  | .int i => [⟨[], toString i⟩]
  | .bool b => [⟨[], if b then "true" else "false"⟩]
  | .list vs | .tuple vs => Branch.spread (itemBranches s 0 vs)
  | .dict es => Branch.spread (entryBranches s es)
  | .record t slots => Branch.spread (slotBranches s (partsOf (s.declaration t)).1 slots)
  | _ => []

def itemBranches (s : Schema) (i : Nat) : List Value → List Branch
  | [] => []
  | v :: vs => ⟨toString i, v.placed s⟩ :: itemBranches s (i + 1) vs

def entryBranches (s : Schema) : List (Value × Value) → List Branch
  | [] => []
  | (k, v) :: es => ⟨k.asKey, v.placed s⟩ :: entryBranches s es

def slotBranches (s : Schema) (ps : List RecordPart) : List (String × Slot Value) → List Branch
  | [] => []
  | (_, x) :: slots =>
    match ps with
    | .member m :: ps => ⟨m.name, slotPlaced s x⟩ :: slotBranches s ps slots
    | .constant _ _ :: ps => slotBranches s ps slots
    | [] => []

def slotPlaced (s : Schema) : Slot Value → List Placed
  | .unset => []
  | .own v | .shared v => v.placed s
end

def Value.fields (s : Schema) (v : Value) : List Field := (v.placed s).map Placed.field

/-- The name of a later member is none of an earlier one. -/
def RecordPart.Apart : RecordPart → RecordPart → Prop
  | .member m, .member n => n.name ∉ m.names
  | _, _ => True

/-- The declared value, if it is written as nothing, or else a value that the fields or their
absence give. -/
def Member.Admits (s : Schema) (m : Member) (x : Slot Value) : Prop :=
  x = m.fallback ∧ x ≠ .unset ∧ slotPlaced s x = [] ∨
    ∃ w, x = .own w ∧ (w.placed s = [] → m.fallback = .unset)

def Filled (s : Schema) : RecordPart → String × Slot Value → Prop
  | .member m, (a, x) => a = m.attr ∧ m.checks = [] ∧ Key.Sound m.name ∧ m.Admits s x
  | .constant a x, slot => slot = (a, x)

/-- Values of a form of texts, whole numbers, truth values, lists, dictionaries, pairs and records,
that can be written out without loss. The constructors have taken the records. -/
inductive Fits (s : Schema) : Form → Value → Prop
  | text {limit : Option Int} {t : String} : Fits s (.leaf (.text limit)) (.text t)
  | integer {i : Int} : (Nat.toDigits 10 i.natAbs).length ≤ digitLimit → Fits s .integer (.int i)
  | boolean {b : Bool} : Fits s .boolean (.bool b)
  | list {item : Form} {vs : List Value} :
    (∀ v ∈ vs, v.placed s ≠ []) → (∀ v ∈ vs, Fits s item v) → Fits s (.list item) (.list vs)
  | dict {limit : Option Int} {value : Form} {es : List (Value × Value)} :
    (∀ e ∈ es, ∃ k : Key, e.1 = .text k ∧ k.Sound ∧ ':' ∉ k.toList) →
    (es.map fun e => e.1.asKey).Nodup → (∀ e ∈ es, e.2.placed s ≠ []) →
    (∀ e ∈ es, Fits s value e.2) → Fits s (.dict (.leaf (.text limit)) value) (.dict es)
  | pair {left right : Form} {v w : Value} :
    Fits s left v → Fits s right w → Fits s (.pair left right) (.tuple [v, w])
  | record {t : RecordType} {ps : List RecordPart} {slots : List (String × Slot Value)} :
    s.declaration t = .ok ps → ps.Pairwise RecordPart.Apart → List.Forall₂ (Filled s) ps slots →
    (∀ m a w, (.member m, (a, .own w)) ∈ ps.zip slots → (w.placed s = [] → m.fallback = .unset) →
      Fits s m.form w) →
    s.objections t slots = [] → Fits s (.record t) (.record t slots)

section Branches

variable {s : Schema} {i : Nat} {r : Branch}

theorem mem_itemBranches {vs : List Value} (h : r ∈ itemBranches s i vs) :
    ∃ j : Nat, ∃ v ∈ vs, r = ⟨toString j, v.placed s⟩ := by
  induction vs generalizing i with
  | nil => cases h
  | cons v vs ih =>
    rcases List.mem_cons.1 h with rfl | h
    · exact ⟨i, v, List.mem_cons_self, rfl⟩
    · obtain ⟨j, w, hw, hr⟩ := ih h
      exact ⟨j, w, List.mem_cons_of_mem _ hw, hr⟩

theorem toString_ne_succ (i : Nat) : toString i ≠ toString (i + 1) := by
  intro h
  have hdigits : Nat.toDigits 10 i = Nat.toDigits 10 (i + 1) := by
    rw [← Nat.toList_repr, ← Nat.toList_repr]
    exact congrArg String.toList h
  exact Nat.ne_add_one i (toDigits_injective hdigits)

theorem sound_toString (i : Nat) : Key.Sound (toString i) := by
  have hlist : (toString i).toList = Nat.toDigits 10 i := Nat.toList_repr
  refine ⟨fun h => ?_, fun c hc => ?_⟩
  · rw [h] at hlist
    exact Nat.toDigits_ne_nil hlist.symm
  · rw [hlist] at hc
    have hdigit := isDigit_of_mem_decimal hc
    constructor
    · rintro rfl
      exact absurd hdigit (by decide)
    · rintro rfl
      exact absurd hdigit (by decide)

theorem isChain_itemBranches (vs : List Value) :
    (itemBranches s i vs).IsChain fun r r' => r.key ≠ r'.key := by
  induction vs generalizing i with
  | nil => exact List.IsChain.nil
  | cons v vs ih =>
    cases vs with
    | nil => exact List.IsChain.singleton _
    | cons w vs => exact List.IsChain.cons_cons (toString_ne_succ i) ih

theorem itemBranches_forall₂ (vs : List Value) :
    List.Forall₂ (fun r v => r.placed = v.placed s) (itemBranches s i vs) vs := by
  induction vs generalizing i with
  | nil => exact .nil
  | cons v vs ih => exact .cons rfl ih

theorem entryBranches_eq (es : List (Value × Value)) :
    entryBranches s es = es.map fun e => ⟨e.1.asKey, e.2.placed s⟩ := by
  induction es with
  | nil => rfl
  | cons e es ih =>
    rcases e with ⟨k, v⟩
    rw [entryBranches, ih]
    rfl

theorem mem_slotBranches {ps : List RecordPart} {slots : List (String × Slot Value)}
    (h : r ∈ slotBranches s ps slots) :
    ∃ m a x, (.member m, (a, x)) ∈ ps.zip slots ∧ r = ⟨m.name, slotPlaced s x⟩ := by
  induction slots generalizing ps with
  | nil => cases h
  | cons slot slots ih =>
    rcases slot with ⟨a, x⟩
    cases ps with
    | nil => cases h
    | cons part ps =>
      cases part with
      | member m =>
        rcases List.mem_cons.1 h with rfl | h
        · exact ⟨m, a, x, List.mem_cons_self, rfl⟩
        · obtain ⟨n, b, y, hy, hr⟩ := ih h
          exact ⟨n, b, y, List.mem_cons_of_mem _ hy, hr⟩
      | constant b y =>
        obtain ⟨n, b, y, hy, hr⟩ := ih h
        exact ⟨n, b, y, List.mem_cons_of_mem _ hy, hr⟩

end Branches

section Sound

variable {s : Schema} {form : Form} {v : Value}

theorem sound_items {vs : List Value} (h : ∀ v ∈ vs, ∀ p ∈ v.placed s, p.Sound) (i : Nat) :
    ∀ r ∈ itemBranches s i vs, r.Sound := by
  intro r hr
  obtain ⟨j, v, hv, rfl⟩ := mem_itemBranches hr
  exact ⟨sound_toString j, h v hv⟩

theorem sound_entries {es : List (Value × Value)}
    (hk : ∀ e ∈ es, ∃ k : Key, e.1 = .text k ∧ k.Sound ∧ ':' ∉ k.toList)
    (h : ∀ e ∈ es, ∀ p ∈ e.2.placed s, p.Sound) : ∀ r ∈ entryBranches s es, r.Sound := by
  intro r hr
  rw [entryBranches_eq] at hr
  obtain ⟨e, he, rfl⟩ := List.mem_map.1 hr
  obtain ⟨k, hkey, hsound, -⟩ := hk e he
  refine ⟨?_, h e he⟩
  rw [hkey]
  exact hsound

theorem sound_slots {ps : List RecordPart} {slots : List (String × Slot Value)}
    (hfill : List.Forall₂ (Filled s) ps slots)
    (h : ∀ m a w, (.member m, (a, .own w)) ∈ ps.zip slots →
      (w.placed s = [] → m.fallback = .unset) → ∀ p ∈ w.placed s, p.Sound) :
    ∀ r ∈ slotBranches s ps slots, r.Sound := by
  intro r hr
  obtain ⟨m, a, x, hx, rfl⟩ := mem_slotBranches hr
  obtain ⟨-, -, hsound, hadmits⟩ := List.forall₂_zip hfill hx
  refine ⟨hsound, ?_⟩
  rcases hadmits with ⟨-, -, hnil⟩ | ⟨w, rfl, hw⟩
  · intro p hp
    have hp : p ∈ slotPlaced s x := hp
    rw [hnil] at hp
    cases hp
  · exact h m a w hx hw

/-- All keys on the way to the texts of a value can be read back. -/
theorem placed_sound (h : Fits s form v) : ∀ p ∈ v.placed s, p.Sound := by
  have hroot {t : String} : ∀ p ∈ [(⟨[], t⟩ : Placed)], p.Sound := by
    intro p hp
    obtain rfl := List.mem_singleton.1 hp
    exact fun k hk => absurd hk List.not_mem_nil
  induction h with
  | text => exact hroot
  | integer _ => exact hroot
  | boolean => exact hroot
  | list _ _ ih => exact Branch.spread_sound (sound_items ih 0)
  | dict hk _ _ _ ih => exact Branch.spread_sound (sound_entries hk ih)
  | pair _ _ ihv ihw =>
    refine Branch.spread_sound (sound_items (fun v hv => ?_) 0)
    rcases List.mem_pair.1 hv with rfl | rfl
    · exact ihv
    · exact ihw
  | @record t ps slots hd _ hfill _ _ ih =>
    rw [Value.placed, hd]
    exact Branch.spread_sound (sound_slots hfill ih)

end Sound

end WebForm
