import Mathlib
import WebForm.Proofs.Depth.Whole
import WebForm.Proofs.Vetting

/-!
# Entries with equal keys

The entries of a dictionary are told apart by their indices, but its items by their keys, and
different indices can be read as one key: `1` and `01` are one integer. Such entries are not
rejected, in strict mode either. They are one item, with the key of the first and the value of the
last of them.
-/
namespace WebForm

/-- The second item is a new one in a dictionary that has the first. -/
def DifferentKeys (a b : Value × Value) : Prop := a.1.sameKey b.1 = false

section Insert

variable {k w : Value} {items kvs : List (Value × Value)} {kv : Value × Value}

theorem insert_new (h : ∀ e ∈ items, DifferentKeys e (k, w)) :
    Value.insert k w items = items ++ [(k, w)] := by
  induction items with
  | nil => rfl
  | cons e items ih =>
    obtain ⟨k', w'⟩ := e
    have hk : k'.sameKey k = false := h _ List.mem_cons_self
    rw [Value.insert, hk, ih fun e he => h e (List.mem_cons_of_mem _ he)]
    rfl

theorem length_insert_le : (Value.insert k w items).length ≤ items.length + 1 := by
  induction items with
  | nil => exact le_rfl
  | cons e items ih =>
    obtain ⟨k', w'⟩ := e
    rw [Value.insert]
    split_ifs
    · exact Nat.le_succ _
    · exact Nat.succ_le_succ ih

theorem different_of_length (h : (Value.insert k w items).length = items.length + 1) :
    ∀ e ∈ items, DifferentKeys e (k, w) := by
  induction items with
  | nil => simp
  | cons e items ih =>
    obtain ⟨k', w'⟩ := e
    rw [Value.insert] at h
    split_ifs at h with hk
    · simp at h
    · intro e he
      rcases List.mem_cons.1 he with rfl | he
      · exact Bool.eq_false_iff.2 hk
      · exact ih (by simpa using h) e he

theorem mem_insert_different (hkv : kv ∈ items) (h : DifferentKeys kv (k, w)) :
    kv ∈ Value.insert k w items := by
  induction items with
  | nil => cases hkv
  | cons e items ih =>
    obtain ⟨k', w'⟩ := e
    rw [Value.insert]
    split_ifs with hk
    · rcases List.mem_cons.1 hkv with rfl | hkv
      · exact absurd (hk.symm.trans h) Bool.noConfusion
      · exact List.mem_cons_of_mem _ hkv
    · rcases List.mem_cons.1 hkv with rfl | hkv
      · exact List.mem_cons_self
      · exact List.mem_cons_of_mem _ (ih hkv)

theorem setAll_cons (items : List (Value × Value)) (kv : Value × Value)
    (kvs : List (Value × Value)) :
    setAll items (kv :: kvs) = setAll (Value.insert kv.1 kv.2 items) kvs := rfl

theorem setAll_append (items as bs : List (Value × Value)) :
    setAll items (as ++ bs) = setAll (setAll items as) bs := List.foldl_append

theorem length_setAll_le : (setAll items kvs).length ≤ items.length + kvs.length := by
  induction kvs generalizing items with
  | nil => exact le_rfl
  | cons kv kvs ih =>
    have hinsert := @length_insert_le kv.1 kv.2 items
    have hrest := @ih (Value.insert kv.1 kv.2 items)
    rw [setAll_cons, List.length_cons]
    omega

theorem setAll_different (h : (items ++ kvs).Pairwise DifferentKeys) :
    setAll items kvs = items ++ kvs := by
  induction kvs generalizing items with
  | nil => exact (List.append_nil items).symm
  | cons kv kvs ih =>
    have hnew : ∀ e ∈ items, DifferentKeys e kv := by
      intro e he
      exact (List.pairwise_append.1 h).2.2 e he kv List.mem_cons_self
    rw [setAll_cons, insert_new hnew, ih (by simpa using h), List.append_assoc,
      List.singleton_append]

theorem different_of_setAll (h : (setAll items kvs).length = items.length + kvs.length) :
    kvs.Pairwise DifferentKeys ∧ ∀ e ∈ items, ∀ kv ∈ kvs, DifferentKeys e kv := by
  induction kvs generalizing items with
  | nil => simp
  | cons kv kvs ih =>
    rw [setAll_cons, List.length_cons] at h
    have hinsert := @length_insert_le kv.1 kv.2 items
    have hrest := @length_setAll_le (Value.insert kv.1 kv.2 items) kvs
    have hnew := @different_of_length kv.1 kv.2 items (by omega)
    rw [insert_new hnew] at h
    obtain ⟨hkvs, hitems⟩ := @ih (items ++ [kv]) (by simp at h ⊢; omega)
    refine ⟨List.pairwise_cons.2 ⟨hitems kv (by simp), hkvs⟩, fun e he => ?_⟩
    intro kv' hkv'
    rcases List.mem_cons.1 hkv' with rfl | hkv'
    · exact hnew e he
    · exact hitems e (List.mem_append_left _ he) kv' hkv'

theorem length_setAll_iff :
    (setAll [] kvs).length = kvs.length ↔ kvs.Pairwise DifferentKeys := by
  constructor
  · intro h
    exact (@different_of_setAll [] kvs (by simpa using h)).1
  · intro h
    rw [setAll_different (by simpa using h), List.nil_append]

theorem mem_setAll_different (hkv : kv ∈ items) (h : ∀ e ∈ kvs, DifferentKeys kv e) :
    kv ∈ setAll items kvs := by
  induction kvs generalizing items with
  | nil => exact hkv
  | cons e kvs ih =>
    apply ih
    · exact mem_insert_different hkv (h e List.mem_cons_self)
    · exact fun e' he' => h e' (List.mem_cons_of_mem _ he')

theorem setAll_keeps {as bs : List (Value × Value)} (ha : ∀ e ∈ as, DifferentKeys e kv)
    (hb : ∀ e ∈ bs, DifferentKeys kv e) : kv ∈ setAll [] (as ++ kv :: bs) := by
  have hnew : ∀ e ∈ setAll [] as, DifferentKeys e kv := by
    intro e he
    obtain ⟨⟨c, hc, hce⟩, -⟩ := mem_setAll he
    have hdiff : c.1.sameKey kv.1 = false := ha c (by simpa using hc)
    rwa [hce] at hdiff
  rw [setAll_append, setAll_cons, insert_new hnew]
  exact mem_setAll_different (by simp) hb

end Insert

variable {fs : List Field} {v : Value}

/-- These are the keys and the values of the indices that the fields address, each made of the
fields of its index alone, in the order in which the indices came up. -/
def Enters (keyOf valueOf : List Field → Outcome Value) (fs : List Field)
    (kvs : List (Value × Value)) : Prop :=
  (∀ f ∈ fs, f.target.index? ≠ none) ∧
    List.Forall₂ (fun i kv => keyOf (keyFields i fs) = .ok kv.1 ∧
      valueOf (valueFields i fs) = .ok kv.2 ∧ kv.1.keyFault? = none) (entered fs) kvs

/-- A dictionary whose keys and values do not fail without an error sets the keys and values of all
indices one after the other, and does not ask whether two of the keys are equal; forms never fail so.
So it has one item for each index exactly if no two are equal, and is made of just these items then.
In any case it has the item of an index whose key no other has. -/
theorem parse_dict_entries :
    (∀ key value : Parser, key.Explains → value.Explains →
        ((Parser.dict key value).run .strict fs = .ok v ↔
          ∃ kvs, Enters (key.run .strict) (value.run .strict) fs kvs ∧
            v = .dict (setAll [] kvs))) ∧
      (∀ (s : Schema) (key value : Form),
        (s.parse (.dict key value) .strict fs = .ok v ↔
          ∃ kvs, Enters (s.parse key .strict) (s.parse value .strict) fs kvs ∧
            v = .dict (setAll [] kvs))) ∧
      ∀ keyOf valueOf kvs, Enters keyOf valueOf fs kvs →
        ((setAll [] kvs).length = (entered fs).length ↔ kvs.Pairwise DifferentKeys) ∧
        (kvs.Pairwise DifferentKeys → setAll [] kvs = kvs) ∧
        ∀ as kv bs, kvs = as ++ kv :: bs → (∀ e ∈ as, DifferentKeys e kv) →
          (∀ e ∈ bs, DifferentKeys kv e) → kv ∈ setAll [] kvs := by
  have henters (keyOf valueOf : List Field → Outcome Value) :
      ((∀ f ∈ fs, f.target.index? ≠ none) ∧ ∃ kvs,
          List.Forall₂ (fun i kv => keyOf (keyFields i fs) = .ok kv.1 ∧
            valueOf (valueFields i fs) = .ok kv.2 ∧ kv.1.keyFault? = none) (entered fs) kvs ∧
          .dict (setAll [] kvs) = v) ↔
        ∃ kvs, Enters keyOf valueOf fs kvs ∧ v = .dict (setAll [] kvs) := by
    constructor
    · rintro ⟨hfs, kvs, hkvs, rfl⟩
      exact ⟨kvs, ⟨hfs, hkvs⟩, rfl⟩
    · rintro ⟨kvs, ⟨hfs, hkvs⟩, rfl⟩
      exact ⟨hfs, kvs, hkvs, rfl⟩
  refine ⟨fun key value hk hv => ?_, fun s key value => ?_, fun keyOf valueOf kvs hkvs => ?_⟩
  · rw [run_dict_eq_ok hk hv, henters]
  · rw [Schema.parse_dict_eq_ok, henters]
  · refine ⟨?_, fun h => ?_, ?_⟩
    · rw [hkvs.2.length_eq, length_setAll_iff]
    · exact setAll_different h
    · rintro as kv bs rfl ha hb
      exact setAll_keeps ha hb

def numbering : Form := .dict .integer .text

def firstText : Field := .value (.ofText "1" "a")
def secondText : Field := .value (.ofText "2" "b")

def paddedText : Field := .value (.ofText "01" "b")

/-- Two indices that are two numbers are two items. -/
theorem numbers_apart :
    Enters (Schema.empty.parse .integer .strict) (Schema.empty.parse .text .strict)
        [firstText, secondText]
        [(.int 1, .text "a"), (.int 2, .text "b")] ∧
      Schema.empty.parse numbering .strict [firstText, secondText] =
        .ok (.dict [(.int 1, .text "a"), (.int 2, .text "b")]) := by
  have henters : Enters (Schema.empty.parse .integer .strict) (Schema.empty.parse .text .strict)
        [firstText, secondText]
      [(.int 1, .text "a"), (.int 2, .text "b")] := by
    have hentered : entered [firstText, secondText] = ["1", "2"] := by cbv
    refine ⟨by decide, ?_⟩
    rw [hentered]
    exact .cons ⟨by cbv, by cbv, rfl⟩ (.cons ⟨by cbv, by cbv, rfl⟩ .nil)
  have hdifferent : DifferentKeys (.int 1, .text "a") (.int 2, .text "b") := by
    unfold DifferentKeys
    cbv
  obtain ⟨-, hparse, hmore⟩ := @parse_dict_entries [firstText, secondText]
    (.dict [(.int 1, .text "a"), (.int 2, .text "b")])
  obtain ⟨-, hkept, -⟩ := hmore _ _ _ henters
  refine ⟨henters, (hparse _ _ _).2 ⟨_, henters, ?_⟩⟩
  rw [hkept (by simp [hdifferent])]

/-- Two indices that are one number are one item, and the first text is gone. -/
theorem numbers_merged :
    Schema.empty.parse numbering .strict [firstText, paddedText] =
        .ok (.dict [(.int 1, .text "b")]) ∧
      [(Value.int 1, Value.text "b")].length ≠ (entered [firstText, paddedText]).length := by
  have hentered : entered [firstText, paddedText] = ["1", "01"] := by cbv
  refine ⟨by cbv, ?_⟩
  rw [hentered]
  decide

end WebForm
