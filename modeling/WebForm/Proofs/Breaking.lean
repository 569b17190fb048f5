import Mathlib
import WebForm.Proofs.Parts

/-!
# What breaks work on a form

Work on a form is to end in a value or in errors. Two things break it: a dictionary gets a key that
cannot be one, or an upload is to be stored under a name that it does not have. Nothing that catches
errors catches these, so they come up from any depth. Sturdy forms have no such dictionaries and no
such uploads.
-/
namespace WebForm

/-- The first form makes a value of the errors of the second. -/
inductive Form.Catches : Form → Form → Prop
  | optional {item} : Catches (.optional item) item
  | result {item} : Catches (.result item) item
  | contextual {item} : Catches (.contextual item) item

/-- The second job is done within the first, also where its errors are caught. -/
inductive Schema.Within (s : Schema) : Job → Job → Prop
  | part {J K} : s.Part J K → Within s J K
  | caught {form item mode fs} : form.Catches item →
    Within s ⟨form, mode, fs⟩ ⟨item, mode, fs⟩

/-- The fault comes up somewhere in the job. -/
inductive Schema.Breaks (s : Schema) : Job → Fault → Prop
  /-- Key and value of an entry are there, but the key can be none. -/
  | key {key value mode fs i k v f} : i ∈ entered fs →
    s.parse key mode (keyFields i fs) = .ok k → s.parse value mode (valueFields i fs) = .ok v →
    k.keyFault? = some f → Breaks s ⟨.dict key value, mode, fs⟩ f
  /-- The first field of an upload cannot be stored. -/
  | upload {r mode g fs f} : (Leaf.upload r).rules.read g = .error (.fault f) →
    Breaks s ⟨.leaf (.upload r), mode, g :: fs⟩ f
  | within {J K f} : s.Within J K → Breaks s K f → Breaks s J f

variable {s : Schema} {J K : Job} {form item : Form} {mode : Mode} {fs : List Field} {f : Fault}
  {r : Except FormErrors Value} {d : Nat}

section Breaks

/-- A form that catches errors ends as its item does, but in a value. -/
theorem Form.Catches.yields (h : form.Catches item) (s : Schema) (d : Nat) (mode : Mode)
    (fs : List Field) : ∃ g : Except FormErrors Value → Value, ∀ r,
      (s.parser d form).Yields mode fs r ↔
        ∃ x, (s.parser d item).Yields mode fs x ∧ r = .ok (g x) := by
  cases h with
  | optional => exact ⟨orNone, fun r => by rw [Schema.parser_optional, yields_optional]⟩
  | result => exact ⟨orErrors, fun r => by rw [Schema.parser_result, yields_result]⟩
  | contextual => exact ⟨_, fun r => by rw [Schema.parser_contextual, yields_contextual]⟩

namespace Schema

theorem Within.ends (h : s.Within J K) (hJ : J.Ends s r) : ∃ x, K.Ends s x := by
  cases h with
  | part h =>
    obtain ⟨x, hx, -⟩ := h.ends hJ
    exact ⟨x, hx⟩
  | caught h =>
    obtain ⟨d, hJ⟩ := hJ
    obtain ⟨g, hg⟩ := h.yields s d _ _
    obtain ⟨x, hx, -⟩ := (hg r).1 hJ
    exact ⟨x, d, hx⟩

/-- What breaks a job keeps it from every end. -/
theorem Breaks.not_ends (h : s.Breaks J f) (r : Except FormErrors Value) : ¬J.Ends s r := by
  induction h generalizing r with
  | @key key value mode fs i k v f hi hk hv hf =>
    rintro ⟨d, hJ⟩
    rw [parser_dict, yields_dict] at hJ
    obtain ⟨ds, hds, -⟩ := hJ
    obtain ⟨x, -, -, hkey, hvalue, hgood⟩ := forall₂_left hds _ hi
    have hxk : x.key = .ok k := by
      have hend := parse_of_yields hkey
      rw [hk] at hend
      exact (Except.ok.inj hend).symm
    have hxv : x.value = .ok v := by
      have hend := parse_of_yields hvalue
      rw [hv] at hend
      exact (Except.ok.inj hend).symm
    have hnone := hgood (k, v) (by rw [EntryEnd.item?, hxk, hxv, Option.mem_def])
    rw [hf] at hnone
    cases hnone
  | @upload rules mode g fs f hr =>
    rintro ⟨d, hJ⟩
    rw [parser_leaf] at hJ
    obtain ⟨st, hst, -⟩ := Parser.yields_iff.1 hJ
    have htaken := @reach_leaf_taken (Leaf.upload rules).rules mode (g :: fs)
    rw [hst, List.foldlM_cons, LeafRules.settle, hr] at htaken
    cases htaken
  | within h _ ih =>
    intro hJ
    obtain ⟨x, hx⟩ := h.ends hJ
    exact ih x hx

theorem Breaks.fields_ne_nil (h : s.Breaks J f) : J.fields ≠ [] := by
  have hentered {fs : List Field} {i : String} (hi : i ∈ entered fs) : fs ≠ [] := by
    rintro rfl
    cases hi
  induction h with
  | key hi _ _ _ => exact hentered hi
  | upload _ => exact List.cons_ne_nil _ _
  | within h _ ih =>
    cases h with
    | part h =>
      cases h with
      | item hg =>
        rintro rfl
        cases hg
      | key hi => exact hentered hi
      | value hi => exact hentered hi
      | left | right =>
        rintro rfl
        exact ih rfl
      | member _ hm hne =>
        rintro rfl
        obtain ⟨g, hg⟩ := List.exists_mem_of_ne_nil _ hne
        obtain ⟨f, hf, -⟩ := mem_of_share hm g hg
        cases hf
      | forced => exact ih
    | caught _ => exact ih

end Schema

end Breaks

section Sturdy

/-- Whether an upload that has to be stored can do without a name. -/
def Storage.isNameless (s : Storage) : Bool :=
  !(s.directory.isSome && s.keepFileName) && !s.keepExtensions

def Form.makesKeys : Form → Bool
  | .leaf _ | .contextual _ => true
  | .pair l r => l.makesKeys && r.makesKeys
  | .optional i | .result i | .forced _ i => i.makesKeys
  | .list _ | .dict _ _ | .record _ | .unimplemented => false

/-- The dictionaries in the form get keys, and the uploads need no names. -/
def Form.isSturdy : Form → Bool
  | .leaf (.upload r) => r.storage.isNameless
  | .leaf _ | .record _ | .unimplemented => true
  | .dict k v => k.makesKeys && k.isSturdy && v.isSturdy
  | .pair l r => l.isSturdy && r.isSturdy
  | .list i | .optional i | .result i | .forced _ i | .contextual i => i.isSturdy

/-- The form is sturdy, and so are those of all members of all records that it leads to. -/
def Schema.Sturdy (s : Schema) (form : Form) : Prop :=
  form.isSturdy = true ∧ ∀ t ∈ form.records, ∀ u, Relation.ReflTransGen s.Refers t u →
    ∀ ps m, s.declaration u = .ok ps → .member m ∈ ps → m.form.isSturdy = true

variable {l : Leaf} {g : Field} {v : Value}

theorem ofText_eq_ok {ε : Type} {kind : ε → Kind Value} {read : String → Except ε Value}
    (h : (LeafRules.ofText kind read).read g = .ok v) : ∃ text, read text = .ok v := by
  cases g with
  | value g => exact ⟨g.value, mapError_eq_ok.1 h⟩
  | data g => cases h

theorem read_boolean (g : Field) : Leaf.boolean.rules.read g =
    (LeafRules.ofText (.unreadable .bool) readTruth).read g := by
  cases g <;> rfl

theorem leaf_keyFault (h : l.rules.read g = .ok v) : v.keyFault? = none := by
  cases l with
  | text limit =>
    cases g with
    | value g =>
      obtain rfl := Except.ok.inj h
      rfl
    | data g =>
      obtain ⟨bs, -, h⟩ := bind_eq_ok.1 h
      split at h
      · obtain rfl := Except.ok.inj h
        rfl
      · cases h
  | octets limit =>
    cases g with
    | value g =>
      obtain rfl := Except.ok.inj h
      rfl
    | data g =>
      obtain ⟨bs, -, rfl⟩ := map_eq_ok.1 h
      rfl
  | integer signed bits | address version | date | time | dateTime =>
    rw [Leaf.rules] at h
    obtain ⟨text, h⟩ := ofText_eq_ok h
    obtain ⟨x, -, rfl⟩ := map_eq_ok.1 h
    rfl
  | float =>
    rw [Leaf.rules] at h
    obtain ⟨text, h⟩ := ofText_eq_ok h
    simp only [readDecimal] at h
    split_ifs at h
    split at h
    · obtain rfl := Except.ok.inj h
      rfl
    · cases h
  | boolean =>
    rw [read_boolean] at h
    obtain ⟨text, h⟩ := ofText_eq_ok h
    simp only [readTruth] at h
    split_ifs at h <;> obtain rfl := Except.ok.inj h <;> rfl
  | choice e =>
    rw [Leaf.rules] at h
    obtain ⟨text, h⟩ := ofText_eq_ok h
    split at h
    · next w hw =>
      obtain rfl := Except.ok.inj h
      obtain ⟨m, -, rfl⟩ := Option.map_eq_some_iff.1 hw
      rfl
    · cases h
  | upload r =>
    cases g with
    | value g =>
      obtain ⟨x, -, rfl⟩ := map_eq_ok.1 h
      rfl
    | data g =>
      obtain ⟨x, -, rfl⟩ := map_eq_ok.1 h
      rfl
  | nothing => cases g <;> cases h

theorem keyFault_of_taken {t : Option (Except FormErrors Value)}
    (h : fs.foldlM (l.rules.settle mode) t = .ok (some (.ok v)))
    (ht : ∀ w, t = some (.ok w) → w.keyFault? = none) : v.keyFault? = none := by
  induction fs generalizing t with
  | nil => exact ht v (Except.ok.inj h)
  | cons g fs ih =>
    rw [List.foldlM_cons] at h
    obtain ⟨t', ht', h⟩ := bind_eq_ok.1 h
    refine ih h fun w hw => ?_
    subst hw
    cases t with
    | some x => exact ht w (Except.ok.inj ht')
    | none =>
      rw [LeafRules.settle] at ht'
      rcases hr : l.rules.read g with (es | f) | w' <;> rw [hr] at ht'
      · simp only [takenOf, Except.ok.injEq] at ht'
        split_ifs at ht'
        cases ht'
      · cases ht'
      · obtain rfl := Except.ok.inj (Option.some.inj (Except.ok.inj ht'))
        exact leaf_keyFault hr

theorem keyFault_of_makesKeys (hform : form.makesKeys = true)
    (h : (s.parser d form).run mode fs = .ok v) : v.keyFault? = none := by
  induction form generalizing mode fs v with
  | leaf l =>
    rw [Schema.parser_leaf] at h
    obtain ⟨t, ht, ⟨rfl, -⟩ | ⟨-, -, hv⟩⟩ := run_leaf_eq_ok.1 h
    · exact keyFault_of_taken ht nofun
    · -- only truths have something for a missing field
      cases l <;> cases hv
      rfl
  | pair left right ihl ihr =>
    obtain ⟨hl, hr⟩ := Bool.and_eq_true_iff.1 hform
    rw [Schema.parser_pair] at h
    obtain ⟨-, a, b, ha, hb, rfl⟩ := run_pair_eq_ok.1 h
    simp [Value.keyFault?, keyFaultIn, ihl hl ha, ihr hr hb]
  | optional item ih =>
    rw [Schema.parser_optional] at h
    obtain h | ⟨es, -, rfl⟩ := run_optional_eq_ok.1 h
    · exact ih hform h
    · rfl
  | result item ih =>
    rw [Schema.parser_result] at h
    obtain h | ⟨es, -, rfl⟩ := run_result_eq_ok.1 h
    · exact ih hform h
    · rfl
  | forced m item ih =>
    rw [Schema.parser_forced, run_forced] at h
    exact ih hform h
  | contextual item ih =>
    rw [Schema.parser_contextual] at h
    obtain ⟨w, -, rfl⟩ | ⟨es, -, rfl⟩ := run_contextual_eq_ok.1 h <;> rfl
  | list | dict | record | unimplemented => cases hform

theorem write_no_fault {r : UploadRules} (hr : r.storage.isNameless = true) (x : StoredFile)
    (bs : Text.Octets) : r.write x bs ≠ .error (.fault f) := by
  have hstore (n : Option Text.Octets) : r.storage.canStore n = .ok r.storage.isAvailable := by
    obtain ⟨hname, hextension⟩ := Bool.and_eq_true_iff.1 hr
    rw [Bool.not_eq_true'] at hname hextension
    rw [Storage.canStore, hname, hextension]
    rfl
  unfold UploadRules.write
  simp only [Storage.keep, hstore]
  split
  · exact nofun
  · split_ifs with hkeep <;> cases r.storage.isAvailable <;> exact nofun

theorem writeAll_no_fault {r : UploadRules} (hr : r.storage.isNameless = true) (x : StoredFile)
    (source : Source) : r.writeAll x source ≠ .error (.fault f) := by
  induction x, source using UploadRules.writeAll.induct r with
  | case1 x source _ hread =>
    rw [UploadRules.writeAll, if_pos hread]
    intro h
    cases h
  | case2 x source _ hread y hy ih =>
    rw [UploadRules.writeAll, if_neg hread, hy]
    exact ih
  | case3 x source _ hread e he =>
    rw [UploadRules.writeAll, if_neg hread, he]
    exact fun h => write_no_fault hr x _ (he.trans h)

namespace Schema

theorem Sturdy.both {left right : Form} (hs : (left.isSturdy && right.isSturdy) = true)
    (h : ∀ t ∈ left.records ++ right.records, ∀ u, Relation.ReflTransGen s.Refers t u →
      ∀ ps m, s.declaration u = .ok ps → .member m ∈ ps → m.form.isSturdy = true) :
    s.Sturdy left ∧ s.Sturdy right := by
  obtain ⟨hl, hr⟩ := Bool.and_eq_true_iff.1 hs
  exact ⟨⟨hl, fun t ht => h t (List.mem_append_left _ ht)⟩,
    ⟨hr, fun t ht => h t (List.mem_append_right _ ht)⟩⟩

theorem Sturdy.entries {key value : Form} (h : s.Sturdy (.dict key value)) :
    s.Sturdy key ∧ s.Sturdy value := by
  obtain ⟨hs, hrecords⟩ := h
  obtain ⟨hk, hv⟩ := Bool.and_eq_true_iff.1 hs
  exact both (Bool.and_eq_true_iff.2 ⟨(Bool.and_eq_true_iff.1 hk).2, hv⟩) hrecords

theorem Within.sturdy (h : s.Within J K) (hJ : s.Sturdy J.form) : s.Sturdy K.form := by
  obtain ⟨hs, hrecords⟩ := hJ
  cases h with
  | part h =>
    cases h with
    | item _ => exact ⟨hs, hrecords⟩
    | key _ => exact (Sturdy.entries ⟨hs, hrecords⟩).1
    | value _ => exact (Sturdy.entries ⟨hs, hrecords⟩).2
    | left => exact (Sturdy.both hs hrecords).1
    | right => exact (Sturdy.both hs hrecords).2
    | @member t ps m mode fs gs hps hm _ =>
      have hpart := share_mem hm
      refine ⟨hrecords t (List.mem_singleton_self t) t .refl ps m hps hpart, ?_⟩
      intro u hu w hw
      have hrefers : s.Refers t u := ⟨ps, m, hps, hpart, hu⟩
      exact hrecords t (List.mem_singleton_self t) w (.head hrefers hw)
    | forced => exact ⟨hs, hrecords⟩
  | caught h => cases h <;> exact ⟨hs, hrecords⟩

/-- Nothing breaks a sturdy form. -/
theorem Sturdy.not_breaks (hform : s.Sturdy J.form) : ¬s.Breaks J f := by
  intro h
  induction h with
  | @key key value mode fs i k v f _ hk _ hf =>
    have hkeys : key.makesKeys = true := by
      obtain ⟨hk, -⟩ := Bool.and_eq_true_iff.1 hform.1
      exact (Bool.and_eq_true_iff.1 hk).1
    rw [keyFault_of_makesKeys hkeys hk] at hf
    cases hf
  | @upload r mode g fs f hr =>
    cases g with
    | value g => exact write_no_fault hform.1 _ _ (map_eq_error.1 (map_eq_error.1 hr))
    | data g => exact writeAll_no_fault hform.1 _ _ (map_eq_error.1 (map_eq_error.1 hr))
  | within h _ ih => exact ih (h.sturdy hform)

end Schema

end Sturdy

end WebForm
