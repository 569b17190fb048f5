import Mathlib
import WebForm.Proofs.Order.Meeting
import WebForm.Proofs.Order.Value
import WebForm.Proofs.RoundTrip

/-!
# The order of fields

Without lists, a form gives each leaf its fields whatever comes between them. Entries and errors
come up in another order if fields do, and errors have other places, but whether there is a value
does not depend on that, and the value only in the order of the entries of its dictionaries.
-/
namespace WebForm

variable {mode : Mode} {fs gs : List Field}

/-- Two ends that are one value but for the order of entries, or errors. -/
inductive Tallies : Except FormErrors Value → Except FormErrors Value → Prop
  | value {v w} : v.Rearranged w → Tallies (.ok v) (.ok w)
  | errors {es es'} : (es = [] ↔ es' = []) → Tallies (.error es) (.error es')

section Wholes

variable {r r' : Except FormErrors Value} {es es' : FormErrors} {v w : Value}

theorem Tallies.failures (h : Tallies r r') : failures r = [] ↔ failures r' = [] := by
  cases h with
  | value _ => exact Iff.rfl
  | errors hes => exact hes

theorem verdict_tallies (hes : es = [] ↔ es' = []) (hv : v.Rearranged w) :
    Tallies (verdict es v) (verdict es' w) := by
  by_cases h : es = []
  · rw [h, hes.1 h]
    exact .value hv
  · have h' : es' ≠ [] := mt hes.2 h
    rw [verdict, verdict, if_neg (by simpa using h), if_neg (by simpa using h')]
    exact .errors hes

theorem append_nil_iff {xs xs' ys ys' : FormErrors} (hx : xs = [] ↔ xs' = [])
    (hy : ys = [] ↔ ys' = []) : xs ++ ys = [] ↔ xs' ++ ys' = [] := by
  rw [List.append_eq_nil_iff, List.append_eq_nil_iff, hx, hy]

theorem flatMap_nil_iff {α : Type} {as bs : List α} (h : as.Perm bs) (g : α → FormErrors) :
    as.flatMap g = [] ↔ bs.flatMap g = [] := by
  simp only [List.flatMap_eq_nil_iff, h.mem_iff]

theorem pair_tallies {l l' x x' : Except FormErrors Value} (hes : es = [] ↔ es' = [])
    (hl : Tallies l l') (hx : Tallies x x') : Tallies (joinSides es l x) (joinSides es' l' x') := by
  have hfailures := append_nil_iff (append_nil_iff hes hl.failures) hx.failures
  rw [← failures_joinSides, ← failures_joinSides] at hfailures
  cases hj : joinSides es l x with
  | ok v =>
    obtain ⟨hnil, a, b, rfl, rfl, rfl⟩ := joinSides_eq_ok.1 hj
    cases hl with
    | value ha =>
      cases hx with
      | value hb =>
        rw [hes.1 hnil]
        refine .value ?_
        simp only [Value.Rearranged, Value.arranged, arrangedItems]
        rw [ha, hb]
  | error ds =>
    cases hj' : joinSides es' l' x' with
    | ok v' =>
      obtain ⟨hnil, a, b, rfl, rfl, -⟩ := joinSides_eq_ok.1 hj'
      cases hl with
      | value _ =>
        cases hx with
        | value _ =>
          rw [hes.2 hnil] at hj
          cases hj
    | error ds' =>
      rw [hj, hj'] at hfailures
      exact .errors hfailures

/-- Two dictionaries with the same keys, each of them a text, are one but for the order of entries
if their values are. -/
theorem dict_rearranged {items items' mixed : List (Value × Value)}
    (hvalues : List.Forall₂ (fun a b => a.1 = b.1 ∧ a.2.Rearranged b.2) items mixed)
    (hperm : items'.Perm mixed) (htexts : ∀ e ∈ items, ∃ k, e.1 = .text k)
    (hn : (items.map fun e => e.1.asKey).Nodup) :
    (Value.dict (setAll [] items)).Rearranged (.dict (setAll [] items')) := by
  have hsame : arrangedEntries items = arrangedEntries mixed := by
    rw [arrangedEntries_eq, arrangedEntries_eq]
    clear hperm htexts hn
    induction hvalues with
    | nil => rfl
    | cons hab _ ih =>
      obtain ⟨hkey, hvalue⟩ := hab
      rw [List.map_cons, List.map_cons, ih, Prod.map, Prod.map, hkey, hvalue]
  have hkeys (es : List (Value × Value)) :
      (arrangedEntries es).map (fun e => e.1.asKey) = es.map fun e => e.1.asKey := by
    rw [arrangedEntries_eq, List.map_map]
    rfl
  have hmixed : (mixed.map fun e => e.1.asKey).Nodup := by
    rwa [← hkeys, ← hsame, hkeys]
  have htexts' : ∀ e ∈ items', ∃ k, e.1 = .text k := by
    intro e he
    obtain ⟨a, ha, hkey, -⟩ := forall₂_right hvalues e (hperm.mem_iff.1 he)
    rw [← hkey]
    exact htexts a ha
  have hn' : (items'.map fun e => e.1.asKey).Nodup := (hperm.map _).nodup_iff.2 hmixed
  rw [setAll_texts htexts hn, setAll_texts htexts' hn', Value.Rearranged, Value.arranged,
    Value.arranged, hsame]
  congr 1
  refine mergeSort_perm_eq ?_ (by rwa [hkeys])
  rw [arrangedEntries_eq, arrangedEntries_eq]
  exact (hperm.map _).symm

end Wholes

section Dict

variable {f : Field} {i : String} {value : Parser} {limit : Option Int}

theorem target_of_index (hf : ':' ∉ f.name.keyText.toList) (hi : f.target.index? = some i) :
    f.target = .entry i := by
  unfold Field.target at hi ⊢
  cases hk : f.name.key? with
  | none =>
    rw [hk] at hi
    cases hi
  | some k =>
    have hkey : f.name.keyText = k := by
      unfold View.key? at hk
      split_ifs at hk
      exact Option.some.inj hk
    have hindices : k.indices = [k] := by
      rw [Key.indices, Text.splitOn_of_notMem (hkey ▸ hf), List.map_singleton,
        String.ofList_toList]
    have hentry : DictTarget.ofKey (some k) = .entry k := by
      rw [DictTarget.ofKey, Option.map_some, hindices]
      rfl
    rw [hk, hentry] at hi
    rw [hentry, Option.some.inj hi]

theorem keyFields_entered (hfs : ∀ f ∈ fs, ':' ∉ f.name.keyText.toList) (hi : i ∈ entered fs) :
    keyFields i fs = [.value (.nameless i)] := by
  obtain ⟨o, ho⟩ := opener_some hi
  have hdirect : o.target = .entry i := by
    refine target_of_index (hfs o (List.mem_of_find?_eq_some ho)) ?_
    have hof := List.find?_some ho
    exact eq_of_beq hof
  have hnone : handed (Field.isKeyOf i) fs = [] := by
    rw [handed, List.map_eq_nil_iff, List.filter_eq_nil_iff]
    intro f hf hkey
    unfold Field.isKeyOf at hkey
    cases ht : f.target <;> rw [ht] at hkey <;> try cases hkey
    rename_i k
    have hindex : f.target.index? = some k := by rw [ht]; rfl
    rw [target_of_index (hfs f hf) hindex] at ht
    cases ht
  rw [keyFields, ho, hnone, Option.any_some, hdirect, List.append_nil]
  rfl

theorem yields_text {x : Except FormErrors Value} :
    (Parser.leaf (Leaf.text limit).rules).Yields mode [.value (.nameless i)] x ↔
      x = .ok (.text i) := by
  have hrun : (Parser.leaf (Leaf.text limit).rules).run mode [.value (.nameless i)] =
      .ok (.text i) := run_leaf_single rfl
  rw [Parser.Yields, hrun]
  exact ⟨fun h => (Except.ok.inj h).symm, fun h => h ▸ rfl⟩

structure EntryEnd.Tallies (i : String) (d d' : EntryEnd) : Prop where
  key : d.key = .ok (.text i)
  key' : d'.key = .ok (.text i)
  value : WebForm.Tallies d.value d'.value

namespace EntryEnd.Tallies

variable {d d' : EntryEnd} {ds ds' : List EntryEnd} {is : List String}

theorem errors (h : d.Tallies i d') : d.errors = [] ↔ d'.errors = [] := by
  unfold EntryEnd.errors
  rw [h.key, h.key']
  simpa [failures, Errors.named] using h.value.failures

theorem item_of_value {v : Value} (h : d.key = .ok (.text i)) (hv : d.value = .ok v) :
    d.item? = some (.text i, v) := by
  rw [EntryEnd.item?, h, hv]

theorem item_of_errors {es : FormErrors} (hv : d.value = .error es) : d.item? = none := by
  rw [EntryEnd.item?, hv]
  cases d.key <;> rfl

theorem items (h : List.Forall₂ (fun d d' => ∃ i, d.Tallies i d') ds ds') :
    List.Forall₂ (fun a b => a.1 = b.1 ∧ a.2.Rearranged b.2) (ds.filterMap EntryEnd.item?)
      (ds'.filterMap EntryEnd.item?) := by
  induction h with
  | nil => exact .nil
  | @cons d d' ds ds' hd _ ih =>
    obtain ⟨i, hk, hk', hv⟩ := hd
    generalize hx : d.value = x, hx' : d'.value = x' at hv
    cases hv with
    | value hv =>
      rw [List.filterMap_cons, List.filterMap_cons, item_of_value hk hx, item_of_value hk' hx']
      exact .cons ⟨rfl, hv⟩ ih
    | errors _ =>
      rwa [List.filterMap_cons, List.filterMap_cons, item_of_errors hx, item_of_errors hx']

theorem keys (h : List.Forall₂ (fun i d => d.key = .ok (.text i)) is ds) :
    ((ds.filterMap EntryEnd.item?).map fun e => e.1.asKey).Sublist is ∧
      ∀ e ∈ ds.filterMap EntryEnd.item?, ∃ k, e.1 = .text k := by
  induction h with
  | nil => simp
  | @cons i d is ds hk _ ih =>
    obtain ⟨hsub, htexts⟩ := ih
    cases hv : d.value with
    | error es =>
      rw [List.filterMap_cons, item_of_errors hv]
      exact ⟨hsub.cons i, htexts⟩
    | ok v =>
      rw [List.filterMap_cons, item_of_value hk hv]
      refine ⟨hsub.cons_cons i, ?_⟩
      intro e he
      rcases List.mem_cons.1 he with rfl | he
      · exact ⟨i, rfl⟩
      · exact htexts e he

end EntryEnd.Tallies

theorem entered_perm (h : fs.Perm gs) : (entered fs).Perm (entered gs) := by
  refine (List.perm_ext_iff_of_nodup (nodup_entered fs) (nodup_entered gs)).2 fun i => ?_
  simp only [mem_entered, h.mem_iff]

theorem dict_reordered {x : Except FormErrors Value} (hperm : fs.Perm gs)
    (hfs : ∀ f ∈ fs, ':' ∉ f.name.keyText.toList)
    (hvalue : ∀ i r, value.Yields mode (valueFields i fs) r →
      ∃ r', value.Yields mode (valueFields i gs) r' ∧ Tallies r r')
    (hx : (Parser.dict (.leaf (Leaf.text limit).rules) value).Yields mode fs x) :
    ∃ x', (Parser.dict (.leaf (Leaf.text limit).rules) value).Yields mode gs x' ∧
      Tallies x x' := by
  obtain ⟨ds, hds, rfl⟩ := yields_dict.1 hx
  have hgs : ∀ g ∈ gs, ':' ∉ g.name.keyText.toList := fun g hg => hfs g (hperm.mem_iff.2 hg)
  have hentered := entered_perm hperm
  have hkey (i : String) (hi : i ∈ entered fs) (d : EntryEnd)
      (hd : EntryYields (.leaf (Leaf.text limit).rules) value mode fs i d) :
      d.key = .ok (.text i) := by
    have hk := hd.2.1
    rwa [keyFields_entered hfs hi, yields_text] at hk
  have hentry (i j : String) (d : EntryEnd) (hij : i = j ∧ i ∈ entered fs)
      (hd : EntryYields (.leaf (Leaf.text limit).rules) value mode fs i d) :
      ∃ d', EntryYields (.leaf (Leaf.text limit).rules) value mode gs j d' ∧
        ∃ i, d.Tallies i d' := by
    obtain ⟨rfl, hi⟩ := hij
    have hi' : i ∈ entered gs := hentered.mem_iff.1 hi
    obtain ⟨o, ho⟩ := opener_some hi'
    obtain ⟨r', hr', htally⟩ := hvalue i _ hd.2.2.1
    refine ⟨⟨o.name, .ok (.text i), r'⟩, ⟨?_, ?_, hr', ?_⟩, i, hkey i hi d hd, rfl, htally⟩
    · rw [ho, Option.map_some]
    · rw [keyFields_entered hgs hi', yields_text]
    · intro kv hkv
      unfold EntryEnd.item? at hkv
      cases r' with
      | error es => cases hkv
      | ok v =>
        obtain rfl := Option.some.inj hkv
        rfl
  have hsame : List.Forall₂ (fun i j => i = j ∧ i ∈ entered fs) (entered fs) (entered fs) :=
    List.forall₂_same.2 fun i hi => ⟨rfl, hi⟩
  obtain ⟨mixed, hmixed, htally⟩ := forall₂_carry hsame hds hentry
  obtain ⟨ds', hds', hp⟩ := List.perm_comp_forall₂ hentered.symm hmixed
  obtain ⟨hsub, htexts⟩ := EntryEnd.Tallies.keys (forall₂_imp_on (fun i hi d _ => hkey i hi d) hds)
  have herrors : ds.flatMap EntryEnd.errors = [] ↔ mixed.flatMap EntryEnd.errors = [] := by
    clear hmixed hp hds hsub htexts hx
    induction htally with
    | nil => exact Iff.rfl
    | cons hd _ ih =>
      obtain ⟨i, hd⟩ := hd
      exact append_nil_iff hd.errors ih
  refine ⟨_, yields_dict.2 ⟨ds', hds', rfl⟩, verdict_tallies ?_ ?_⟩
  · refine append_nil_iff (flatMap_nil_iff hperm strayEntry) ?_
    exact herrors.trans (flatMap_nil_iff hp EntryEnd.errors).symm
  · exact dict_rearranged (EntryEnd.Tallies.items htally) (hp.filterMap _) htexts
      ((nodup_entered fs).sublist hsub)

end Dict

section Record

variable {p : Parser}

structure Collected.Tallies (c c' : Collected) : Prop where
  fields : arrangedFields c.fields = arrangedFields c'.fields
  errors : c.errors = [] ↔ c'.errors = []

theorem record_tallies {s : Schema} {t : RecordType} {es es' : FormErrors}
    {cs cs' : List Collected} (hs : s.BlindTo Value.Rearranged) (hes : es = [] ↔ es' = [])
    (h : List.Forall₂ Collected.Tallies cs cs') :
    Tallies (recordVerdict t (s.objections t) (Collected.plus ⟨[], es⟩ (gathered cs)))
      (recordVerdict t (s.objections t) (Collected.plus ⟨[], es'⟩ (gathered cs'))) := by
  have hgathered : (gathered cs).Tallies (gathered cs') := by
    clear hes
    induction h with
    | nil => exact ⟨rfl, Iff.rfl⟩
    | cons hc _ ih =>
      obtain ⟨hfields, herrors⟩ := ih
      refine ⟨?_, append_nil_iff hc.errors herrors⟩
      simp only [gathered, arrangedFields_eq] at hfields ⊢
      rw [List.flatMap_cons, List.flatMap_cons, List.map_append, List.map_append, hfields,
        ← arrangedFields_eq, hc.fields, arrangedFields_eq]
  have hrecord : Value.Rearranged (.record t (gathered cs).fields)
      (.record t (gathered cs').fields) := by
    simp only [Value.Rearranged, Value.arranged, hgathered.fields]
  refine verdict_tallies ?_ hrecord
  rw [Collected.complaints_eq_nil, Collected.complaints_eq_nil]
  exact and_congr (append_nil_iff hes hgathered.errors)
    (by rw [Collected.plus, Collected.plus, List.nil_append, List.nil_append,
      hs.constructor hrecord])

theorem named_nil_iff {es es' : FormErrors} (h : es = [] ↔ es' = []) (path path' : Path) :
    es.named path = [] ↔ es'.named path' = [] := by
  unfold Errors.named
  rw [List.map_eq_nil_iff, List.map_eq_nil_iff, h]

theorem member_reordered {path path' : Path} {m : Member} {c : Collected} (hperm : fs.Perm gs)
    (hm : ∀ v w, v.Rearranged w → m.check v = m.check w)
    (hrun : ∀ r, p.Yields mode fs r → ∃ r', p.Yields mode gs r' ∧ Tallies r r')
    (hc : MemberEnds p mode path m fs c) :
    ∃ c', MemberEnds p mode path' m gs c' ∧ c.Tallies c' := by
  have hne (hfs : fs ≠ []) : gs ≠ [] := by
    rintro rfl
    exact hfs hperm.eq_nil
  cases hc with
  | absent ha =>
    obtain rfl := hperm.nil_eq
    exact ⟨_, .absent ha, rfl, Iff.rfl⟩
  | missing ha =>
    obtain rfl := hperm.nil_eq
    exact ⟨_, .missing ha, rfl, by simp⟩
  | failed hfs hy =>
    obtain ⟨r', hr', htally⟩ := hrun _ hy
    cases htally with
    | errors hes => exact ⟨_, .failed (hne hfs) hr', rfl, named_nil_iff hes path path'⟩
  | checked hfs hy hes =>
    obtain ⟨r', hr', htally⟩ := hrun _ hy
    cases htally with
    | value hv =>
      refine ⟨_, .checked (hne hfs) hr' (hm _ _ hv ▸ hes), ?_, named_nil_iff Iff.rfl path path'⟩
      simp only [arrangedFields, arrangedSlot]
      rw [hv]

end Record

section Form

variable {s : Schema}

/-- A form that is not a list, or a dictionary with texts for keys. -/
def Form.IsUnlisted : Form → Prop
  | .leaf _ | .optional _ | .pair _ _ | .record _ | .dict (.leaf (.text _)) _ => True
  | _ => False

def Form.SeesPlain : Form → Field → Prop
  | .dict _ _, f => ':' ∉ f.name.keyText.toList
  | _, _ => True

/-- Every form without lists ends alike on fields in two orders, by induction on the form. -/
theorem parser_reordered (hs : s.BlindTo Value.Rearranged) (d : Nat) (form : Form)
    (hform : s.BuiltOf Form.IsUnlisted form) (hfs : ∀ f ∈ fs, s.OnWay Form.SeesPlain form f)
    (h : s.Reorders form fs gs)
    {r : Except FormErrors Value} (hr : (s.parser d form).Yields mode fs r) :
    ∃ r', (s.parser d form).Yields mode gs r' ∧ Tallies r r' := by
  induction d, form using Form.depth_induction generalizing mode fs gs r with
  | leaf d l =>
    obtain rfl := h.eq_of_meets fun _ _ => .leaf
    refine ⟨r, hr, ?_⟩
    cases r with
    | ok v => exact .value rfl
    | error es => exact .errors Iff.rfl
  | list d item _ => exact hform.self.elim
  | dict d key value _ ih =>
    obtain ⟨limit, rfl⟩ : ∃ limit, key = .leaf (.text limit) := by
      have hkey := hform.self
      unfold Form.IsUnlisted at hkey
      split at hkey <;> simp_all
    rw [Schema.parser_dict, Schema.parser_leaf] at hr ⊢
    refine dict_reordered h.perm (fun f hf => (hfs f hf).self) (fun i r hr => ?_) hr
    refine ih (hform.part .value) ?_ (h.handed fun f g hf => Schema.meets_value hf) hr
    exact Schema.onWay_handed hfs fun f hf => .value hf
  | pair d left right ihl ihr =>
    rw [Schema.parser_pair] at hr ⊢
    obtain ⟨x, y, hx, hy, rfl⟩ := yields_pair.1 hr
    obtain ⟨x', hx', hxx⟩ := ihl (hform.part .left)
      (Schema.onWay_handed hfs fun f hf => .left hf)
      (h.handed fun f g hf => Schema.meets_left hf) hx
    obtain ⟨y', hy', hyy⟩ := ihr (hform.part .right)
      (Schema.onWay_handed hfs fun f hf => .right hf)
      (h.handed fun f g hf => Schema.meets_right hf) hy
    exact ⟨_, yields_pair.2 ⟨x', y', hx', hy', rfl⟩,
      pair_tallies (flatMap_nil_iff h.perm straySide) hxx hyy⟩
  | zero t => cases hr
  | succ d t ih =>
    rw [Schema.parser_succ] at hr ⊢
    obtain ⟨ps, hd, cs, hcs, rfl⟩ := yields_record.1 hr
    have hshares : List.Forall₂ (fun a b => ∀ c, PartEnds (s.parser d) mode (parentOf fs) a c →
        ∃ c', PartEnds (s.parser d) mode (parentOf gs) b c' ∧ c.Tallies c')
        (shares ps fs) (shares ps gs) := by
      refine shares_forall₂ fun j part hpart c hc => ?_
      cases part with
      | constant a x => exact ⟨c, hc, rfl, Iff.rfl⟩
      | member m =>
        have hreorders : s.Reorders m.form (shareOf ps j fs) (shareOf ps j gs) :=
          h.handed fun f g hf => by
            rw [Schema.meets_member hd (of_decide_eq_true hf) hpart, decide_eq_true_iff]
        have hmem : .member m ∈ ps := List.mem_of_getElem? hpart
        refine member_reordered hreorders.perm (fun v w => hs.member hd hmem) (fun r hr => ?_) hc
        exact ih m.form (hform.part (.member hd hmem)) (Schema.onWay_share hfs hd hpart)
          hreorders hr
    obtain ⟨cs', hcs', htally⟩ := forall₂_carry hshares hcs fun _ _ c hab hc => hab c hc
    exact ⟨_, yields_record.2 ⟨ps, hd, cs', hcs', rfl⟩,
      record_tallies hs (flatMap_nil_iff h.perm (strayMember mode ps)) htally⟩
  | optional d item ih =>
    rw [Schema.parser_optional] at hr ⊢
    obtain ⟨x, hx, rfl⟩ := yields_optional.1 hr
    obtain ⟨x', hx', htally⟩ := ih (hform.part .optional) (fun f hf => (hfs f hf).step .optional)
      (h.of_iff fun _ _ => Schema.meets_optional) hx
    refine ⟨_, yields_optional.2 ⟨x', hx', rfl⟩, .value ?_⟩
    cases htally with
    | value hv => exact hv
    | errors _ => rfl
  | result d item _ => exact hform.self.elim
  | forced d m item _ => exact hform.self.elim
  | contextual d item _ => exact hform.self.elim
  | unimplemented d => exact hform.self.elim

/-- A form without lists has a value for fields in one order if it has one for them in another in
which those for the same leaf come in the same order. The value is the same but for the order of the
entries of its dictionaries, which no check and no constructor may look at. -/
theorem parse_moved {form : Form} (hs : s.BlindTo Value.Rearranged)
    (hform : s.BuiltOf Form.IsUnlisted form)
    (hfs : ∀ f ∈ fs, s.OnWay Form.SeesPlain form f) (σ : Equiv.Perm (Fin fs.length))
    (hσ : ∀ i j, i < j → s.Meets form (fs.get i) (fs.get j) → σ i < σ j) :
    (∀ v, s.parse form mode fs = .ok v →
        ∃ w, s.parse form mode (moved fs σ) = .ok w ∧ v.Rearranged w) ∧
      ∀ w, s.parse form mode (moved fs σ) = .ok w →
        ∃ v, s.parse form mode fs = .ok v ∧ v.Rearranged w := by
  have hends {fs gs : List Field} (hfs : ∀ f ∈ fs, s.OnWay Form.SeesPlain form f)
      (h : s.Reorders form fs gs) (v : Value) (hv : s.parse form mode fs = .ok v) :
      ∃ w, s.parse form mode gs = .ok w ∧ v.Rearranged w := by
    obtain ⟨r, hr, htally⟩ := parser_reordered hs _ form hform hfs h (Parser.yields_value.2 hv)
    cases htally with
    | value hw => exact ⟨_, Schema.parse_of_run (Parser.yields_value.1 hr), hw⟩
  have hmoved := Schema.reorders_moved σ hσ
  have hgs : ∀ g ∈ moved fs σ, s.OnWay Form.SeesPlain form g :=
    fun g hg => hfs g (hmoved.perm.mem_iff.2 hg)
  refine ⟨hends hfs hmoved, fun w hw => ?_⟩
  obtain ⟨v, hv, hvw⟩ := hends hgs hmoved.symm w hw
  exact ⟨v, hv, hvw.symm⟩

end Form

def letters : Form := .dict .text .integer
def letterA : Field := .value (.ofText "a" "1")
def letterB : Field := .value (.ofText "b" "2")

section Letters

variable {s : Schema}

theorem letters_unlisted : s.BuiltOf Form.IsUnlisted letters := by
  intro part h
  rcases h.cases_head with rfl | ⟨_, hstep, h⟩
  · trivial
  · cases hstep <;>
    · rcases h.cases_head with rfl | ⟨_, hstep, -⟩
      · trivial
      · cases hstep

theorem letters_plain {f : Field} (hf : ':' ∉ f.name.keyText.toList) :
    s.OnWay Form.SeesPlain letters f := by
  intro part g h
  rcases h.cases_head with heq | ⟨_, hstep, h⟩
  · cases heq
    exact hf
  · cases hstep <;>
    · rcases h.cases_head with heq | ⟨_, hstep, -⟩
      · cases heq
        trivial
      · cases hstep

theorem letters_apart {f g : Field} (hf : f.isValueOf "a" = true) (hg : g.isValueOf "a" = false) :
    ¬s.Meets letters f g := by
  rw [letters, Schema.meets_value hf, hg]
  simp

theorem swapped_apart {form : Form} {f g : Field} (h : ¬s.Meets form f g)
    (i j : Fin [f, g].length) (hij : i < j) (hmeet : s.Meets form ([f, g].get i) ([f, g].get j)) :
    Fin.revPerm i < Fin.revPerm j := by
  fin_cases i <;> fin_cases j
  · exact absurd hij (lt_irrefl _)
  · exact absurd hmeet h
  · exact absurd hij (Nat.not_lt_zero _)
  · exact absurd hij (lt_irrefl _)

end Letters

/-- Letters come in any order. -/
theorem letters_moved : ∃ w, Schema.empty.parse letters .strict [letterB, letterA] = .ok w ∧
    (Value.dict [(.text "a", .int 1), (.text "b", .int 2)]).Rearranged w := by
  have hparse : Schema.empty.parse letters .strict [letterA, letterB] =
      .ok (.dict [(.text "a", .int 1), (.text "b", .int 2)]) := by
    cbv
  have hplain : ∀ f ∈ [letterA, letterB], Schema.empty.OnWay Form.SeesPlain letters f := by
    intro f hf
    apply letters_plain
    rcases List.mem_pair.1 hf with rfl | rfl
    · decide
    · decide
  have hapart : ¬Schema.empty.Meets letters letterA letterB := letters_apart (by cbv) (by cbv)
  have hmoved : moved [letterA, letterB] Fin.revPerm = [letterB, letterA] := rfl
  have hstandard : Schema.empty.IsStandard :=
    Schema.isStandard_of_records (by simp [Schema.empty]) fun _ _ => rfl
  have h := (parse_moved hstandard.blindTo_rearranged letters_unlisted hplain Fin.revPerm
    (swapped_apart hapart)).1 _ hparse
  rwa [hmoved] at h

def alphabetical : Check := .custom fun
  | .dict ((.text letter, _) :: _) =>
    if letter = "a" then .ok () else .error (.ofKind (.validation "not in order"))
  | _ => .ok ()

def shelfType : RecordType := ⟨0, "Shelf", false⟩
def shelfLetters : Member := ⟨"letters", "letters", [], letters, [alphabetical], .unset⟩
def shelfSchema : Schema := { records := [.ok [.member shelfLetters]] }
def shelfA : Field := .value (.ofText "letters[a]" "1")
def shelfB : Field := .value (.ofText "letters[b]" "2")

theorem shelf_member {t : RecordType} {ps : List RecordPart}
    (hps : shelfSchema.declaration t = .ok ps) : ps = [.member shelfLetters] := by
  rcases t with ⟨_ | i, n, b⟩
  · exact (Except.ok.inj hps).symm
  · cases hps

/-- A check that looks at the order of a dictionary accepts the letters in one order alone. -/
theorem shelf_in_order :
    ¬∀ (s : Schema) (form : Form) (mode : Mode) (fs : List Field), s.BuiltOf Form.IsUnlisted form →
      (∀ f ∈ fs, s.OnWay Form.SeesPlain form f) → ∀ σ : Equiv.Perm (Fin fs.length),
      (∀ i j, i < j → s.Meets form (fs.get i) (fs.get j) → σ i < σ j) →
      ∀ v, s.parse form mode fs = .ok v →
        ∃ w, s.parse form mode (moved fs σ) = .ok w ∧ v.Rearranged w := by
  intro hall
  have hform : shelfSchema.BuiltOf Form.IsUnlisted (.record shelfType) := by
    intro part h
    rcases h.cases_head with rfl | ⟨_, hstep, h⟩
    · trivial
    · cases hstep with
      | member hps hm =>
        obtain rfl := shelf_member hps
        obtain rfl := RecordPart.member.inj (List.mem_singleton.1 hm)
        exact letters_unlisted part h
  have hplain : ∀ f ∈ [shelfA, shelfB],
      shelfSchema.OnWay Form.SeesPlain (.record shelfType) f := by
    intro f hf part g h
    rcases h.cases_head with heq | ⟨_, hstep, h⟩
    · cases heq
      trivial
    · cases hstep with
      | @member _ ps j m _ hps hown hm =>
        obtain rfl := shelf_member hps
        obtain rfl := RecordPart.member.inj (List.mem_singleton.1 (List.mem_of_getElem? hm))
        have hcolon : ':' ∉ f.shift.name.keyText.toList := by
          rcases List.mem_pair.1 hf with rfl | rfl <;> decide
        exact letters_plain hcolon part g h
  have hapart : ¬shelfSchema.Meets (.record shelfType) shelfA shelfB := by
    have howner : shelfA.owner [.member shelfLetters] = some 0 := by cbv
    rw [Schema.meets_member rfl howner rfl]
    exact fun h => letters_apart (by cbv) (by cbv) h.2
  have hparse : shelfSchema.parse (.record shelfType) .strict [shelfA, shelfB] =
      .ok (.record shelfType
        [("letters", .own (.dict [(.text "a", .int 1), (.text "b", .int 2)]))]) := by
    cbv
  obtain ⟨w, hw, -⟩ := hall shelfSchema (.record shelfType) .strict [shelfA, shelfB] hform hplain
    Fin.revPerm (swapped_apart hapart) _ hparse
  have hmoved : shelfSchema.parse (.record shelfType) .strict [shelfB, shelfA] =
      .error (.errors [⟨.validation "not in order", .value,
        some (.child (.name ⟨[]⟩) "letters"), none⟩]) := by
    cbv
  rw [show moved [shelfA, shelfB] Fin.revPerm = [shelfB, shelfA] from rfl, hmoved] at hw
  cases hw

end WebForm
