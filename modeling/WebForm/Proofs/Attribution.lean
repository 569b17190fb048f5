import Mathlib
import WebForm.Proofs.Names
import WebForm.Proofs.Parts

/-!
# The places of errors

The errors of a record at the top are for submitted fields or for its members. Every parser on the
way down sees names that begin with the first key of a submitted one, and names its errors so. Only
a part that gets no fields, or one without a name, does not know where it is: what it names itself is
reported with that name.
-/
namespace WebForm

def Path.Under (roots : List Key) (p : Path) : Prop := ∃ key ∈ roots, p.keys.head? = some key

/-- The field stands after the first key of its name, which is one of these. -/
def Field.Under (roots : List Key) (f : Field) : Prop :=
  ∃ n k, f.name = (View.ofName n).shiftBy (k + 1) ∧ n.Begins ∧
    ∃ key ∈ roots, n.keys.head? = some key

def Field.IsProper (f : Field) : Prop :=
  ∃ n k, f.name = (View.ofName n).shiftBy k ∧ n.chars ≠ [] ∧ n.Begins

def firstKeys (fs : List Field) : List Key := fs.filterMap fun f => f.name.source.keys.head?

variable {roots : List Key} {fs : List Field} {f : Field}

namespace Field

theorem head_mem {n : Name} {k : Nat} (hf : f ∈ fs) (hn : f.name = (View.ofName n).shiftBy k)
    (hne : n.chars ≠ []) (hb : n.Begins) : ∃ key ∈ firstKeys fs, n.keys.head? = some key := by
  have hsource : f.name.source = n := by rw [hn, View.source_ofName]
  cases hk : n.keys with
  | nil => exact absurd ((Name.keys_eq_nil hb).1 hk) hne
  | cons key keys => exact ⟨key, List.mem_filterMap.2 ⟨f, hf, by rw [hsource, hk]; rfl⟩, rfl⟩

theorem IsProper.shift_under (h : f.IsProper) (hf : f ∈ fs) : f.shift.Under (firstKeys fs) := by
  obtain ⟨n, k, hn, hne, hb⟩ := h
  exact ⟨n, k, by rw [name_shift, hn, View.shiftBy_succ], hb, head_mem hf hn hne hb⟩

theorem IsProper.name_under (h : f.IsProper) (hf : f ∈ fs) :
    (Path.ofName f.name.source).Under (firstKeys fs) := by
  obtain ⟨n, k, hn, hne, hb⟩ := h
  obtain ⟨key, hkey, hhead⟩ := head_mem hf hn hne hb
  exact ⟨key, hkey, by rw [hn, View.source_ofName]; exact hhead⟩

theorem IsProper.under (h : f.IsProper) (hf : f ∈ fs) :
    f.name.parent? = none ∨ f.Under (firstKeys fs) := by
  obtain ⟨n, _ | k, hn, hne, hb⟩ := h
  · left
    rw [hn]
    rfl
  · exact .inr ⟨n, k, hn, hb, head_mem hf hn hne hb⟩

theorem Under.shift (h : f.Under roots) : f.shift.Under roots := by
  obtain ⟨n, k, hn, h⟩ := h
  exact ⟨n, k + 1, by rw [name_shift, hn, ← View.shiftBy_succ], h⟩

theorem Under.name_under (h : f.Under roots) : (Path.ofName f.name.source).Under roots := by
  obtain ⟨n, k, hn, -, key, hkey, hhead⟩ := h
  exact ⟨key, hkey, by rw [hn, View.source_ofName]; exact hhead⟩

theorem Under.view_under (h : f.Under roots) : (Path.ofView f.name).Under roots := by
  obtain ⟨n, k, hn, hb, key, hkey, hhead⟩ := h
  refine ⟨key, hkey, ?_⟩
  rw [hn, Path.ofView, Path.keys, View.keys_asName hb, List.head?_take, if_neg (by simp), hhead]

theorem Under.not_empty (h : f.Under roots) : f.name.asName.isEmpty = false := by
  obtain ⟨n, k, hn, hb, key, -, hhead⟩ := h
  rw [Bool.eq_false_iff, hn, ne_eq, View.asName_isEmpty hb]
  rintro hnil
  rw [hnil] at hhead
  cases hhead

theorem Under.parts_under (h : f.Under roots) (suffix : String) :
    (Path.ofParts f.name.parent? suffix).Under roots := by
  obtain ⟨n, k, hn, hb, key, hkey, hhead⟩ := h
  have hbefore : n.keys.take (k + 1) ≠ [] := by
    rw [ne_eq, List.take_eq_nil_iff]
    rintro (hk | hnil)
    · cases hk
    · rw [hnil] at hhead
      cases hhead
  have hparent : f.name.parent? = some ⟨f.name.before⟩ := by
    rw [View.parent?, hn, if_neg]
    rw [List.isEmpty_iff, View.before_eq_nil hb]
    exact hbefore
  refine ⟨key, hkey, ?_⟩
  rw [hparent, hn, Path.ofParts, Option.getD_some, Path.keys, Path.keys, View.keys_before hb,
    List.head?_append_of_ne_nil _ hbefore, List.head?_take, if_neg (by simp), hhead]

end Field

/-- There are fields, and each stands below one of the keys. -/
def Rooted (roots : List Key) (fs : List Field) : Prop := fs ≠ [] ∧ ∀ f ∈ fs, f.Under roots

theorem Rooted.parts_under (h : Rooted roots fs) (suffix : String) :
    (Path.ofParts (parentOf fs) suffix).Under roots := by
  rw [parentOf, List.getLast?_eq_some_getLast h.1]
  exact (h.2 _ (List.getLast_mem h.1)).parts_under suffix

/-- No field says where these are from. -/
def Nameless (fs : List Field) : Prop := fs = [] ∨ ∃ i gs, fs = .value (.nameless i) :: gs

theorem nameless_or_rooted (h : ∀ f ∈ fs, f.Under roots) : Nameless fs ∨ Rooted roots fs := by
  by_cases hn : fs = []
  · exact .inl (.inl hn)
  · exact .inr ⟨hn, h⟩

theorem handed_rooted (h : ∀ f ∈ fs, f.Under roots) (q : Field → Bool) :
    Nameless (handed q fs) ∨ Rooted roots (handed q fs) := by
  apply nameless_or_rooted
  intro g hg
  obtain ⟨f, hf, -, rfl⟩ := mem_handed.1 hg
  exact (h f hf).shift

theorem mem_piece {g : List Field} (hg : g ∈ pieces fs) :
    g ≠ [] ∧ ∀ f ∈ g, ∃ f' ∈ fs, f'.shift = f := by
  obtain ⟨g, hsplit, rfl⟩ := List.mem_map.1 hg
  constructor
  · intro hn
    exact List.ne_nil_of_mem_splitBy hsplit (List.map_eq_nil_iff.1 hn)
  · intro f hf
    obtain ⟨f', hf', rfl⟩ := List.mem_map.1 hf
    have hmem : f' ∈ (fs.splitBy Field.joins).flatten := List.mem_flatten.2 ⟨g, hsplit, hf'⟩
    rw [List.flatten_splitBy] at hmem
    exact ⟨f', hmem, rfl⟩

variable {s : Schema} {J K : Job} {e : FormError}

theorem part_rooted (h : s.Part J K) (hJ : Rooted roots J.fields) :
    Nameless K.fields ∨ Rooted roots K.fields := by
  cases h with
  | item hg =>
    obtain ⟨hne, hmem⟩ := mem_piece hg
    refine .inr ⟨hne, ?_⟩
    intro f hf
    obtain ⟨f', hf', rfl⟩ := hmem f hf
    exact (hJ.2 f' hf').shift
  | @key key value mode fs i hi =>
    simp only [keyFields]
    split_ifs
    · exact .inl (.inr ⟨i, _, rfl⟩)
    · exact handed_rooted hJ.2 _
  | value hi => exact handed_rooted hJ.2 _
  | left => exact handed_rooted hJ.2 _
  | right => exact handed_rooted hJ.2 _
  | member hd hm hne =>
    refine .inr ⟨hne, ?_⟩
    intro g hg
    obtain ⟨f, hf, rfl⟩ := mem_of_share hm g hg
    exact (hJ.2 f hf).shift
  | forced => exact .inr hJ

/-- Either the error is for one of the keys, or it is not named yet, or it comes from a part that
does not know where it is. -/
def Traced (s : Schema) (roots : List Key) (J : Job) (e : FormError) : Prop :=
  (∀ p, e.name = some p → p.Under roots) ∨
    ∃ K, Relation.TransGen s.Part J K ∧ Nameless K.fields ∧ K.Reports s e

theorem Traced.named {p : Path} (h : Traced s roots J e) (hp : p.Under roots) :
    Traced s roots J (e.named p) := by
  cases hn : e.name with
  | none =>
    left
    intro q hq
    rw [Error.named_name, hn] at hq
    obtain rfl := Option.some.inj hq
    exact hp
  | some q => rwa [Error.named_of_name p (by rw [hn]; exact Option.some_ne_none q)]

variable {d : Nat} {x : Except FormErrors Value}

theorem traced_part (h : s.Part J K) (hK : Nameless K.fields ∨ Rooted roots K.fields)
    (hx : (s.parser d K.form).Yields K.mode K.fields x)
    (ih : Rooted roots K.fields → ∀ e ∈ failures x, Traced s roots K e) (he : e ∈ failures x) :
    Traced s roots J e := by
  rcases hK with hK | hK
  · exact .inr ⟨K, .single h, hK, Job.Ends.reports ⟨d, hx⟩ he⟩
  · rcases ih hK e he with hp | ⟨L, hL, hn⟩
    · exact .inl hp
    · exact .inr ⟨L, .head h hL, hn⟩

theorem strayEntry_name (he : e ∈ strayEntry f) : e.name = some (.ofView f.name) := by
  unfold strayEntry at he
  split at he
  · obtain rfl := List.mem_singleton.1 he
    rfl
  · cases he

theorem straySide_name (he : e ∈ straySide f) : e.name = some (.ofView f.name) := by
  unfold straySide at he
  split_ifs at he
  · cases he
  · obtain rfl := List.mem_singleton.1 he
    rfl

theorem mem_strayMember {mode : Mode} {ps : List RecordPart} (he : e ∈ strayMember mode ps f) :
    e = f.unexpected := by
  unfold strayMember at he
  split_ifs at he
  · cases he
  · exact List.mem_singleton.1 he

theorem unexpected_name (f : Field) : f.unexpected.name = some (.ofName f.name.source) := by
  cases f <;> rfl

theorem record_error {t : RecordType} {ps : List RecordPart} {parserOf : Form → Parser}
    {mode : Mode} (hs : s.LeavesNames) (hd : s.declaration t = .ok ps)
    (h : (Parser.record t (.ok ps) (s.objections t) parserOf).Yields mode fs x)
    (he : e ∈ failures x) :
    (∃ slots, e.name = none ∧ failures x = s.objections t slots) ∨ (∃ f ∈ fs, e = f.unexpected) ∨
      ∃ m, .member m ∈ ps ∧ (e.name = some (.ofParts (parentOf fs) m.name) ∨
        ∃ gs y, (.member m, gs) ∈ shares ps fs ∧ gs ≠ [] ∧ (parserOf m.form).Yields mode gs y ∧
          ∃ e' ∈ failures y, e = e'.named (.ofParts (parentOf fs) m.name)) := by
  rw [yields_record] at h
  obtain ⟨_, hps, cs, hcs, rfl⟩ := h
  obtain rfl := Except.ok.inj hps
  rw [failures_recordVerdict] at he ⊢
  rcases Collected.complaints_cases (o := s.objections t) with h | h <;> rw [h] at he ⊢
  · exact .inl ⟨_, hs.constructor he, rfl⟩
  refine .inr ?_
  rcases List.mem_append.1 he with he | he
  · obtain ⟨f, hf, he⟩ := List.mem_flatMap.1 he
    exact .inl ⟨f, hf, mem_strayMember he⟩
  · obtain ⟨c, hc, he⟩ := List.mem_flatMap.1 he
    obtain ⟨⟨part, gs⟩, hshare, hends⟩ := forall₂_right hcs c hc
    have hpart := share_mem hshare
    cases part with
    | constant a y =>
      obtain rfl := hends
      cases he
    | member m =>
      refine .inr ⟨m, hpart, ?_⟩
      cases hends with
      | absent => cases he
      | missing =>
        obtain rfl := List.mem_singleton.1 he
        exact .inl rfl
      | failed hne hy =>
        obtain ⟨e', he', rfl⟩ := List.mem_map.1 he
        exact .inr ⟨gs, _, hshare, hne, hy, e', he', rfl⟩
      | checked hne hy hes =>
        obtain ⟨e', he', rfl⟩ := List.mem_map.1 he
        obtain ⟨check, hcheck, more, hrun, hmore⟩ := mem_check hes e' he'
        rw [Error.named_name, hs.check ⟨t, ps, m, hd, hpart, hcheck⟩ hrun hmore]
        exact .inl rfl

theorem traced_of_name {p : Path} (hn : e.name = some p) (hp : p.Under roots) :
    Traced s roots J e := by
  left
  intro q hq
  rw [hn] at hq
  obtain rfl := Option.some.inj hq
  exact hp

theorem traced_of_nameless (hn : e.name = none) : Traced s roots J e := by
  left
  intro p hp
  rw [hn] at hp
  cases hp

theorem dict_traced {key value : Form} {mode : Mode} (hfs : Rooted roots fs)
    (hk : ∀ gs x, Rooted roots gs → (s.parser d key).Yields mode gs x →
      ∀ e ∈ failures x, Traced s roots ⟨key, mode, gs⟩ e)
    (hv : ∀ gs x, Rooted roots gs → (s.parser d value).Yields mode gs x →
      ∀ e ∈ failures x, Traced s roots ⟨value, mode, gs⟩ e)
    (h : (Parser.dict (s.parser d key) (s.parser d value)).Yields mode fs x)
    (he : e ∈ failures x) : Traced s roots ⟨.dict key value, mode, fs⟩ e := by
  rw [yields_dict] at h
  obtain ⟨ds, hds, rfl⟩ := h
  rw [failures_verdict] at he
  rcases List.mem_append.1 he with he | he
  · obtain ⟨f, hf, he⟩ := List.mem_flatMap.1 he
    exact traced_of_name (strayEntry_name he) (hfs.2 f hf).view_under
  obtain ⟨x, hx, he⟩ := List.mem_flatMap.1 he
  obtain ⟨i, hi, hplace, hkey, hvalue, -⟩ := forall₂_right hds x hx
  have hunder : (Path.ofView x.place).Under roots := by
    obtain ⟨o, ho, hname⟩ := Option.map_eq_some_iff.1 hplace
    exact hname ▸ (hfs.2 o (List.mem_of_find?_eq_some ho)).view_under
  rcases List.mem_append.1 he with he | he <;> obtain ⟨e', he', rfl⟩ := List.mem_map.1 he
  · have hpart : s.Part ⟨.dict key value, mode, fs⟩ ⟨key, mode, keyFields i fs⟩ := .key hi
    exact (traced_part hpart (part_rooted hpart hfs) hkey
      (fun hK => hk _ _ hK hkey) he').named hunder
  · have hpart : s.Part ⟨.dict key value, mode, fs⟩ ⟨value, mode, valueFields i fs⟩ := .value hi
    exact (traced_part hpart (part_rooted hpart hfs) hvalue
      (fun hK => hv _ _ hK hvalue) he').named hunder

/-- Below the top all errors are traced, by induction on the form. -/
theorem rooted_traced (hs : s.LeavesNames) (d : Nat) (form : Form) (mode : Mode) (fs : List Field)
    (x : Except FormErrors Value) (hfs : Rooted roots fs)
    (h : (s.parser d form).Yields mode fs x) :
    ∀ e ∈ failures x, Traced s roots ⟨form, mode, fs⟩ e := by
  intro e he
  induction d, form using Form.depth_induction generalizing mode fs x e with
  | leaf d l =>
    cases x with
    | ok v => cases he
    | error es =>
      rw [Schema.parser_leaf] at h
      obtain ⟨f, hf, hname⟩ := leaf_error_name (rules_giveReason l) hfs.1 h
      rcases hname e he with hn | hn | hempty
      · exact traced_of_name hn (hfs.2 f hf).name_under
      · exact traced_of_name hn (hfs.2 f hf).view_under
      · rw [(hfs.2 f hf).not_empty] at hempty
        cases hempty
  | list d item ih =>
    rw [Schema.parser_list, yields_list] at h
    obtain ⟨rs, hrs, rfl⟩ := h
    rw [failures_verdict, errorsOf_eq] at he
    obtain ⟨x, hx, he⟩ := List.mem_flatMap.1 he
    obtain ⟨g, hg, hy⟩ := forall₂_right hrs x hx
    have hpart : s.Part ⟨.list item, mode, fs⟩ ⟨item, mode, g⟩ := .item hg
    exact traced_part hpart (part_rooted hpart hfs) hy (fun hK => ih _ _ _ hK hy) he
  | dict d key value ihk ihv =>
    rw [Schema.parser_dict] at h
    exact dict_traced hfs (ihk _) (ihv _) h he
  | pair d left right ihl ihr =>
    rw [Schema.parser_pair, yields_pair] at h
    obtain ⟨x, y, hx, hy, rfl⟩ := h
    rw [failures_joinSides] at he
    rcases List.mem_append.1 he with he | he
    · rcases List.mem_append.1 he with he | he
      · obtain ⟨f, hf, he⟩ := List.mem_flatMap.1 he
        exact traced_of_name (straySide_name he) (hfs.2 f hf).view_under
      · have hpart : s.Part ⟨.pair left right, mode, fs⟩ _ := .left
        exact traced_part hpart (part_rooted hpart hfs) hx (fun hK => ihl _ _ _ hK hx) he
    · have hpart : s.Part ⟨.pair left right, mode, fs⟩ _ := .right
      exact traced_part hpart (part_rooted hpart hfs) hy (fun hK => ihr _ _ _ hK hy) he
  | zero t => cases h
  | succ d t ih =>
    rw [Schema.parser_succ] at h
    obtain ⟨ps, hd, -⟩ := yields_record.1 h
    rw [hd] at h
    rcases record_error hs hd h he with
      ⟨slots, hn, -⟩ | ⟨f, hf, rfl⟩ | ⟨m, -, hn | ⟨gs, y, hm, hne, hy, e', he', rfl⟩⟩
    · exact traced_of_nameless hn
    · exact traced_of_name (unexpected_name f) (hfs.2 f hf).name_under
    · exact traced_of_name hn (hfs.parts_under m.name)
    · have hpart : s.Part ⟨.record t, mode, fs⟩ ⟨m.form, mode, gs⟩ := .member hd hm hne
      exact (traced_part hpart (part_rooted hpart hfs) hy
        (fun hK => ih _ _ _ _ hK hy) he').named (hfs.parts_under m.name)
  | optional d item ih =>
    rw [Schema.parser_optional, yields_optional] at h
    obtain ⟨r, -, rfl⟩ := h
    cases he
  | result d item ih =>
    rw [Schema.parser_result, yields_result] at h
    obtain ⟨r, -, rfl⟩ := h
    cases he
  | forced d m item ih =>
    rw [Schema.parser_forced, yields_forced] at h
    have hpart : s.Part ⟨.forced m item, mode, fs⟩ ⟨item, m, fs⟩ := .forced
    exact traced_part hpart (part_rooted hpart hfs) h (fun hK => ih _ _ _ hK h) he
  | contextual d item ih =>
    rw [Schema.parser_contextual, yields_contextual] at h
    obtain ⟨r, -, rfl⟩ := h
    cases he
  | unimplemented d =>
    rw [Schema.parser_unimplemented] at h
    cases h

theorem parts_under_top (hfs : ∀ f ∈ fs, f.IsProper) (suffix : String) :
    (Path.ofParts (parentOf fs) suffix).Under (firstKeys fs) ∨ parentOf fs = none := by
  unfold parentOf
  cases hl : fs.getLast? with
  | none => exact .inr rfl
  | some f =>
    have hf := List.mem_of_getLast? hl
    exact ((hfs f hf).under hf).symm.imp (·.parts_under suffix) id

/-- The errors at the top are those of the constructor, or they are for submitted fields or for
members, or come from below with a name. -/
theorem top_error {t : RecordType} {ps : List RecordPart} {mode : Mode} (hs : s.LeavesNames)
    (hd : s.declaration t = .ok ps) (hfs : ∀ f ∈ fs, f.IsProper)
    (h : (s.parser d (.record t)).Yields mode fs x) (he : e ∈ failures x) :
    (∃ slots, failures x = s.objections t slots) ∨ ∃ p, e.name = some p ∧
      (p.Under (firstKeys fs) ∨ (∃ m, .member m ∈ ps ∧ p = .ofParts none m.name) ∨
        ∃ J, Relation.TransGen s.Part ⟨.record t, mode, fs⟩ J ∧ Nameless J.fields ∧
          J.Reports s e) := by
  cases d with
  | zero => cases h
  | succ d =>
    rw [Schema.parser_succ, hd] at h
    have hmember {m : Member} (hm : .member m ∈ ps) {e : FormError}
        (hn : e.name = some (.ofParts (parentOf fs) m.name)) :
        ∃ p, e.name = some p ∧
          (p.Under (firstKeys fs) ∨ ∃ m, .member m ∈ ps ∧ p = .ofParts none m.name) := by
      rcases parts_under_top hfs m.name with hp | hp
      · exact ⟨_, hn, .inl hp⟩
      · exact ⟨_, hn, .inr ⟨m, hm, by rw [hp]⟩⟩
    rcases record_error hs hd h he with
      ⟨slots, -, hx⟩ | ⟨f, hf, rfl⟩ | ⟨m, hm, hn | ⟨gs, y, hshare, hne, hy, e', he', rfl⟩⟩
    · exact .inl ⟨slots, hx⟩
    all_goals right
    · exact ⟨_, unexpected_name f, .inl ((hfs f hf).name_under hf)⟩
    · obtain ⟨p, hp, hor⟩ := hmember hm hn
      exact ⟨p, hp, hor.imp_right .inl⟩
    · cases hn : e'.name with
      | none =>
        obtain ⟨p, hp, hor⟩ := hmember hm (e := e'.named _) (by rw [Error.named_name, hn]; rfl)
        exact ⟨p, hp, hor.imp_right .inl⟩
      | some p =>
        rw [Error.named_of_name _ (by rw [hn]; exact Option.some_ne_none p)]
        have hpart : s.Part ⟨.record t, mode, fs⟩ ⟨m.form, mode, gs⟩ := .member hd hshare hne
        have hrooted : Rooted (firstKeys fs) gs := by
          refine ⟨hne, ?_⟩
          intro g hg
          obtain ⟨f, hf, rfl⟩ := mem_of_share hshare g hg
          exact (hfs f hf).shift_under hf
        refine ⟨p, hn, ?_⟩
        rcases traced_part hpart (.inr hrooted) hy
          (fun hK => rooted_traced hs d _ _ _ _ hK hy) he' with hp | hJ
        · exact .inl (hp p hn)
        · exact .inr (.inr hJ)

/-- The errors of a record at the top are those of its constructor or all have a name. It begins with
the first key of a submitted field or is that of a member of the record, unless the error comes as it
is from a part that does not know where it is. What such a part names is reported with that name. -/
theorem parse_attributed {t : RecordType} {ps : List RecordPart} {mode : Mode} {es : FormErrors}
    (hs : s.LeavesNames) (hd : s.declaration t = .ok ps) (hfs : ∀ f ∈ fs, f.IsProper)
    (h : s.parse (.record t) mode fs = .error (.errors es)) :
    ((∃ slots, es = s.objections t slots) ∨ ∀ e ∈ es, ∃ p, e.name = some p ∧
        (p.Under (firstKeys fs) ∨ (∃ m, .member m ∈ ps ∧ p = .ofParts none m.name) ∨
          ∃ J, Relation.TransGen s.Part ⟨.record t, mode, fs⟩ J ∧ Nameless J.fields ∧
            J.Reports s e)) ∧
      ∀ J, Relation.TransGen s.Part ⟨.record t, mode, fs⟩ J →
        ∀ e, J.Reports s e → e.name ≠ none → e ∈ es := by
  have hends : Job.Ends s ⟨.record t, mode, fs⟩ (.error es) :=
    Job.ends_iff.2 (Outcome.caught_eq_errors.2 h)
  constructor
  · obtain ⟨d, hyields⟩ := hends
    refine or_iff_not_imp_left.2 fun hslots e he => ?_
    exact (top_error hs hd hfs hyields he).resolve_left hslots
  · rintro J hJ e ⟨xs, hxs, he⟩ hn
    obtain ⟨x, hx, hup⟩ := parts_end hJ hends
    obtain rfl := hx.unique (Job.ends_iff.2 (Outcome.caught_eq_errors.2 hxs))
    exact hup e he hn

def kennelType : RecordType := ⟨0, "Kennel", false⟩
def puppyType : RecordType := ⟨1, "Puppy", false⟩

def kennelSchema : Schema :=
  { records := [.ok [.member ⟨"pet", "pet", [], .pair (.record puppyType) .integer, [], .unset⟩],
      .ok [.member ⟨"name", "name", [], .text, [], .unset⟩]] }

/-- Without fields a puppy does not know that it is at `pet.0`, and says that there is no `name`. -/
theorem puppy_astray :
    ∃ J, Relation.TransGen kennelSchema.Part
        ⟨.record kennelType, .strict, [.value (.ofText "pet.1" "5")]⟩ J ∧
      Nameless J.fields ∧
        J.Reports kennelSchema ((Error.ofKind .missing).named (.ofParts none "name")) := by
  have hparse : kennelSchema.parse (.record kennelType) .strict [.value (.ofText "pet.1" "5")] =
      .error (.errors [(Error.ofKind .missing).named (.ofParts none "name")]) := by
    cbv
  have hproper : ∀ f ∈ [Field.value (.ofText "pet.1" "5")], f.IsProper := by
    simp only [List.mem_singleton, forall_eq]
    exact ⟨.ofString "pet.1", 0, rfl, by decide, by decide⟩
  have hstandard : kennelSchema.IsStandard :=
    Schema.isStandard_of_records (by simp [kennelSchema]) fun _ _ => rfl
  have hnamed := (parse_attributed hstandard.leavesNames rfl hproper hparse).1
  obtain ⟨p, hp, h⟩ := hnamed.resolve_left (by rintro ⟨slots, h⟩; cases h) _
    (List.mem_singleton_self _)
  obtain rfl : .ofParts none "name" = p := Option.some.inj hp
  have hroots : firstKeys [Field.value (.ofText "pet.1" "5")] = ["pet"] := by cbv
  have hkeys : (Path.ofParts none "name").keys = ["name"] := by cbv
  rcases h with ⟨key, hkey, hhead⟩ | ⟨m, hm, hname⟩ | hpart
  · simp [hroots] at hkey
    simp [hkeys, hkey] at hhead
  · simp only [List.mem_singleton, RecordPart.member.injEq] at hm
    subst hm
    simp [Path.ofParts] at hname
  · exact hpart

end WebForm
