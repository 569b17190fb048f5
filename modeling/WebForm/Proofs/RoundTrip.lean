import Mathlib
import WebForm.Proofs.Depth.Adequacy
import WebForm.Proofs.Flatten.Value

/-!
# Submitting a value

The form of a value that is written out as fields makes the value again of these fields.
-/
namespace WebForm

section Makes

variable {s : Schema} {mode : Mode} {v w : Value}

/-- The parser makes the value of its fields, however far these have come. -/
def Parser.Makes (p : Parser) (s : Schema) (mode : Mode) (v : Value) : Prop :=
  ∀ b, p.run mode ((v.placed s).map (Placed.fieldFrom b)) = .ok v

section Leaf

variable {rules : LeafRules} {f : Field}

theorem run_leaf_single (h : rules.read f = .ok v) : (Parser.leaf rules).run mode [f] = .ok v := by
  have htaken : [f].foldlM (rules.settle mode) none = .ok (some (.ok v)) := by
    rw [List.foldlM_cons, LeafRules.settle, h]
    rfl
  exact run_leaf_eq_ok.2 ⟨_, htaken, .inl ⟨rfl, .inr le_rfl⟩⟩

theorem makes_text (limit : Option Int) (t : String) :
    (Parser.leaf (Leaf.text limit).rules).Makes s mode (.text t) := fun _ => run_leaf_single rfl

theorem makes_integer {i : Int} (h : (Nat.toDigits 10 i.natAbs).length ≤ digitLimit) :
    (Parser.leaf (Leaf.integer true none).rules).Makes s mode (.int i) := by
  intro b
  refine run_leaf_single ?_
  change ((readWhole _ (toString i)).map Value.int).mapError _ = _
  rw [readWhole, readInteger_toString h]
  rfl

theorem makes_boolean (c : Bool) :
    (Parser.leaf Leaf.boolean.rules).Makes s mode (.bool c) := by
  intro b
  have hread : readTruth (if c then "true" else "false") = .ok (.bool c) := by
    cases c <;> rfl
  refine run_leaf_single ?_
  change (readTruth (if c then "true" else "false")).mapError _ = _
  rw [hread]
  rfl

end Leaf

theorem makes_list {item : Parser} {vs : List Value} (he : item.Explains)
    (hne : ∀ v ∈ vs, v.placed s ≠ []) (hs : ∀ v ∈ vs, ∀ p ∈ v.placed s, p.Sound)
    (h : ∀ v ∈ vs, item.Makes s mode v) : (Parser.list item).Makes s mode (.list vs) := by
  intro b
  have hplaced : ∀ r ∈ itemBranches s 0 vs, r.placed ≠ [] := by
    intro r hr
    obtain ⟨j, v, hv, rfl⟩ := mem_itemBranches hr
    exact hne v hv
  rw [Value.placed, Branch.map_spread, run_list_eq_ok he,
    Branch.pieces_branches (sound_items hs 0) hplaced (isChain_itemBranches vs)]
  refine ⟨vs, ?_, rfl⟩
  rw [List.forall₂_map_left_iff]
  refine forall₂_imp_on (fun r _ v hv hrv => ?_) (itemBranches_forall₂ vs)
  rw [Branch.inner, hrv]
  exact h v hv _

theorem makes_pair {left right : Parser} (hv : ∀ p ∈ v.placed s, p.Sound)
    (hw : ∀ p ∈ w.placed s, p.Sound) (hl : left.Makes s mode v) (hr : right.Makes s mode w) :
    (Parser.pair left right).Makes s mode (.tuple [v, w]) := by
  intro b
  have hs : ∀ r ∈ itemBranches s 0 [v, w], r.Sound := by
    refine sound_items (fun u hu => ?_) 0
    rcases List.mem_pair.1 hu with rfl | rfl
    · exact hv
    · exact hw
  have hkey (r : Branch) (hr : r ∈ itemBranches s 0 [v, w]) (f : Field) (hf : f ∈ r.fields b)
      (k : Key) : f.isFor k = decide (r.key = k) := by
    rw [Field.isFor, Branch.key_of_mem (hs r hr) hf]
    simp
  have hside (k : Key) := @Branch.handed_branches b _ (Field.isFor k) (fun l => decide (l = k)) hs
    fun r hr f hf => hkey r hr f hf k
  rw [Value.placed, Branch.map_spread, run_pair_eq_ok, hside, hside]
  refine ⟨fun f hf => ?_, v, w, ?_, ?_, rfl⟩
  · obtain ⟨r, hr, hf⟩ := List.mem_flatMap.1 hf
    rw [hkey r hr f hf, hkey r hr f hf]
    rcases List.mem_pair.1 hr with rfl | rfl
    · exact .inl (decide_eq_true rfl)
    · exact .inr (decide_eq_true rfl)
  · have hleft : (itemBranches s 0 [v, w]).filter (fun r => decide (r.key = "0")) =
        [⟨"0", v.placed s⟩] := rfl
    rw [hleft, List.flatMap_singleton]
    exact hl _
  · have hright : (itemBranches s 0 [v, w]).filter (fun r => decide (r.key = "1")) =
        [⟨"1", w.placed s⟩] := rfl
    rw [hright, List.flatMap_singleton]
    exact hr _

section Dict

variable {es items : List (Value × Value)}

theorem insert_text {k : Key} (h : ∀ e ∈ items, ∃ j, e.1 = .text j ∧ j ≠ k) :
    Value.insert (.text k) v items = items ++ [(.text k, v)] := by
  induction items with
  | nil => rfl
  | cons e items ih =>
    rcases e with ⟨x, w⟩
    obtain ⟨j, hx, hj⟩ := h _ List.mem_cons_self
    obtain rfl : x = .text j := hx
    have hsame : Value.sameKey (.text j) (.text k) = false := by
      simp [Value.sameKey, Value.same, hj]
    rw [Value.insert, hsame, ih fun e he => h e (List.mem_cons_of_mem _ he)]
    rfl

theorem setAll_texts (hk : ∀ e ∈ es, ∃ k, e.1 = .text k)
    (hn : (es.map fun e => e.1.asKey).Nodup) : setAll [] es = es := by
  have happend (items : List (Value × Value))
      (h : ∀ e ∈ items, ∃ j, e.1 = .text j ∧ j ∉ es.map fun e => e.1.asKey) :
      setAll items es = items ++ es := by
    induction es generalizing items with
    | nil => rw [List.append_nil]; rfl
    | cons e es ih =>
      rcases e with ⟨x, w⟩
      obtain ⟨k, hx⟩ := hk _ List.mem_cons_self
      obtain rfl : x = .text k := hx
      obtain ⟨hkes, hn⟩ := List.nodup_cons.1 hn
      have hinsert : Value.insert (.text k) w items = items ++ [(.text k, w)] := by
        refine insert_text fun e he => ?_
        obtain ⟨j, hj, hne⟩ := h e he
        exact ⟨j, hj, fun hjk => hne (hjk ▸ List.mem_cons_self)⟩
      have hstep : setAll items ((.text k, w) :: es) = setAll (items ++ [(.text k, w)]) es := by
        rw [← hinsert]
        rfl
      rw [hstep, ih (fun e he => hk e (List.mem_cons_of_mem _ he)) hn, List.append_assoc,
        List.singleton_append]
      intro e he
      rcases List.mem_append.1 he with he | he
      · obtain ⟨j, hj, hne⟩ := h e he
        exact ⟨j, hj, fun hmem => hne (List.mem_cons_of_mem _ hmem)⟩
      · obtain rfl := List.mem_singleton.1 he
        exact ⟨k, rfl, hkes⟩
  exact happend [] fun _ he => absurd he List.not_mem_nil

theorem makes_dict {value : Parser} {limit : Option Int} (hv : value.Explains)
    (hk : ∀ e ∈ es, ∃ k : Key, e.1 = .text k ∧ k.Sound ∧ ':' ∉ k.toList)
    (hn : (es.map fun e => e.1.asKey).Nodup) (hne : ∀ e ∈ es, e.2.placed s ≠ [])
    (hsound : ∀ e ∈ es, ∀ p ∈ e.2.placed s, p.Sound) (h : ∀ e ∈ es, value.Makes s mode e.2) :
    (Parser.dict (.leaf (Leaf.text limit).rules) value).Makes s mode (.dict es) := by
  intro b
  have hs := sound_entries hk hsound
  have hsingle : ∀ r ∈ entryBranches s es, r.Single := by
    intro r hr
    rw [entryBranches_eq] at hr
    obtain ⟨e, he, rfl⟩ := List.mem_map.1 hr
    obtain ⟨k, hkey, -, hcolon⟩ := hk e he
    rw [Branch.Single, hkey]
    exact hcolon
  have hplaced : ∀ r ∈ entryBranches s es, r.placed ≠ [] := by
    intro r hr
    rw [entryBranches_eq] at hr
    obtain ⟨e, he, rfl⟩ := List.mem_map.1 hr
    exact hne e he
  have hkeys : (entryBranches s es).map Branch.key = es.map fun e => e.1.asKey := by
    rw [entryBranches_eq, List.map_map]
    rfl
  have hnodup : ((entryBranches s es).map Branch.key).Nodup := hkeys ▸ hn
  rw [Value.placed, Branch.map_spread, run_dict_eq_ok (leaf_explains (rules_explains _)) hv]
  refine ⟨fun f hf => ?_, es, ?_, congrArg Value.dict (setAll_texts (fun e he => ?_) hn)⟩
  · obtain ⟨r, hr, hf⟩ := List.mem_flatMap.1 hf
    rw [Branch.target_of_mem (hs r hr) (hsingle r hr) hf]
    exact Option.some_ne_none _
  · rw [Branch.entered_branches hs hsingle hplaced hnodup, hkeys, List.forall₂_map_left_iff,
      List.forall₂_same]
    intro e he
    obtain ⟨k, hkey, -⟩ := hk e he
    have hmem : ⟨e.1.asKey, e.2.placed s⟩ ∈ entryBranches s es := by
      rw [entryBranches_eq]
      exact List.mem_map_of_mem he
    have hfields := Branch.valueFields_branch (b := b) hs hsingle hnodup hmem
    have hkeyFields := Branch.keyFields_branch (b := b) hs hsingle hplaced hnodup hmem
    rw [hfields, hkeyFields, hkey]
    exact ⟨run_leaf_single rfl, h e he _, rfl⟩
  · obtain ⟨k, hkey, -⟩ := hk e he
    exact ⟨k, hkey⟩

end Dict

section Record

variable {parserOf : Form → Parser} {ps : List RecordPart} {slots : List (String × Slot Value)}

theorem memberRun_slot {p : Parser} {m : Member} {x : Slot Value} {gs : List Field}
    (hgs : gs = [] ↔ slotPlaced s x = []) (hm : m.checks = []) (ha : m.Admits s x)
    (h : ∀ w, x = .own w → (w.placed s = [] → m.fallback = .unset) → p.run mode gs = .ok w) :
    MemberRun p mode m gs x := by
  rcases ha with ⟨hx, hset, hnil⟩ | ⟨w, rfl, hw⟩
  · exact .inl ⟨hgs.2 hnil, member_absent_eq_ok.2 (.inr ⟨hx ▸ hset, hx⟩)⟩
  · have hrun := h w rfl hw
    by_cases hnil : w.placed s = []
    · obtain rfl := hgs.2 hnil
      exact .inl ⟨rfl, member_absent_eq_ok.2 (.inl ⟨hw hnil, w, hrun, rfl⟩)⟩
    · have hchecks : ∀ c ∈ m.checks, c.Passes w := by
        intro c hc
        rw [hm] at hc
        cases hc
      exact .inr ⟨fun hn => hnil (hgs.1 hn), w, hrun, hchecks, rfl⟩

theorem partRuns_slots {b : List Char} (hfill : List.Forall₂ (Filled s) ps slots)
    (hapart : ps.Pairwise RecordPart.Apart) (hs : ∀ r ∈ slotBranches s ps slots, r.Sound)
    (h : ∀ m a w, (.member m, (a, .own w)) ∈ ps.zip slots →
      (w.placed s = [] → m.fallback = .unset) → (parserOf m.form).Makes s mode w) :
    List.Forall₂ (PartRun parserOf mode)
      (shares ps ((slotBranches s ps slots).flatMap (Branch.fields b))) slots := by
  induction hfill with
  | nil => exact .nil
  | @cons part slot ps slots hpart _ ih =>
    obtain ⟨hfirst, hlater⟩ := List.pairwise_cons.1 hapart
    have h' (m a w) (hw : (RecordPart.member m, (a, Slot.own w)) ∈ ps.zip slots) :=
      h m a w (List.mem_cons_of_mem _ hw)
    cases part with
    | constant a x =>
      obtain rfl : slot = (a, x) := hpart
      exact .cons ⟨rfl, rfl⟩ (ih hlater hs h')
    | member m =>
      rcases slot with ⟨a, x⟩
      obtain ⟨ha, hchecks, -, hadmits⟩ := hpart
      have hs : ∀ r ∈ ⟨m.name, slotPlaced s x⟩ :: slotBranches s ps slots, r.Sound := hs
      have hto : ∀ r ∈ ⟨m.name, slotPlaced s x⟩ :: slotBranches s ps slots, ∀ f ∈ r.fields b,
          f.isTo m = decide (r.key ∈ m.names) := by
        intro r _ f hf
        rw [Field.isTo, Branch.keyText_of_mem hf]
      have hown : decide (m.name ∈ m.names) = true := decide_eq_true List.mem_cons_self
      have hother : ∀ r ∈ slotBranches s ps slots, decide (r.key ∈ m.names) = false := by
        intro r hr
        obtain ⟨n, c, y, hy, rfl⟩ := mem_slotBranches hr
        exact decide_eq_false (hfirst _ (List.of_mem_zip hy).1)
      have hhanded : handed (Field.isTo m)
          ((⟨m.name, slotPlaced s x⟩ :: slotBranches s ps slots).flatMap (Branch.fields b)) =
            Branch.inner b ⟨m.name, slotPlaced s x⟩ := by
        have hnone : (slotBranches s ps slots).filter (fun r => decide (r.key ∈ m.names)) = [] :=
          List.filter_eq_nil_iff.2 fun r hr => by rw [hother r hr]; exact Bool.false_ne_true
        have hbranches :=
          @Branch.handed_branches b _ (Field.isTo m) (fun k => decide (k ∈ m.names)) hs hto
        rw [hbranches, List.filter_cons, if_pos hown, hnone, List.flatMap_singleton]
      have hrest : ((⟨m.name, slotPlaced s x⟩ :: slotBranches s ps slots).flatMap
          (Branch.fields b)).filter (!Field.isTo m ·) =
            (slotBranches s ps slots).flatMap (Branch.fields b) := by
        have hall : (slotBranches s ps slots).filter (fun r => !decide (r.key ∈ m.names)) =
            slotBranches s ps slots :=
          List.filter_eq_self.2 fun r hr => by rw [hother r hr]; rfl
        have hbranches := @Branch.filter_branches b _ (!Field.isTo m ·)
          (fun k => !decide (k ∈ m.names)) fun r hr f hf => congrArg (!·) (hto r hr f hf)
        rw [hbranches, List.filter_cons, if_neg (by rw [hown]; exact Bool.false_ne_true), hall]
      have hshape : slotBranches s (.member m :: ps) ((a, x) :: slots) =
          ⟨m.name, slotPlaced s x⟩ :: slotBranches s ps slots := rfl
      rw [hshape, shares, hhanded, hrest]
      have hslots := ih hlater (fun r hr => hs r (List.mem_cons_of_mem _ hr)) h'
      refine .cons ⟨ha, memberRun_slot ?_ hchecks hadmits fun w hw hunset => ?_⟩ hslots
      · exact Branch.inner_eq_nil
      · subst hw
        exact h m a w List.mem_cons_self hunset (b ++ Key.marked m.name)

theorem makes_record {t : RecordType} (hp : ∀ form, (parserOf form).Explains)
    (hd : s.declaration t = .ok ps) (hfill : List.Forall₂ (Filled s) ps slots)
    (hapart : ps.Pairwise RecordPart.Apart) (hs : ∀ r ∈ slotBranches s ps slots, r.Sound)
    (h : ∀ m a w, (.member m, (a, .own w)) ∈ ps.zip slots →
      (w.placed s = [] → m.fallback = .unset) → (parserOf m.form).Makes s mode w)
    (ho : s.objections t slots = []) :
    (Parser.record t (s.declaration t) (s.objections t) parserOf).Makes s mode
      (.record t slots) := by
  intro b
  rw [Value.placed, hd, Branch.map_spread, run_record_eq_ok hp]
  refine ⟨ps, rfl, fun f hf => .inl ?_, slots, partRuns_slots hfill hapart hs h, ho, rfl⟩
  obtain ⟨r, hr, hf⟩ := List.mem_flatMap.1 hf
  obtain ⟨m, a, x, hx, rfl⟩ := mem_slotBranches hr
  rw [Branch.keyText_of_mem hf]
  exact List.any_eq_true.2 ⟨.member m, (List.of_mem_zip hx).1, decide_eq_true List.mem_cons_self⟩

end Record

/-- Every parser that is deeper than the value makes it. -/
theorem fits_makes {form : Form} {d : Nat} (h : Fits s form v) (hd : sizeOf v ≤ d) :
    (s.parser d form).Makes s mode v := by
  -- a value is larger than its parts, and only records take a step of the depth
  induction h generalizing d with
  | @text limit t =>
    rw [Schema.parser_leaf]
    exact makes_text limit t
  | integer hi =>
    rw [Form.integer, Schema.parser_leaf]
    exact makes_integer hi
  | @boolean c =>
    rw [Form.boolean, Schema.parser_leaf]
    exact makes_boolean c
  | @list item vs hne hvs ih =>
    rw [Schema.parser_list]
    refine makes_list (parser_explains s d item) hne (fun v hv => placed_sound (hvs v hv)) ?_
    intro v hv
    have hsize := List.sizeOf_lt_of_mem hv
    rw [Value.list.sizeOf_spec] at hd
    exact ih v hv (by omega)
  | @dict limit value es hk hn hne hes ih =>
    rw [Schema.parser_dict, Schema.parser_leaf]
    refine makes_dict (parser_explains s d value) hk hn hne
      (fun e he => placed_sound (hes e he)) ?_
    rintro ⟨k, v⟩ he
    have hsize := List.sizeOf_lt_of_mem he
    rw [Prod.mk.sizeOf_spec] at hsize
    rw [Value.dict.sizeOf_spec] at hd
    exact ih (k, v) he (by change sizeOf v ≤ d; omega)
  | @pair left right v w hv hw ihv ihw =>
    rw [Schema.parser_pair]
    rw [Value.tuple.sizeOf_spec, List.cons.sizeOf_spec, List.cons.sizeOf_spec] at hd
    exact makes_pair (placed_sound hv) (placed_sound hw) (ihv (by omega)) (ihw (by omega))
  | @record t ps slots hdecl hapart hfill hslots ho ih =>
    rw [Value.record.sizeOf_spec] at hd
    obtain ⟨d, rfl⟩ : ∃ k, d = k + 1 := ⟨d - 1, by omega⟩
    rw [Schema.parser_succ]
    refine makes_record (parser_explains s d) hdecl hfill hapart
      (sound_slots hfill fun m a w hw hunset => placed_sound (hslots m a w hw hunset)) ?_ ho
    intro m a w hw hunset
    have hsize := List.sizeOf_lt_of_mem (List.of_mem_zip hw).2
    rw [Prod.mk.sizeOf_spec, Slot.own.sizeOf_spec] at hsize
    exact ih m a w hw hunset (by omega)

end Makes

/-- Submitting a value gives it back, in either mode. -/
theorem parse_fields {s : Schema} {form : Form} {v : Value} (h : Fits s form v) (mode : Mode) :
    s.parse form mode (v.fields s) = .ok v := by
  have hfields : v.fields s = (v.placed s).map (Placed.fieldFrom []) :=
    List.map_congr_left fun p hp => Placed.field_eq (placed_sound h p hp)
  rw [hfields]
  exact Schema.parse_of_run (fits_makes h le_rfl [])

def partyType : RecordType := ⟨0, "Party", false⟩

def partyParts : List RecordPart :=
  [.member ⟨"host", "host", [], .text, [], .unset⟩,
    .member ⟨"guests", "guest", ["guests"], .list .text, [], .own (.list [])⟩,
    .member ⟨"gifts", "gift", [], .dict .text (.pair .integer .boolean), [], .unset⟩]

def partySchema : Schema := { records := [.ok partyParts] }

def quietParty : Value :=
  .record partyType [("host", .own (.text "Ada")), ("guests", .own (.list [])),
    ("gifts", .own (.dict [(.text "book", .tuple [.int (-3), .bool true])]))]

theorem quietParty_fits : Fits partySchema (.record partyType) quietParty := by
  have hbook : Key.Sound "book" := by simp [Key.Sound]
  have hname : Key.Sound "host" ∧ Key.Sound "guest" ∧ Key.Sound "gift" := by simp [Key.Sound]
  have hdigits : (Nat.toDigits 10 (-3 : Int).natAbs).length ≤ digitLimit := by decide
  have hgifts : Fits partySchema (.dict .text (.pair .integer .boolean))
      (.dict [(.text "book", .tuple [.int (-3), .bool true])]) := by
    refine .dict ?_ (by decide) ?_ ?_
    · intro e he
      obtain rfl := List.mem_singleton.1 he
      exact ⟨"book", rfl, hbook, by decide⟩
    · intro e he
      obtain rfl := List.mem_singleton.1 he
      exact List.cons_ne_nil _ _
    · intro e he
      obtain rfl := List.mem_singleton.1 he
      exact .pair (.integer hdigits) .boolean
  have hfill : List.Forall₂ (Filled partySchema) partyParts
      [("host", .own (.text "Ada")), ("guests", .own (.list [])),
        ("gifts", .own (.dict [(.text "book", .tuple [.int (-3), .bool true])]))] :=
    .cons ⟨rfl, rfl, hname.1, .inr ⟨_, rfl, fun _ => rfl⟩⟩ <|
      .cons ⟨rfl, rfl, hname.2.1, .inl ⟨rfl, nofun, rfl⟩⟩ <|
        .cons ⟨rfl, rfl, hname.2.2, .inr ⟨_, rfl, fun _ => rfl⟩⟩ .nil
  refine .record rfl ?_ hfill (fun m a w hw hunset => ?_) rfl
  · simp [partyParts, RecordPart.Apart, Member.names]
  · simp only [partyParts, List.zip_cons_cons, List.zip_nil_right, List.mem_cons, Prod.mk.injEq,
      RecordPart.member.injEq, Slot.own.injEq, List.not_mem_nil, or_false] at hw
    rcases hw with ⟨rfl, -, rfl⟩ | ⟨rfl, -, rfl⟩ | ⟨rfl, -, rfl⟩
    · exact .text
    · exact .list nofun nofun
    · exact hgifts

theorem quietParty_parse :
    partySchema.parse (.record partyType) .lenient (quietParty.fields partySchema) =
        .ok quietParty ∧
      partySchema.parse (.record partyType) .strict (quietParty.fields partySchema) =
        .ok quietParty :=
  ⟨parse_fields quietParty_fits .lenient, parse_fields quietParty_fits .strict⟩

example : quietParty.fields partySchema =
    [.value (.ofText "[host]" "Ada"), .value (.ofText "[gift][book][0]" "-3"),
      .value (.ofText "[gift][book][1]" "true")] := by
  cbv

end WebForm
