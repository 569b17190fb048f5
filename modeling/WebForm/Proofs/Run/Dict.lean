import Mathlib
import WebForm.Proofs.Run.Basic

/-!
# Runs of dictionaries

A dictionary has one entry for each index that comes up, in the order of their first fields. The key
and the value of an entry run on their own fields, whatever the order between entries. The key of
an entry that was first named directly is fed a nameless field before all others.
-/
namespace WebForm

def DictTarget.isDirect : DictTarget → Bool
  | .entry _ => true
  | _ => false

def DictTarget.index? : DictTarget → Option String
  | .entry i | .entryKey i | .entryValue i => some i
  | .nowhere _ _ => none

def DictTarget.toKey? : DictTarget → Option String
  | .entryKey i => some i
  | _ => none

def DictTarget.toValue? : DictTarget → Option String
  | .entry i | .entryValue i => some i
  | _ => none

theorem DictTarget.index_eq_some {t : DictTarget} {i : String} (h : t.index? = some i) :
    t = .entry i ∨ t = .entryKey i ∨ t = .entryValue i := by
  cases t <;> cases h <;> simp

def Field.target (f : Field) : DictTarget := .ofKey f.name.key?

def Field.isOf (i : String) (f : Field) : Bool := f.target.index? == some i
def Field.isKeyOf (i : String) (f : Field) : Bool := f.target.toKey? == some i
def Field.isValueOf (i : String) (f : Field) : Bool := f.target.toValue? == some i

def enter (is : List String) (f : Field) : List String :=
  match f.target.index? with
  | some i => if i ∈ is then is else is ++ [i]
  | none => is

/-- The indices of the entries. -/
def entered (fs : List Field) : List String := fs.foldl enter []

def opener (i : String) (fs : List Field) : Option Field := fs.find? (Field.isOf i)

def keyFields (i : String) (fs : List Field) : List Field :=
  (if (opener i fs).any (·.target.isDirect) then [.value (.nameless i)] else []) ++
    handed (Field.isKeyOf i) fs

def valueFields (i : String) (fs : List Field) : List Field := handed (Field.isValueOf i) fs

def strayEntry (f : Field) : FormErrors :=
  match f.target with
  | .nowhere k e => [⟨k, e, some (.ofView f.name), none⟩]
  | _ => []

section Entered

variable {fs : List Field} {f : Field} {i : String}

theorem entered_snoc (fs : List Field) (f : Field) :
    entered (fs ++ [f]) = enter (entered fs) f := by
  rw [entered, List.foldl_append]
  rfl

theorem mem_enter {is : List String} : i ∈ enter is f ↔ i ∈ is ∨ f.target.index? = some i := by
  unfold enter
  cases f.target.index? with
  | none => simp
  | some j =>
    by_cases h : j ∈ is
    · simp only [h, if_true, Option.some.injEq]
      constructor
      · exact Or.inl
      · rintro (hi | rfl)
        · exact hi
        · exact h
    · simp [h, eq_comm]

theorem mem_entered : i ∈ entered fs ↔ ∃ f ∈ fs, f.target.index? = some i := by
  induction fs using List.reverseRecOn with
  | nil => simp [entered]
  | append_singleton fs f ih => simp [entered_snoc, mem_enter, ih, or_and_right, exists_or]

theorem nodup_entered (fs : List Field) : (entered fs).Nodup := by
  induction fs using List.reverseRecOn with
  | nil => exact List.nodup_nil
  | append_singleton fs f ih =>
    rw [entered_snoc, enter]
    cases f.target.index? with
    | none => exact ih
    | some j =>
      by_cases h : j ∈ entered fs
      · simpa only [h, if_true] using ih
      · simp only [h, if_false]
        exact List.nodup_append.2 ⟨ih, by simp, by
          rintro a ha b hb rfl
          exact h (by simpa using List.mem_singleton.1 hb ▸ ha)⟩

theorem opener_none (h : i ∉ entered fs) : opener i fs = none := by
  refine List.find?_eq_none.2 fun f hf hi => h (mem_entered.2 ⟨f, hf, ?_⟩)
  simpa [Field.isOf] using hi

theorem opener_some (h : i ∈ entered fs) : ∃ o, opener i fs = some o := by
  obtain ⟨g, hg, hi⟩ := mem_entered.1 h
  exact Option.isSome_iff_exists.1 (List.find?_isSome.2 ⟨g, hg, by simp [Field.isOf, hi]⟩)

theorem handed_eq_nil {q : DictTarget → Option String} (hq : ∀ t, q t = some i → t.index? = some i)
    (h : i ∉ entered fs) : handed (fun f => q f.target == some i) fs = [] := by
  rw [handed, List.map_eq_nil_iff, List.filter_eq_nil_iff]
  exact fun g hg hgi => h (mem_entered.2 ⟨g, hg, hq _ (by simpa using hgi)⟩)

theorem handed_key_nil (h : i ∉ entered fs) : handed (Field.isKeyOf i) fs = [] :=
  @handed_eq_nil _ _ DictTarget.toKey? (fun t ht => by cases t <;> first | exact ht | cases ht) h

theorem handed_value_nil (h : i ∉ entered fs) : handed (Field.isValueOf i) fs = [] :=
  @handed_eq_nil _ _ DictTarget.toValue? (fun t ht => by cases t <;> first | exact ht | cases ht) h

theorem opener_snoc (fs : List Field) (f : Field) (i : String) :
    opener i (fs ++ [f]) = (opener i fs).or (opener i [f]) := List.find?_append

end Entered

namespace DictState

variable {key value : Parser} {i : String}
  {g : DictEntry key.State value.State → Step (DictEntry key.State value.State)}
  {R R' : String → DictEntry key.State value.State → Prop} {is : List String}
  {es es' : List (DictEntry key.State value.State)}

/-- A change at one index takes entries that stand in one way to entries that stand in another, if
it does so at this index and the two ways are the same elsewhere. -/
theorem change_eq_ok (hi : i ∈ is) (hn : is.Nodup) (hR : ∀ j e, R j e → e.index = j)
    (hother : ∀ j e, j ≠ i → (R' j e ↔ R j e))
    (hat : ∀ e', R' i e' ↔ ∃ e, R i e ∧ (g e).result = .ok e') :
    List.Forall₂ R' is es' ↔
      ∃ es, List.Forall₂ R is es ∧ (change i g es).result = .ok es' := by
  induction is generalizing es' with
  | nil => cases hi
  | cons j is ih =>
    obtain ⟨hj, hn⟩ := List.nodup_cons.1 hn
    simp only [List.forall₂_cons_left_iff]
    by_cases hij : j = i
    · subst hij
      have hne (k : String) (hk : k ∈ is) : k ≠ j := fun hkj => hj (hkj ▸ hk)
      have hrest (es : List (DictEntry key.State value.State)) :
          List.Forall₂ R' is es ↔ List.Forall₂ R is es :=
        ⟨forall₂_imp_on fun k hk e _ => (hother k e (hne k hk)).1,
          forall₂_imp_on fun k hk e _ => (hother k e (hne k hk)).2⟩
      constructor
      · rintro ⟨e', es', he, hes, rfl⟩
        obtain ⟨e, he, hg⟩ := (hat e').1 he
        refine ⟨e :: es', ⟨e, es', he, (hrest _).1 hes, rfl⟩, ?_⟩
        rw [change, if_pos (hR _ _ he), Step.result_map, hg]
        rfl
      · rintro ⟨_, ⟨e, es, he, hes, rfl⟩, hc⟩
        rw [change, if_pos (hR _ _ he), Step.result_map_eq_ok] at hc
        obtain ⟨e', hg, rfl⟩ := hc
        exact ⟨e', es, (hat e').2 ⟨e, he, hg⟩, (hrest _).2 hes, rfl⟩
    · have hi : i ∈ is := (List.mem_cons.1 hi).resolve_left (Ne.symm hij)
      constructor
      · rintro ⟨e', es', he, hes, rfl⟩
        obtain ⟨es, hes, hc⟩ := (ih hi hn).1 hes
        have he := (hother j e' hij).1 he
        refine ⟨e' :: es, ⟨e', es, he, hes, rfl⟩, ?_⟩
        rw [change, if_neg (by rw [hR _ _ he]; exact hij), Step.result_map, hc]
        rfl
      · rintro ⟨_, ⟨e, es, he, hes, rfl⟩, hc⟩
        rw [change, if_neg (by rw [hR _ _ he]; exact hij), Step.result_map_eq_ok] at hc
        obtain ⟨es', hc, rfl⟩ := hc
        exact ⟨e, es', (hother j e hij).2 he, (ih hi hn).2 ⟨es, hes, hc⟩, rfl⟩

theorem change_last (h : ∀ e ∈ es, e.index ≠ i) (e : DictEntry key.State value.State)
    (he : e.index = i) :
    (change i g (es ++ [e])).result = (g e).result >>= fun e => .ok (es ++ [e]) := by
  induction es with
  | nil => rw [List.nil_append, change, if_pos he, Step.result_map, map_eq_bind]; rfl
  | cons d es ih =>
    have hd : ¬d.index = i := h d List.mem_cons_self
    have hrest : ∀ e ∈ es, e.index ≠ i := fun e he => h e (List.mem_cons_of_mem _ he)
    rw [List.cons_append, change, if_neg hd, Step.result_map, ih hrest]
    cases (g e).result <;> rfl

def fresh (mode : Mode) (direct : Bool) (i : String) (place : View) :
    Except Fault (DictEntry key.State value.State) := do
  let k ← key.init mode
  let v ← value.init mode
  match direct with
  | true => (pushKey (.value (.nameless i)) ⟨i, place, k, v⟩).result
  | false => .ok ⟨i, place, k, v⟩

def serve (f : Field) (e : DictEntry key.State value.State) :
    Step (DictEntry key.State value.State) :=
  match f.target with
  | .entryKey _ => pushKey f.shift e
  | _ => pushValue f.shift e

def feedEntries (mode : Mode) (f : Field) (es : List (DictEntry key.State value.State)) :
    Except Fault (List (DictEntry key.State value.State)) :=
  match f.target.index? with
  | none => .ok es
  | some i =>
    if es.any (·.index = i) then (change i (serve f) es).result
    else fresh mode f.target.isDirect i f.name >>= fun e =>
      (change i (serve f) (es ++ [e])).result

variable {s : DictState key.State value.State} {f : Field} {place : View}

theorem result_touch :
    (s.touch i place).result =
      if s.has i then .ok s
      else fresh s.mode false i place >>= fun e => .ok { s with entries := s.entries ++ [e] } := by
  unfold touch
  split_ifs
  · rfl
  · unfold add fresh
    cases key.init s.mode <;> cases value.init s.mode <;> rfl

theorem result_update :
    (s.update i g).result = (change i g s.entries).result >>= fun es =>
      .ok { s with entries := es } := by
  rw [update, Step.result_map, map_eq_bind]

theorem result_touchNamed :
    (s.touchNamed i place).result =
      if s.has i then .ok s
      else fresh s.mode true i place >>= fun e => .ok { s with entries := s.entries ++ [e] } := by
  unfold touchNamed
  split_ifs with h
  · rfl
  · have hi : ∀ e ∈ s.entries, e.index ≠ i := by simpa [has] using h
    unfold add fresh
    cases key.init s.mode with
    | error e => rfl
    | ok k =>
      cases value.init s.mode with
      | error e => rfl
      | ok v =>
        simp only [bind_ok, Step.result_andThen, Step.result_done, result_update,
          change_last hi ⟨i, place, k, v⟩ rfl, bind_assoc]

def opened (s : DictState key.State value.State) (direct : Bool) (i : String) (place : View) :
    Step (DictState key.State value.State) :=
  match direct with
  | true => s.touchNamed i place
  | false => s.touch i place

theorem result_opened {direct : Bool} :
    (s.opened direct i place).result =
      if s.has i then .ok s
      else fresh s.mode direct i place >>= fun e => .ok { s with entries := s.entries ++ [e] } := by
  cases direct
  · exact result_touch
  · exact result_touchNamed

theorem push_eq (h : f.target.index? = some i) :
    s.push f = (s.opened f.target.isDirect i f.name).andThen (·.update i (serve f)) := by
  have hserve : (serve f : DictEntry key.State value.State → _) =
      match f.target with
      | .entryKey _ => pushKey f.shift
      | _ => pushValue f.shift := by
    funext e
    unfold serve
    cases f.target <;> rfl
  rw [hserve]
  unfold push
  unfold Field.target at h ⊢
  cases ht : DictTarget.ofKey f.name.key? <;> rw [ht] at h <;> cases h <;> rfl

theorem feed_dict (mode : Mode) (es : List (DictEntry key.State value.State)) (xs : FormErrors)
    (f : Field) :
    (Parser.dict key value).feed ⟨mode, es, xs⟩ f =
      feedEntries mode f es >>= fun es => .ok ⟨mode, es, xs ++ strayEntry f⟩ := by
  change (push ⟨mode, es, xs⟩ f).result = _
  unfold feedEntries
  cases h : f.target.index? with
  | none =>
    unfold push strayEntry
    unfold Field.target at h ⊢
    cases ht : DictTarget.ofKey f.name.key? <;> rw [ht] at h
    case nowhere => rfl
    all_goals cases h
  | some i =>
    have hs : strayEntry f = [] := by
      rcases DictTarget.index_eq_some h with hf | hf | hf <;> rw [strayEntry, hf]
    rw [push_eq h, Step.result_andThen, result_opened, hs, List.append_nil]
    simp only [has, result_update]
    by_cases he : es.any (·.index = i) = true
    · simp only [he, if_true, bind_ok]
    · simp only [he, Bool.false_eq_true, if_false, bind_assoc, bind_ok]

def Keeps (mode : Mode) (fs : List Field) (i : String) (e : DictEntry key.State value.State) :
    Prop :=
  e.index = i ∧ (opener i fs).map Field.name = some e.place ∧
    key.reach mode (keyFields i fs) = .ok e.key ∧ value.reach mode (valueFields i fs) = .ok e.value

variable {mode : Mode} {fs : List Field} {e : DictEntry key.State value.State}

theorem keeps_other {j : String} (h : f.target.index? ≠ some j) :
    Keeps mode (fs ++ [f]) j e ↔ Keeps mode fs j e := by
  have ho : opener j [f] = none := by simp [opener, Field.isOf, h]
  have hk : Field.isKeyOf j f = false := by
    unfold Field.isKeyOf
    cases hf : f.target <;> simp_all [DictTarget.toKey?, DictTarget.index?]
  have hv : Field.isValueOf j f = false := by
    unfold Field.isValueOf
    cases hf : f.target <;> simp_all [DictTarget.toValue?, DictTarget.index?]
  simp only [Keeps, keyFields, valueFields, opener_snoc, ho, Option.or_none, handed_append,
    handed_single, hk, hv, Bool.false_eq_true, if_false, List.append_nil]

theorem result_serve {e' : DictEntry key.State value.State} (h : f.target.index? = some i) :
    (serve f e).result = .ok e' ↔
      e'.index = e.index ∧ e'.place = e.place ∧
        (handed (Field.isKeyOf i) [f]).foldlM key.feed e.key = .ok e'.key ∧
        (handed (Field.isValueOf i) [f]).foldlM value.feed e.value = .ok e'.value := by
  rcases e with ⟨j, p, k, v⟩
  rcases e' with ⟨j', p', k', v'⟩
  unfold serve
  simp only [handed_single, Field.isKeyOf, Field.isValueOf]
  rcases DictTarget.index_eq_some h with hf | hf | hf <;>
    simp [hf, DictTarget.toKey?, DictTarget.toValue?, pushKey, pushValue, Step.result_map,
      map_eq_ok, Parser.feed, pure_eq_ok] <;>
    tauto

theorem keeps_own {e' : DictEntry key.State value.State} (hi : i ∈ entered fs)
    (h : f.target.index? = some i) :
    Keeps mode (fs ++ [f]) i e' ↔ ∃ e, Keeps mode fs i e ∧ (serve f e).result = .ok e' := by
  obtain ⟨o, ho⟩ := opener_some hi
  simp only [Keeps, result_serve h, keyFields, valueFields, opener_snoc, ho, Option.some_or,
    handed_append, ← List.append_assoc, Parser.reach_append, bind_eq_ok, Option.map_some,
    Option.some.injEq]
  constructor
  · rintro ⟨hx, hp, ⟨k, hk, hk'⟩, v, hv, hv'⟩
    exact ⟨⟨i, o.name, k, v⟩, ⟨rfl, rfl, hk, hv⟩, hx, hp.symm, hk', hv'⟩
  · rintro ⟨e, ⟨hx, hp, hk, hv⟩, hx', hp', hk', hv'⟩
    exact ⟨hx'.trans hx, hp.trans hp'.symm, ⟨_, hk, hk'⟩, _, hv, hv'⟩

theorem fresh_eq_ok {direct : Bool} :
    fresh mode direct i place = .ok e ↔
      e.index = i ∧ e.place = place ∧
        key.reach mode (if direct then [.value (.nameless i)] else []) = .ok e.key ∧
        value.init mode = .ok e.value := by
  rcases e with ⟨j, p, k, v⟩
  cases direct
  · simp only [fresh, bind_eq_ok, Except.ok.injEq, DictEntry.mk.injEq, Bool.false_eq_true,
      if_false, Parser.reach_nil]
    constructor
    · rintro ⟨a, ha, b, hb, rfl, rfl, rfl, rfl⟩
      exact ⟨rfl, rfl, ha, hb⟩
    · rintro ⟨rfl, rfl, ha, hb⟩
      exact ⟨k, ha, v, hb, rfl, rfl, rfl, rfl⟩
  · simp only [fresh, bind_eq_ok, pushKey, Step.result_map_eq_ok, DictEntry.mk.injEq, if_true,
      Parser.reach_single]
    constructor
    · rintro ⟨a, ha, b, hb, c, hc, rfl, rfl, rfl, rfl⟩
      exact ⟨rfl, rfl, ⟨a, ha, hc⟩, hb⟩
    · rintro ⟨rfl, rfl, ⟨a, ha, hc⟩, hb⟩
      exact ⟨a, ha, v, hb, k, hc, rfl, rfl, rfl, rfl⟩

theorem keeps_fresh {e' : DictEntry key.State value.State} (hi : i ∉ entered fs)
    (h : f.target.index? = some i) :
    Keeps mode (fs ++ [f]) i e' ↔
      ∃ e, fresh mode f.target.isDirect i f.name = .ok e ∧ (serve f e).result = .ok e' := by
  have ho : opener i [f] = some f := by simp [opener, Field.isOf, h]
  simp only [Keeps, result_serve h, keyFields, valueFields, opener_snoc, opener_none hi, ho,
    Option.none_or, handed_append, handed_key_nil hi, handed_value_nil hi, List.nil_append,
    Parser.reach_append, bind_eq_ok, Option.map_some, Option.some.injEq, Option.any_some,
    fresh_eq_ok]
  constructor
  · rintro ⟨hx, hp, ⟨k, hk, hk'⟩, hv⟩
    obtain ⟨v, hv, hv'⟩ := bind_eq_ok.1 hv
    exact ⟨⟨i, f.name, k, v⟩, ⟨rfl, rfl, hk, hv⟩, hx, hp.symm, hk', hv'⟩
  · rintro ⟨e, ⟨hx, hp, hk, hv⟩, hx', hp', hk', hv'⟩
    exact ⟨hx'.trans hx, (hp'.trans hp).symm, ⟨_, hk, hk'⟩, bind_eq_ok.2 ⟨_, hv, hv'⟩⟩

theorem any_index_iff (h : List.Forall₂ (Keeps mode fs) (entered fs) es) :
    es.any (·.index = i) = true ↔ i ∈ entered fs := by
  have hmap : es.map DictEntry.index = entered fs := by
    rw [← List.map_id (entered fs), eq_comm, ← List.forall₂_eq_eq_eq, List.forall₂_map_left_iff,
      List.forall₂_map_right_iff]
    exact h.imp fun i e he => he.1.symm
  simp [← hmap]

theorem feedEntries_eq_ok :
    List.Forall₂ (Keeps mode (fs ++ [f])) (entered (fs ++ [f])) es' ↔
      ∃ es, List.Forall₂ (Keeps mode fs) (entered fs) es ∧ feedEntries mode f es = .ok es' := by
  rw [entered_snoc, enter]
  unfold feedEntries
  cases h : f.target.index? with
  | none =>
    have hkeeps : (Keeps mode (fs ++ [f]) : String → DictEntry key.State value.State → Prop) =
        Keeps mode fs := by
      funext j e
      exact propext (keeps_other (by rw [h]; exact nofun))
    simp only [hkeeps, Except.ok.injEq, exists_eq_right]
  | some i =>
    have hother (j : String) (e : DictEntry key.State value.State) (hj : j ≠ i) :
        Keeps mode (fs ++ [f]) j e ↔ Keeps mode fs j e :=
      keeps_other (by rw [h]; exact fun hi => hj (Option.some.inj hi).symm)
    by_cases hi : i ∈ entered fs
    · simp only [hi, if_true]
      rw [change_eq_ok hi (nodup_entered fs) (fun j e he => he.1) hother
        fun e' => keeps_own hi h]
      refine exists_congr fun es => and_congr_right fun hes => ?_
      rw [if_pos ((any_index_iff hes).2 hi)]
    · simp only [hi, if_false, forall₂_snoc_iff, keeps_fresh hi h]
      have hsame (es : List (DictEntry key.State value.State)) :
          List.Forall₂ (Keeps mode (fs ++ [f])) (entered fs) es ↔
            List.Forall₂ (Keeps mode fs) (entered fs) es :=
        ⟨forall₂_imp_on fun j hj e _ => (hother j e fun hji => hi (hji ▸ hj)).1,
          forall₂_imp_on fun j hj e _ => (hother j e fun hji => hi (hji ▸ hj)).2⟩
      have hchange (es : List (DictEntry key.State value.State))
          (hes : List.Forall₂ (Keeps mode fs) (entered fs) es)
          (e : DictEntry key.State value.State)
          (he : fresh mode f.target.isDirect i f.name = .ok e) :
          (change i (serve f) (es ++ [e])).result =
            (serve f e).result >>= fun e => .ok (es ++ [e]) := by
        have hne := mt (any_index_iff hes).1 hi
        exact change_last (by simpa using hne) e (fresh_eq_ok.1 he).1
      constructor
      · rintro ⟨es, e', hes, ⟨e, he, he'⟩, rfl⟩
        have hes := (hsame es).1 hes
        refine ⟨es, hes, ?_⟩
        rw [if_neg (mt (any_index_iff hes).1 hi), he, bind_ok, hchange es hes e he, he', bind_ok]
      · rintro ⟨es, hes, hf⟩
        rw [if_neg (mt (any_index_iff hes).1 hi)] at hf
        obtain ⟨e, he, hf⟩ := bind_eq_ok.1 hf
        rw [hchange es hes e he] at hf
        obtain ⟨e', he', hf⟩ := bind_eq_ok.1 hf
        exact ⟨es, e', (hsame es).2 hes, ⟨e, he, he'⟩, Except.ok.inj hf⟩

end DictState

section Run

variable {key value : Parser} {mode : Mode} {fs : List Field} {v : Value}

/-- After all the fields every entry stands where its own fields take it. -/
theorem reach_dict {s : DictState key.State value.State} :
    (Parser.dict key value).reach mode fs = .ok s ↔
      s.mode = mode ∧ s.errors = fs.flatMap strayEntry ∧
        List.Forall₂ (DictState.Keeps mode fs) (entered fs) s.entries := by
  induction fs using List.reverseRecOn generalizing s with
  | nil =>
    rcases s with ⟨m, es, xs⟩
    simp [Parser.reach_nil, DictState.init, entered, eq_comm]
    tauto
  | append_singleton fs f ih =>
    rw [Parser.reach_snoc, bind_eq_ok, List.flatMap_append, List.flatMap_singleton,
      DictState.feedEntries_eq_ok]
    constructor
    · rintro ⟨⟨m, es, xs⟩, ht, hf⟩
      obtain ⟨rfl, rfl, hes⟩ := ih.1 ht
      rw [DictState.feed_dict, bind_eq_ok] at hf
      obtain ⟨es', hes', hf⟩ := hf
      obtain rfl := Except.ok.inj hf
      exact ⟨rfl, rfl, es, hes, hes'⟩
    · rintro ⟨hm, hx, es, hes, hes'⟩
      refine ⟨⟨mode, es, fs.flatMap strayEntry⟩, ih.2 ⟨rfl, rfl, hes⟩, ?_⟩
      rw [DictState.feed_dict, hes', bind_ok, ← hx, ← hm]

def setAll (items : List (Value × Value)) (kvs : List (Value × Value)) : List (Value × Value) :=
  kvs.foldl (fun items kv => Value.insert kv.1 kv.2 items) items

structure EntryEnd where
  place : View
  key : Except FormErrors Value
  value : Except FormErrors Value

namespace EntryEnd

def errors (d : EntryEnd) : FormErrors :=
  Errors.named (failures d.key) (.ofView d.place) ++
    Errors.named (failures d.value) (.ofView d.place)

def item? (d : EntryEnd) : Option (Value × Value) :=
  match d.key, d.value with
  | .ok k, .ok v => some (k, v)
  | _, _ => none

def Gives (d : EntryEnd) (kv : Value × Value) : Prop := d.key = .ok kv.1 ∧ d.value = .ok kv.2

theorem gives_items {ds : List EntryEnd} {kvs : List (Value × Value)}
    (h : List.Forall₂ Gives ds kvs) : ds.flatMap errors = [] ∧ ds.filterMap item? = kvs := by
  induction h with
  | nil => exact ⟨rfl, rfl⟩
  | @cons d kv ds kvs hd _ ih =>
    rcases d with ⟨p, k, v⟩
    obtain ⟨rfl, rfl⟩ := hd
    exact ⟨by simpa [errors, failures, Errors.named] using ih.1, by simpa [item?] using ih.2⟩

end EntryEnd

/-- How an entry is finished; without errors its key must be one of a dictionary. -/
def DictState.Finishes (e : DictEntry key.State value.State) (d : EntryEnd) : Prop :=
  d.place = e.place ∧ Outcome.caught (key.finalize e.key) = .ok d.key ∧
    Outcome.caught (value.finalize e.value) = .ok d.value ∧ ∀ kv ∈ d.item?, kv.1.keyFault? = none

theorem collect_cons {e : DictEntry key.State value.State}
    {es : List (DictEntry key.State value.State)} {xs : FormErrors} {items : List (Value × Value)}
    {z : FormErrors × List (Value × Value)} :
    DictState.collect xs items (e :: es) = .ok z ↔
      ∃ d, DictState.Finishes e d ∧
        DictState.collect (xs ++ d.errors) (setAll items d.item?.toList) es = .ok z := by
  rw [DictState.collect]
  constructor
  · intro h
    obtain ⟨k, hk, h⟩ := bind_eq_ok.1 h
    obtain ⟨v, hv, h⟩ := bind_eq_ok.1 h
    rcases k with kes | k <;> rcases v with ves | v
    case ok.ok =>
      cases hf : k.keyFault? with
      | some f => simp only [hf] at h; cases h
      | none =>
        refine ⟨⟨e.place, .ok k, .ok v⟩, ⟨rfl, hk, hv, by simpa [EntryEnd.item?] using hf⟩, ?_⟩
        simp only [hf] at h
        simpa [EntryEnd.errors, EntryEnd.item?, failures, Errors.named, setAll] using h
    all_goals
      refine ⟨⟨e.place, _, _⟩, ⟨rfl, hk, hv, by simp [EntryEnd.item?]⟩, ?_⟩
      simpa [EntryEnd.errors, EntryEnd.item?, failures, Errors.named, setAll] using h
  · rintro ⟨⟨p, k, v⟩, ⟨rfl, hk, hv, hf⟩, h⟩
    rw [hk, bind_ok, hv, bind_ok]
    rcases k with kes | k <;> rcases v with ves | v
    case ok.ok =>
      have hf : k.keyFault? = none := hf (k, v) rfl
      simpa [EntryEnd.errors, EntryEnd.item?, failures, Errors.named, setAll, hf] using h
    all_goals simpa [EntryEnd.errors, EntryEnd.item?, failures, Errors.named, setAll] using h

theorem collect_iff {es : List (DictEntry key.State value.State)} {xs : FormErrors}
    {items : List (Value × Value)} {z : FormErrors × List (Value × Value)} :
    DictState.collect xs items es = .ok z ↔
      ∃ ds, List.Forall₂ DictState.Finishes es ds ∧ xs ++ ds.flatMap EntryEnd.errors = z.1 ∧
        setAll items (ds.filterMap EntryEnd.item?) = z.2 := by
  induction es generalizing xs items with
  | nil =>
    rcases z with ⟨ys, items'⟩
    simp [DictState.collect, setAll]
  | cons e es ih =>
    have hset (d : EntryEnd) (ds : List EntryEnd) :
        setAll (setAll items d.item?.toList) (ds.filterMap EntryEnd.item?) =
          setAll items ((d :: ds).filterMap EntryEnd.item?) := by
      cases h : d.item? <;> simp [setAll, h]
    simp only [collect_cons, ih, List.forall₂_cons_left_iff, hset]
    constructor
    · rintro ⟨d, hd, ds, hds, hxs, hitems⟩
      exact ⟨d :: ds, ⟨d, ds, hd, hds, rfl⟩, by simpa using hxs, hitems⟩
    · rintro ⟨_, ⟨d, ds, hd, hds, rfl⟩, hxs, hitems⟩
      exact ⟨d, hd, ds, hds, by simpa using hxs, hitems⟩

def EntryYields (key value : Parser) (mode : Mode) (fs : List Field) (i : String) (d : EntryEnd) :
    Prop :=
  (opener i fs).map Field.name = some d.place ∧ key.Yields mode (keyFields i fs) d.key ∧
    value.Yields mode (valueFields i fs) d.value ∧ ∀ kv ∈ d.item?, kv.1.keyFault? = none

theorem keeps_finishes {i : String} {d : EntryEnd} :
    (∃ e : DictEntry key.State value.State, DictState.Keeps mode fs i e ∧ DictState.Finishes e d) ↔
      EntryYields key value mode fs i d := by
  simp only [EntryYields, Parser.yields_iff]
  constructor
  · rintro ⟨e, ⟨-, ho, hk, hv⟩, hp, hkf, hvf, hf⟩
    exact ⟨hp ▸ ho, ⟨_, hk, hkf⟩, ⟨_, hv, hvf⟩, hf⟩
  · rintro ⟨ho, ⟨k, hk, hkf⟩, ⟨v, hv, hvf⟩, hf⟩
    exact ⟨⟨i, d.place, k, v⟩, ⟨rfl, ho, hk, hv⟩, rfl, hkf, hvf, hf⟩

/-- A dictionary ends as the keys and the values of its entries do. -/
theorem yields_dict {x : Except FormErrors Value} :
    (Parser.dict key value).Yields mode fs x ↔
      ∃ ds, List.Forall₂ (EntryYields key value mode fs) (entered fs) ds ∧
        x = verdict (fs.flatMap strayEntry ++ ds.flatMap EntryEnd.errors)
          (.dict (setAll [] (ds.filterMap EntryEnd.item?))) := by
  have hfin (s : DictState key.State value.State) :
      Outcome.caught s.finalize = .ok x ↔
        ∃ ds, List.Forall₂ DictState.Finishes s.entries ds ∧
          x = verdict (s.errors ++ ds.flatMap EntryEnd.errors)
            (.dict (setAll [] (ds.filterMap EntryEnd.item?))) := by
    have hverdict (z : FormErrors × List (Value × Value)) :
        (if z.1.isEmpty then .ok (.dict z.2) else .error (.errors z.1) : Outcome Value) =
          Outcome.ofErrors (verdict z.1 (.dict z.2)) := by
      unfold verdict
      split_ifs <;> rfl
    unfold DictState.finalize
    simp only [Outcome.caught_ofFault_bind, bind_eq_ok, hverdict, Outcome.caught_ofErrors,
      collect_iff, Except.ok.injEq]
    constructor
    · rintro ⟨z, ⟨ds, hds, hxs, hitems⟩, rfl⟩
      exact ⟨ds, hds, by rw [hxs, hitems]⟩
    · rintro ⟨ds, hds, rfl⟩
      exact ⟨(_, _), ⟨ds, hds, rfl, rfl⟩, rfl⟩
  have hkeeps (ds : List EntryEnd) :
      List.Forall₂ (EntryYields key value mode fs) (entered fs) ds ↔
        ∃ es : List (DictEntry key.State value.State),
          List.Forall₂ (DictState.Keeps mode fs) (entered fs) es ∧
            List.Forall₂ DictState.Finishes es ds := by
    simp only [← forall₂_comp_iff, keeps_finishes]
  rw [Parser.yields_iff]
  constructor
  · rintro ⟨s, hs, hx⟩
    obtain ⟨-, he, hes⟩ := reach_dict.1 hs
    obtain ⟨ds, hds, rfl⟩ := (hfin s).1 hx
    exact ⟨ds, (hkeeps ds).2 ⟨_, hes, hds⟩, by rw [he]⟩
  · rintro ⟨ds, hds, rfl⟩
    obtain ⟨es, hes, hfs⟩ := (hkeeps ds).1 hds
    exact ⟨⟨mode, es, _⟩, reach_dict.2 ⟨rfl, rfl, hes⟩, (hfin _).2 ⟨ds, hfs, rfl⟩⟩

theorem strayEntry_nil {fs : List Field} :
    fs.flatMap strayEntry = [] ↔ ∀ f ∈ fs, f.target.index? ≠ none := by
  rw [List.flatMap_eq_nil_iff]
  refine forall₂_congr fun f _ => ?_
  unfold strayEntry
  cases f.target <;> simp [DictTarget.index?]

theorem EntryEnd.errors_eq_nil (hk : key.Explains) (hv : value.Explains) {i : String}
    {d : EntryEnd} (h : EntryYields key value mode fs i d) :
    d.errors = [] ↔ ∃ kv, d.Gives kv := by
  rcases d with ⟨p, kes | k, ves | v⟩
  · have hne : kes ≠ [] := fun hn => hk _ _ (Parser.yields_errors.1 (hn ▸ h.2.1))
    simp [errors, Gives, failures, Errors.named, hne]
  · have hne : kes ≠ [] := fun hn => hk _ _ (Parser.yields_errors.1 (hn ▸ h.2.1))
    simp [errors, Gives, failures, Errors.named, hne]
  · have hne : ves ≠ [] := fun hn => hv _ _ (Parser.yields_errors.1 (hn ▸ h.2.2.1))
    simp [errors, Gives, failures, Errors.named, hne]
  · simp [errors, Gives, failures, Errors.named]

theorem entry_eq_ok {i : String} {kv : Value × Value} :
    (∃ p, EntryYields key value mode fs i ⟨p, .ok kv.1, .ok kv.2⟩) ↔
      i ∈ entered fs ∧ key.run mode (keyFields i fs) = .ok kv.1 ∧
        value.run mode (valueFields i fs) = .ok kv.2 ∧ kv.1.keyFault? = none := by
  simp only [EntryYields, EntryEnd.item?, Option.mem_some_iff, forall_eq', Parser.yields_value]
  constructor
  · rintro ⟨p, ho, h⟩
    refine ⟨?_, h⟩
    by_contra hi
    rw [opener_none hi] at ho
    cases ho
  · rintro ⟨hi, h⟩
    obtain ⟨o, ho⟩ := opener_some hi
    exact ⟨o.name, by rw [ho, Option.map_some], h⟩

/-- A dictionary has a value if every field is for an entry, and the key and the value of every
entry have one. -/
theorem run_dict_eq_ok (hk : key.Explains) (hv : value.Explains) :
    (Parser.dict key value).run mode fs = .ok v ↔
      (∀ f ∈ fs, f.target.index? ≠ none) ∧
        ∃ kvs, List.Forall₂ (fun i kv => key.run mode (keyFields i fs) = .ok kv.1 ∧
          value.run mode (valueFields i fs) = .ok kv.2 ∧ kv.1.keyFault? = none) (entered fs) kvs ∧
          .dict (setAll [] kvs) = v := by
  have hentry (kvs : List (Value × Value)) :
      List.Forall₂ (fun i kv => key.run mode (keyFields i fs) = .ok kv.1 ∧
          value.run mode (valueFields i fs) = .ok kv.2 ∧ kv.1.keyFault? = none) (entered fs) kvs ↔
        ∃ ds, List.Forall₂ (EntryYields key value mode fs) (entered fs) ds ∧
          List.Forall₂ EntryEnd.Gives ds kvs := by
    rw [← forall₂_comp_iff]
    have hgives (i : String) (kv : Value × Value) :
        (∃ d, EntryYields key value mode fs i d ∧ d.Gives kv) ↔
          ∃ p, EntryYields key value mode fs i ⟨p, .ok kv.1, .ok kv.2⟩ :=
      ⟨fun ⟨⟨p, _, _⟩, h, rfl, rfl⟩ => ⟨p, h⟩, fun ⟨p, h⟩ => ⟨_, h, rfl, rfl⟩⟩
    simp only [hgives, entry_eq_ok]
    exact ⟨forall₂_imp_on fun i hi kv _ h => ⟨hi, h⟩, forall₂_imp_on fun i _ kv _ h => h.2⟩
  rw [← Parser.yields_value, yields_dict, ← strayEntry_nil]
  constructor
  · rintro ⟨ds, hds, h⟩
    obtain ⟨hx, rfl⟩ := verdict_eq_ok.1 h.symm
    obtain ⟨hn, he⟩ := List.append_eq_nil_iff.1 hx
    have hgives (d) (hd : d ∈ ds) : ∃ kv, d.Gives kv := by
      obtain ⟨i, -, hi⟩ := forall₂_right hds d hd
      exact (EntryEnd.errors_eq_nil hk hv hi).1 (List.flatMap_eq_nil_iff.1 he d hd)
    obtain ⟨kvs, hkvs⟩ := exists_forall₂ hgives
    rw [(EntryEnd.gives_items hkvs).2]
    exact ⟨hn, kvs, (hentry kvs).2 ⟨ds, hds, hkvs⟩, rfl⟩
  · rintro ⟨hn, kvs, h, rfl⟩
    obtain ⟨ds, hds, hkvs⟩ := (hentry kvs).1 h
    obtain ⟨he, hitems⟩ := EntryEnd.gives_items hkvs
    exact ⟨ds, hds, by rw [hn, he, hitems]; rfl⟩

end Run

end WebForm
