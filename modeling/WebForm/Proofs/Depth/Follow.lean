import Mathlib
import WebForm.Proofs.Depth.Lift

/-!
# Following part by part

The parser of a form follows another one if the parsers of its parts do. Each kind of parser has a
relation between its states that is made of those of its parts.
-/
namespace WebForm.Parser

variable {bad : Fault → Prop} {slack : Prop} {Q : Field → Prop} {mode : Mode}

theorem follows_leaf (rules : LeafRules) : Follows bad slack Q (leaf rules) (leaf rules) := by
  refine ⟨Eq, fun mode => lifts_ok rfl, ?_, ?_⟩
  · rintro s _ f s' rfl _ hs
    exact ⟨s', hs, rfl⟩
  · rintro s _ rfl
    refine lifts_refl fun e he => ?_
    cases e with
    | errors es => exact not_false
    | fault f => exact absurd he Outcome.ofErrors_ne_fault

section Pair

variable {Ql Qr : Field → Prop} {l r l' r' : Parser}

theorem follows_pair (hQl : ∀ f, f.name.key? ≠ none → Q f → Ql f.shift)
    (hQr : ∀ f, f.name.key? ≠ none → Q f → Qr f.shift)
    (hl : Follows bad slack Ql l l') (hr : Follows bad slack Qr r r') :
    Follows bad slack Q (pair l r) (pair l' r') := by
  obtain ⟨rl, hl⟩ := hl
  obtain ⟨rr, hr⟩ := hr
  have hside {Q' : Field → Prop} (hQ' : ∀ f, f.name.key? ≠ none → Q f → Q' f.shift) {k : Key}
      {f : Field} (hf : Q f) : ∀ g ∈ handed (Field.isFor k) [f], Q' g := by
    rw [handed_single]
    split_ifs with hk
    · intro g hg
      obtain rfl := List.mem_singleton.1 hg
      have hkey : f.name.key? = some k := by simpa [Field.isFor] using hk
      exact hQ' f (by rw [hkey]; exact Option.some_ne_none k) hf
    · exact fun g hg => absurd hg List.not_mem_nil
  refine ⟨fun s t => rl s.left t.left ∧ rr s.right t.right ∧ s.errors = t.errors, ?_, ?_, ?_⟩
  · intro mode
    exact lifts_bind (hl.init mode) fun a b hab => lifts_bind (hr.init mode) fun c d hcd =>
      lifts_ok ⟨hab, hcd, rfl⟩
  · rintro s t f s' ⟨hls, hrs, he⟩ hf hs
    obtain ⟨hl', hr', he'⟩ := feed_pair.1 hs
    obtain ⟨a, ha, hla⟩ := hl.feeds hls (hside hQl hf) hl'
    obtain ⟨b, hb, hrb⟩ := hr.feeds hrs (hside hQr hf) hr'
    exact ⟨⟨a, b, t.errors ++ straySide f⟩, feed_pair.2 ⟨ha, hb, rfl⟩, hla, hrb, by rw [he', he]⟩
  · rintro s t ⟨hls, hrs, he⟩
    refine lifts_bind (lifts_ofFault (lifts_caught (hl.finalize hls))) ?_
    rintro a _ rfl
    refine lifts_bind (lifts_ofFault (lifts_caught (hr.finalize hrs))) ?_
    rintro b _ rfl
    rw [he]
    refine lifts_refl fun e h => ?_
    split at h
    · cases h
    · cases h
      exact not_false

end Pair

section List

variable {Qi : Field → Prop} {item item' : Parser} {rel : item.State → item'.State → Prop}

def Listed (rel : item.State → item'.State → Prop) (s : ListState item.State)
    (t : ListState item'.State) : Prop :=
  s.mode = t.mode ∧ s.lastKey = t.lastKey ∧ s.items = t.items ∧ s.errors = t.errors ∧
    Option.Rel rel s.current t.current

theorem lifts_flush (h : Simulation bad slack Qi item item' rel) {s : ListState item.State}
    {t : ListState item'.State} (hst : Listed rel s t) :
    Lifts bad slack (Listed rel) s.flush.result t.flush.result := by
  rcases s with ⟨m, k, c, vs, es⟩
  rcases t with ⟨m', k', c', vs', es'⟩
  obtain ⟨rfl, rfl, rfl, rfl, hc⟩ := hst
  cases hc with
  | none => exact lifts_ok ⟨rfl, rfl, rfl, rfl, .none⟩
  | some hcd =>
    rw [ListState.result_flush, ListState.result_flush]
    refine lifts_bind (lifts_caught (h.finalize hcd)) ?_
    rintro r _ rfl
    exact lifts_ok ⟨rfl, rfl, rfl, rfl, .none⟩

theorem feed_listed (hQ : ∀ f, Q f → Qi f.shift) (h : Simulation bad slack Qi item item' rel)
    {s s' : ListState item.State} {t : ListState item'.State} {f : Field} (hst : Listed rel s t)
    (hf : Q f) (hs : (list item).feed s f = .ok s') :
    ∃ t', (list item').feed t f = .ok t' ∧ Listed rel s' t' := by
  rcases s with ⟨m, k, c, vs, es⟩
  rcases t with ⟨m', k', c', vs', es'⟩
  have hst' := hst
  obtain ⟨rfl, rfl, rfl, rfl, hc⟩ := hst
  by_cases hj : f.name.key?.isSome = true ∧ k = f.name.key? ∧ c ≠ none
  · obtain ⟨hk, hl, hne⟩ := hj
    cases hc with
    | none => exact absurd rfl hne
    | some hcd =>
      rw [ListState.feed_joined hk hl] at hs
      obtain ⟨c₁, hc₁, hs⟩ := bind_eq_ok.1 hs
      obtain rfl := Except.ok.inj hs
      obtain ⟨d₁, hd₁, h₁⟩ := h.feed hcd (hQ f hf) hc₁
      refine ⟨⟨m, f.name.key?, some d₁, vs, es⟩, ?_, rfl, rfl, rfl, rfl, .some h₁⟩
      rw [ListState.feed_joined hk hl, hd₁, bind_ok]
  · have hn {σ : Type} (o : Option σ) (ho : o = none ↔ c = none) :
        (if f.name.key?.isSome && k == f.name.key? then o else none) = none := by
      split_ifs with hkl
      · obtain ⟨hk, hl⟩ := Bool.and_eq_true_iff.1 hkl
        by_contra hne
        exact hj ⟨hk, by simpa using hl, fun h => hne (ho.2 h)⟩
      · rfl
    have hc' : c' = none ↔ c = none := by cases hc <;> simp
    have hs₀ : ListState.joined ⟨m, k, c, vs, es⟩ f.name.key? = none := hn c Iff.rfl
    have ht₀ : ListState.joined ⟨m, k, c', vs, es⟩ f.name.key? = none := hn c' hc'
    rw [ListState.feed_started hs₀] at hs
    obtain ⟨s₁, hs₁, hs⟩ := bind_eq_ok.1 hs
    obtain ⟨c₁, hc₁, hs⟩ := bind_eq_ok.1 hs
    obtain ⟨c₂, hc₂, hs⟩ := bind_eq_ok.1 hs
    obtain rfl := Except.ok.inj hs
    have hflush := lifts_flush h hst'
    rw [hs₁] at hflush
    obtain ⟨t₁, ht₁, hm, -, hvs, hes, -⟩ := hflush
    have hinit := h.init s₁.mode
    rw [hc₁] at hinit
    obtain ⟨d₁, hd₁, h₁⟩ := hinit
    obtain ⟨d₂, hd₂, h₂⟩ := h.feed h₁ (hQ f hf) hc₂
    refine ⟨{ t₁ with lastKey := f.name.key?, current := some d₂ }, ?_, hm, rfl, hvs, hes,
      .some h₂⟩
    rw [ListState.feed_started ht₀, ht₁, bind_ok, ← hm, hd₁, bind_ok, hd₂, bind_ok]

theorem follows_list (hQ : ∀ f, Q f → Qi f.shift) (h : Follows bad slack Qi item item') :
    Follows bad slack Q (list item) (list item') := by
  obtain ⟨rel, h⟩ := h
  refine ⟨Listed rel, fun mode => lifts_ok ⟨rfl, rfl, rfl, rfl, .none⟩, ?_, ?_⟩
  · exact fun hst hf hs => feed_listed hQ h hst hf hs
  · intro s t hst
    change Lifts _ _ _ (ListState.finalize s) (ListState.finalize t)
    rw [finalize_list, finalize_list]
    refine lifts_bind (lifts_ofFault (lifts_flush h hst)) ?_
    rintro a b ⟨-, -, hvs, hes, -⟩
    rw [hvs, hes]
    refine lifts_refl fun e he => ?_
    split_ifs at he
    cases he
    exact not_false

end List

section Dict

variable {Qk Qv : Field → Prop} {key key' value value' : Parser}
  {rk : key.State → key'.State → Prop} {rv : value.State → value'.State → Prop}
  {es : List (DictEntry key.State value.State)} {es' : List (DictEntry key'.State value'.State)}
  {f : Field} {i : String}

def Entered (rk : key.State → key'.State → Prop) (rv : value.State → value'.State → Prop)
    (e : DictEntry key.State value.State) (e' : DictEntry key'.State value'.State) : Prop :=
  e.index = e'.index ∧ e.place = e'.place ∧ rk e.key e'.key ∧ rv e.value e'.value

theorem any_entered (hes : List.Forall₂ (Entered rk rv) es es') (i : String) :
    es.any (·.index = i) = es'.any (·.index = i) := by
  induction hes with
  | nil => rfl
  | cons he _ ih => rw [List.any_cons, List.any_cons, ih, he.1]

theorem change_entered
    {g : DictEntry key.State value.State → Step (DictEntry key.State value.State)}
    {g' : DictEntry key'.State value'.State → Step (DictEntry key'.State value'.State)}
    {ds : List (DictEntry key.State value.State)}
    (hg : ∀ e e' d, Entered rk rv e e' → (g e).result = .ok d →
      ∃ d', (g' e').result = .ok d' ∧ Entered rk rv d d')
    (hes : List.Forall₂ (Entered rk rv) es es') (h : (DictState.change i g es).result = .ok ds) :
    ∃ ds', (DictState.change i g' es').result = .ok ds' ∧
      List.Forall₂ (Entered rk rv) ds ds' := by
  induction hes generalizing ds with
  | nil =>
    obtain rfl := Except.ok.inj h
    exact ⟨[], rfl, .nil⟩
  | @cons e e' es es' he hes ih =>
    by_cases hi : e.index = i
    · rw [DictState.change, if_pos hi, Step.result_map] at h
      obtain ⟨d, hd, rfl⟩ := map_eq_ok.1 h
      obtain ⟨d', hd', hdd⟩ := hg e e' d he hd
      refine ⟨d' :: es', ?_, .cons hdd hes⟩
      rw [DictState.change, if_pos (he.1 ▸ hi), Step.result_map, hd']
      rfl
    · rw [DictState.change, if_neg hi, Step.result_map] at h
      obtain ⟨ds, hds, rfl⟩ := map_eq_ok.1 h
      obtain ⟨ds', hds', hdd⟩ := ih hds
      refine ⟨e' :: ds', ?_, .cons he hdd⟩
      rw [DictState.change, if_neg (he.1 ▸ hi), Step.result_map, hds']
      rfl

theorem serve_entered (hk : Simulation bad slack Qk key key' rk)
    (hv : Simulation bad slack Qv value value' rv) (hfk : Qk f.shift) (hfv : Qv f.shift)
    (h : f.target.index? = some i) (e : DictEntry key.State value.State)
    (e' : DictEntry key'.State value'.State) (d : DictEntry key.State value.State)
    (he : Entered rk rv e e') (hd : (DictState.serve f e).result = .ok d) :
    ∃ d', (DictState.serve f e').result = .ok d' ∧ Entered rk rv d d' := by
  have hmem {Q' : Field → Prop} (hQ' : Q' f.shift) (q : Field → Bool) :
      ∀ g ∈ handed q [f], Q' g := by
    rw [handed_single]
    split_ifs <;> simp [hQ']
  obtain ⟨hi, hp, hks, hvs⟩ := he
  obtain ⟨hi', hp', hkd, hvd⟩ := (DictState.result_serve h).1 hd
  obtain ⟨a, ha, hka⟩ := hk.feeds hks (hmem hfk _) hkd
  obtain ⟨b, hb, hvb⟩ := hv.feeds hvs (hmem hfv _) hvd
  exact ⟨⟨e'.index, e'.place, a, b⟩, (DictState.result_serve h).2 ⟨rfl, rfl, ha, hb⟩,
    hi'.trans hi, hp'.trans hp, hka, hvb⟩

theorem fresh_entered (hk : Simulation bad slack Qk key key' rk)
    (hv : Simulation bad slack Qv value value' rv) (hn : Qk (.value (.nameless i)))
    {direct : Bool} {place : View} {d : DictEntry key.State value.State}
    (hd : DictState.fresh mode direct i place = .ok d) :
    ∃ d', DictState.fresh mode direct i place = .ok d' ∧ Entered rk rv d d' := by
  obtain ⟨hi, hp, hkd, hvd⟩ := DictState.fresh_eq_ok.1 hd
  have hQ : ∀ g ∈ if direct then [Field.value (.nameless i)] else [], Qk g := by
    split_ifs <;> simp [hn]
  obtain ⟨a, ha, hka⟩ := hk.reach hQ hkd
  have hinit := hv.init mode
  rw [hvd] at hinit
  obtain ⟨b, hb, hvb⟩ := hinit
  exact ⟨⟨i, place, a, b⟩, DictState.fresh_eq_ok.2 ⟨rfl, rfl, ha, hb⟩, hi, hp, hka, hvb⟩

theorem collect_entered (hkey : ∀ (v : Value) f, v.keyFault? = some f → ¬bad f)
    (hk : Simulation bad slack Qk key key' rk) (hv : Simulation bad slack Qv value value' rv)
    (hes : List.Forall₂ (Entered rk rv) es es') (xs : FormErrors) (items : List (Value × Value)) :
    Lifts bad slack Eq (DictState.collect xs items es) (DictState.collect xs items es') := by
  induction hes generalizing xs items with
  | nil => exact lifts_ok rfl
  | @cons e e' es es' he hes ih =>
    obtain ⟨-, hp, hks, hvs⟩ := he
    rw [DictState.collect, DictState.collect, hp]
    refine lifts_bind (lifts_caught (hk.finalize hks)) ?_
    rintro k _ rfl
    refine lifts_bind (lifts_caught (hv.finalize hvs)) ?_
    rintro w _ rfl
    rcases k with kes | k <;> rcases w with ves | w <;> simp only
    · exact ih _ _
    · exact ih _ _
    · exact ih _ _
    · cases hf : k.keyFault? with
      | none => exact ih _ _
      | some f => exact .inr ⟨hkey k f hf, rfl⟩

theorem feed_entered (hk : Simulation bad slack Qk key key' rk)
    (hv : Simulation bad slack Qv value value' rv)
    (hf : ∀ i, f.target.index? = some i →
      Qk f.shift ∧ Qv f.shift ∧ Qk (.value (.nameless i)))
    (hes : List.Forall₂ (Entered rk rv) es es') {ds : List (DictEntry key.State value.State)}
    (h : DictState.feedEntries mode f es = .ok ds) :
    ∃ ds', DictState.feedEntries mode f es' = .ok ds' ∧ List.Forall₂ (Entered rk rv) ds ds' := by
  unfold DictState.feedEntries at h ⊢
  cases hi : f.target.index? with
  | none =>
    rw [hi] at h
    obtain rfl := Except.ok.inj h
    exact ⟨es', rfl, hes⟩
  | some i =>
    obtain ⟨hfk, hfv, hn⟩ := hf i hi
    have hserve := serve_entered hk hv hfk hfv hi
    rw [hi] at h
    simp only at h ⊢
    rw [← any_entered hes]
    split_ifs at h ⊢
    · exact change_entered hserve hes h
    · obtain ⟨e, he, h⟩ := bind_eq_ok.1 h
      obtain ⟨e', he', hee⟩ := fresh_entered hk hv hn he
      rw [he', bind_ok]
      exact change_entered hserve (List.rel_append hes (.cons hee .nil)) h

theorem follows_dict (hkey : ∀ (v : Value) f, v.keyFault? = some f → ¬bad f)
    (hQ : ∀ f i, f.target.index? = some i → Q f →
      Qk f.shift ∧ Qv f.shift ∧ Qk (.value (.nameless i)))
    (hk : Follows bad slack Qk key key') (hv : Follows bad slack Qv value value') :
    Follows bad slack Q (dict key value) (dict key' value') := by
  obtain ⟨rk, hk⟩ := hk
  obtain ⟨rv, hv⟩ := hv
  refine ⟨fun s t => s.mode = t.mode ∧ s.errors = t.errors ∧
    List.Forall₂ (Entered rk rv) s.entries t.entries, ?_, ?_, ?_⟩
  · exact fun mode => lifts_ok ⟨rfl, rfl, .nil⟩
  · rintro ⟨m, es, xs⟩ ⟨_, es', _⟩ f s' ⟨rfl, rfl, hes⟩ hf hs
    rw [DictState.feed_dict] at hs
    obtain ⟨ds, hds, hs⟩ := bind_eq_ok.1 hs
    obtain rfl := Except.ok.inj hs
    obtain ⟨ds', hds', hdd⟩ := feed_entered hk hv (fun i hi => hQ f i hi hf) hes hds
    refine ⟨⟨m, ds', xs ++ strayEntry f⟩, ?_, rfl, rfl, hdd⟩
    rw [DictState.feed_dict, hds', bind_ok]
  · rintro ⟨m, es, xs⟩ ⟨_, es', _⟩ ⟨rfl, rfl, hes⟩
    refine lifts_bind (lifts_ofFault (collect_entered hkey hk hv hes xs [])) ?_
    rintro ⟨ys, items⟩ _ rfl
    refine lifts_refl fun e he => ?_
    simp only at he
    split_ifs at he
    cases he
    exact not_false

end Dict

section Wrapped

variable {item item' : Parser}

theorem follows_optional (h : Follows bad slack Q item item') :
    Follows bad slack Q (optional item) (optional item') := by
  obtain ⟨rel, h⟩ := h
  refine ⟨rel, h.init, h.feed, fun hst => ?_⟩
  refine lifts_bind (lifts_ofFault (lifts_caught (h.finalize hst))) ?_
  rintro r _ rfl
  cases r <;> exact lifts_ok rfl

theorem follows_result (h : Follows bad slack Q item item') :
    Follows bad slack Q (result item) (result item') := by
  obtain ⟨rel, h⟩ := h
  refine ⟨rel, h.init, h.feed, fun hst => ?_⟩
  refine lifts_bind (lifts_ofFault (lifts_caught (h.finalize hst))) ?_
  rintro r _ rfl
  cases r <;> exact lifts_ok rfl

theorem follows_forced (m : Mode) (h : Follows bad slack Q item item') :
    Follows bad slack Q (forced m item) (forced m item') := by
  obtain ⟨rel, h⟩ := h
  exact ⟨rel, fun _ => h.init m, h.feed, h.finalize⟩

theorem follows_contextual (h : Follows bad slack Q item item') :
    Follows bad slack Q (contextual item) (contextual item') := by
  obtain ⟨rel, h⟩ := h
  refine ⟨fun s t => rel s.1 t.1 ∧ s.2 = t.2, fun mode => ?_, ?_, ?_⟩
  · exact lifts_map (h.init mode) fun a b hab => ⟨hab, rfl⟩
  · rintro ⟨s, c⟩ ⟨t, _⟩ f s' ⟨hst, rfl⟩ hf hs
    obtain ⟨s₁, hs₁, rfl⟩ := Step.result_map_eq_ok.1 hs
    obtain ⟨t₁, ht₁, h₁⟩ := h.feed hst hf hs₁
    exact ⟨(t₁, noted c f), Step.result_map_eq_ok.2 ⟨t₁, ht₁, rfl⟩, h₁, rfl⟩
  · rintro ⟨s, c⟩ ⟨t, _⟩ ⟨hst, rfl⟩
    refine lifts_bind (lifts_ofFault (lifts_caught (h.finalize hst))) ?_
    rintro r _ rfl
    cases r <;> exact lifts_ok rfl

end Wrapped

section Record

variable {Qm : Form → Field → Prop} {parserOf parserOf' : Form → Parser} {ps : List RecordPart}
  {rel : ∀ form, (parserOf form).State → (parserOf' form).State → Prop} {f : Field}

def MembersAlike (rel : ∀ form, (parserOf form).State → (parserOf' form).State → Prop) :
    (ps : List RecordPart) → MemberStates parserOf ps → MemberStates parserOf' ps → Prop
  | [], _, _ => True
  | .member m :: ps, (s, rest), (t, rest') =>
    Option.Rel (rel m.form) s t ∧ MembersAlike rel ps rest rest'
  | .constant _ _ :: ps, rest, rest' => MembersAlike rel ps rest rest'

theorem init_alike : MembersAlike rel ps (.init ps) (.init ps) := by
  induction ps with
  | nil => trivial
  | cons part ps ih =>
    cases part with
    | member m => exact ⟨.none, ih⟩
    | constant a x => exact ih

theorem pushInto_alike {p q : Parser} {rel : p.State → q.State → Prop}
    (h : Simulation bad slack Q p q rel) {s s' : Option p.State} {t : Option q.State}
    (hst : Option.Rel rel s t) (hf : Q f)
    (hs : (MemberStates.pushInto p mode s f).result = .ok s') :
    ∃ t', (MemberStates.pushInto q mode t f).result = .ok t' ∧ Option.Rel rel s' t' := by
  obtain ⟨a, ha, a', ha', rfl⟩ := MemberStates.pushInto_eq_ok.1 hs
  obtain ⟨b, hb, hab⟩ : ∃ b, t.elim (q.init mode) .ok = .ok b ∧ rel a b := by
    cases hst with
    | none =>
      have hi := h.init mode
      rw [show p.init mode = .ok a from ha] at hi
      exact hi
    | some hst =>
      obtain rfl := Except.ok.inj ha
      exact ⟨_, rfl, hst⟩
  obtain ⟨b', hb', hab'⟩ := h.feed hab hf ha'
  exact ⟨some b', MemberStates.pushInto_eq_ok.2 ⟨b, hb, b', hb', rfl⟩, .some hab'⟩

theorem push_alike (h : ∀ m, .member m ∈ ps → Simulation bad slack (Qm m.form) _ _ (rel m.form))
    {key : Key} (hf : ∀ m, memberNamed key ps = some m → Qm m.form f)
    {st st' : MemberStates parserOf ps} {tt : MemberStates parserOf' ps}
    (hst : MembersAlike rel ps st tt) (hs : MemberStates.Pushes mode key f ps st st') :
    ∃ tt', MemberStates.Pushes mode key f ps tt tt' ∧ MembersAlike rel ps st' tt' := by
  induction ps with
  | nil =>
    obtain ⟨r, hr, -⟩ := hs
    cases hr
  | cons part ps ih =>
    have htail : ∀ m, .member m ∈ ps → Simulation bad slack (Qm m.form) _ _ (rel m.form) :=
      fun m hm => h m (List.mem_cons_of_mem _ hm)
    cases part with
    | constant a x => exact ih htail hf hst hs
    | member m =>
      rcases st with ⟨s, rest⟩
      rcases tt with ⟨t, rest'⟩
      rcases st' with ⟨s', rest₁⟩
      obtain ⟨hs₀, hrest⟩ := hst
      by_cases hm : key ∈ m.names
      · obtain ⟨hs', rfl⟩ := (MemberStates.pushes_own hm).1 hs
        obtain ⟨t', ht', hst'⟩ :=
          pushInto_alike (h m List.mem_cons_self) hs₀ (hf m (if_pos hm)) hs'
        exact ⟨(t', rest'), (MemberStates.pushes_own hm).2 ⟨ht', rfl⟩, hst', hrest⟩
      · obtain ⟨rfl, hs'⟩ := (MemberStates.pushes_other hm).1 hs
        obtain ⟨tt', htt', hal⟩ :=
          ih htail (fun m' hm' => hf m' ((if_neg hm).trans hm')) hrest hs'
        exact ⟨(t, tt'), (MemberStates.pushes_other hm).2 ⟨rfl, htt'⟩, hs₀, hal⟩

theorem absent_alike {p q : Parser} (h : Follows bad slack Q p q) (m : Member) :
    Lifts bad slack Eq (m.absent p mode) (m.absent q mode) := by
  unfold Member.absent
  split
  · refine lifts_map (h.absent mode) ?_
    rintro a _ rfl
    rfl
  · exact lifts_ok rfl

theorem finish_alike {p q : Parser} {rel : p.State → q.State → Prop} {m : Member}
    (hcheck : ∀ c ∈ m.checks, ∀ v f, c.run v = .error (.fault f) → ¬bad f)
    (h : Simulation bad slack Q p q rel) {s : Option p.State} {t : Option q.State}
    (hst : Option.Rel rel s t) (path : Path) (c : Collected) :
    Lifts bad slack Eq (m.finish p mode path s c) (m.finish q mode path t c) := by
  cases hst with
  | none =>
    refine lifts_bind (absent_alike ⟨rel, h⟩ m) ?_
    rintro a _ rfl
    cases a <;> exact lifts_ok rfl
  | some hab =>
    refine lifts_bind (lifts_caught (h.finalize hab)) ?_
    rintro r _ rfl
    cases r with
    | error es => exact lifts_ok rfl
    | ok v =>
      refine lifts_bind (lifts_refl fun e he => ?_) ?_
      · obtain ⟨c, hc, hrun⟩ := check_eq_error he
        exact hcheck c hc v e hrun
      · rintro es _ rfl
        exact lifts_ok rfl

theorem finishParts_alike
    (h : ∀ m, .member m ∈ ps → Simulation bad slack (Qm m.form) _ _ (rel m.form))
    (hcheck : ∀ m, .member m ∈ ps → ∀ c ∈ m.checks, ∀ v f, c.run v = .error (.fault f) → ¬bad f)
    {st : MemberStates parserOf ps} {tt : MemberStates parserOf' ps}
    (hst : MembersAlike rel ps st tt) (parent : Option Name) (c : Collected) :
    Lifts bad slack Eq (finishParts parserOf mode parent ps st c)
      (finishParts parserOf' mode parent ps tt c) := by
  induction ps generalizing c with
  | nil => exact lifts_ok rfl
  | cons part ps ih =>
    have ih {st tt} := @ih (fun m hm => h m (List.mem_cons_of_mem _ hm))
      (fun m hm => hcheck m (List.mem_cons_of_mem _ hm)) st tt
    cases part with
    | constant a x => exact ih hst _
    | member m =>
      rcases st with ⟨s, rest⟩
      rcases tt with ⟨t, rest'⟩
      refine lifts_bind (finish_alike (hcheck m List.mem_cons_self) (h m List.mem_cons_self)
        hst.1 _ _) ?_
      rintro c _ rfl
      exact ih hst.2 c

theorem follows_record {t : RecordType} {d : Except Fault (List RecordPart)}
    {objections : Objections}
    (hd : ∀ f, d = .error f → bad f → slack)
    (hcheck : ∀ ps m, d = .ok ps → .member m ∈ ps → ∀ c ∈ m.checks, ∀ v f,
      c.run v = .error (.fault f) → ¬bad f)
    (hQ : ∀ ps m f, d = .ok ps → memberNamed f.name.keyText ps = some m → Q f →
      Qm m.form f.shift)
    (h : ∀ ps m, d = .ok ps → .member m ∈ ps →
      Follows bad slack (Qm m.form) (parserOf m.form) (parserOf' m.form)) :
    Follows bad slack Q (record t d objections parserOf) (record t d objections parserOf') := by
  cases d with
  | error e =>
    refine ⟨fun s t => s.mode = t.mode, fun mode => lifts_ok rfl, ?_, ?_⟩
    · rintro s t f s' - - hs
      cases hs
    · intro s t _
      by_cases hb : bad e
      · exact .inl ⟨hb, hd e rfl hb⟩
      · exact .inr ⟨hb, rfl⟩
  | ok ps =>
    have hrel (form : Form) : ∃ rel : (parserOf form).State → (parserOf' form).State → Prop,
        (∃ m, .member m ∈ ps ∧ m.form = form) → Simulation bad slack (Qm form) _ _ rel := by
      by_cases hform : ∃ m, .member m ∈ ps ∧ m.form = form
      · obtain ⟨m, hm, rfl⟩ := hform
        obtain ⟨rel, hsim⟩ := h ps m rfl hm
        exact ⟨rel, fun _ => hsim⟩
      · exact ⟨fun _ _ => True, fun hn => absurd hn hform⟩
    choose rel hrel using hrel
    have h (m : Member) (hm : .member m ∈ ps) := hrel m.form ⟨m, hm, rfl⟩
    refine ⟨fun s t => s.mode = t.mode ∧ s.parent = t.parent ∧ s.errors = t.errors ∧
      MembersAlike rel ps s.members t.members, ?_, ?_, ?_⟩
    · exact fun mode => lifts_ok ⟨rfl, rfl, rfl, init_alike⟩
    · rintro s t f s' ⟨hm, hp, he, hst⟩ hf hs
      obtain ⟨hm', hp', he', hst'⟩ := feed_record.1 hs
      by_cases hn : isName ps f.name.keyText = true
      · rw [if_pos hn] at hst'
        obtain ⟨tt, htt, hal⟩ := push_alike h (fun m hm => hQ ps m f rfl hm hf) hst hst'
        refine ⟨⟨t.mode, f.name.parent?, tt, t.errors ++ strayMember t.mode ps f⟩,
          feed_record.2 ⟨rfl, rfl, rfl, ?_⟩, hm'.trans hm, hp', by rw [he', he, hm], hal⟩
        rw [if_pos hn]
        rw [← hm]
        exact htt
      · rw [if_neg hn] at hst'
        refine ⟨⟨t.mode, f.name.parent?, t.members, t.errors ++ strayMember t.mode ps f⟩,
          feed_record.2 ⟨rfl, rfl, rfl, ?_⟩, hm'.trans hm, hp', by rw [he', he, hm], ?_⟩
        · rw [if_neg hn]
        · rw [hst']
          exact hst
    · rintro s t' ⟨hm, hp, he, hst⟩
      change Lifts _ _ _ (RecordState.finalize t objections s) (RecordState.finalize t objections t')
      rw [finalize_record, finalize_record, ← hm, ← hp, ← he]
      refine lifts_bind (lifts_ofFault
        (finishParts_alike h (fun m hm => hcheck ps m rfl hm) hst _ _)) ?_
      rintro c _ rfl
      refine lifts_refl fun e he => ?_
      cases e with
      | errors es => exact not_false
      | fault f => exact absurd he Outcome.ofErrors_ne_fault

end Record

section Form

variable {Qf : Form → Field → Prop}

/-- The fields that are handed down to the parts are again such fields. -/
structure HandsDown (Qf : Form → Field → Prop) : Prop where
  list : ∀ {item f}, Qf (.list item) f → Qf item f.shift
  entry : ∀ {key value f i}, f.target.index? = some i → Qf (.dict key value) f →
    Qf key f.shift ∧ Qf value f.shift ∧ Qf key (.value (.nameless i))
  side : ∀ {left right f}, f.name.key? ≠ none → Qf (.pair left right) f →
    Qf left f.shift ∧ Qf right f.shift
  optional : ∀ {item f}, Qf (.optional item) f → Qf item f
  result : ∀ {item f}, Qf (.result item) f → Qf item f
  forced : ∀ {m item f}, Qf (.forced m item) f → Qf item f
  contextual : ∀ {item f}, Qf (.contextual item) f → Qf item f

theorem follows_form {s : Schema} {d e : Nat}
    (hkey : ∀ (v : Value) f, v.keyFault? = some f → ¬bad f) (hun : ¬bad .unimplemented)
    (hQ : HandsDown Qf)
    (hr : ∀ t, Follows bad slack (Qf (.record t)) (s.parser d (.record t))
      (s.parser e (.record t))) (form : Form) :
    Follows bad slack (Qf form) (s.parser d form) (s.parser e form) := by
  induction form with
  | leaf l =>
    rw [Schema.parser_leaf, Schema.parser_leaf]
    exact follows_leaf l.rules
  | list item ih =>
    rw [Schema.parser_list, Schema.parser_list]
    exact follows_list (fun f hf => hQ.list hf) ih
  | dict key value ihk ihv =>
    rw [Schema.parser_dict, Schema.parser_dict]
    exact follows_dict hkey (fun f i hi hf => hQ.entry hi hf) ihk ihv
  | pair left right ihl ihr =>
    rw [Schema.parser_pair, Schema.parser_pair]
    exact follows_pair (fun f hk hf => (hQ.side hk hf).1) (fun f hk hf => (hQ.side hk hf).2) ihl ihr
  | record t => exact hr t
  | optional item ih =>
    rw [Schema.parser_optional, Schema.parser_optional]
    exact follows_optional (ih.of_feed fun f _ _ hf _ => hQ.optional hf)
  | result item ih =>
    rw [Schema.parser_result, Schema.parser_result]
    exact follows_result (ih.of_feed fun f _ _ hf _ => hQ.result hf)
  | forced m item ih =>
    rw [Schema.parser_forced, Schema.parser_forced]
    exact follows_forced m (ih.of_feed fun f _ _ hf _ => hQ.forced hf)
  | contextual item ih =>
    rw [Schema.parser_contextual, Schema.parser_contextual]
    exact follows_contextual (ih.of_feed fun f _ _ hf _ => hQ.contextual hf)
  | unimplemented =>
    rw [Schema.parser_unimplemented, Schema.parser_unimplemented]
    exact follows_failing (.inr ⟨hun, fun _ => rfl⟩)

end Form

end WebForm.Parser
