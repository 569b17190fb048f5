import Mathlib
import WebForm.Parser.Record
import WebForm.Proofs.Run.Basic

/-!
# Checks and constructors

The checks of a member are run one after the other, and all their errors are kept. What a check or a
constructor of the user's own looks at is up to the user, so some results are for those that leave
something out of account.
-/
namespace WebForm

namespace Check

/-- The check is one of the library's. -/
def isStandard : Check → Bool
  | message _ inner => inner.isStandard
  | custom _ => false
  | _ => true

/-- The check has nothing against the value. -/
def Passes (c : Check) (v : Value) : Prop := c.run v = .ok () ∨ c.run v = .error (.errors [])

end Check

variable {v : Value} {m : Member}

/-- A check of the library fails for one reason. -/
theorem check_reason {c : Check} {es : FormErrors} (hc : c.isStandard = true)
    (h : c.run v = .error (.errors es)) : ∃ kind, es = .ofKind kind := by
  have hdemand {b : Bool} {k : Kind Value} (h : Check.demand b k = .error (.errors es)) :
      ∃ kind, es = .ofKind kind := by
    unfold Check.demand at h
    split_ifs at h
    exact ⟨k, (Failure.errors.inj (Except.error.inj h)).symm⟩
  have hfault {α : Type} {x : Except Fault α} {g : α → Outcome Unit}
      (h : (Outcome.ofFault x >>= g) = .error (.errors es)) : ∃ a, g a = .error (.errors es) := by
    cases x with
    | error e => cases h
    | ok a => exact ⟨a, h⟩
  cases c with
  | message text inner =>
    rw [Check.run] at h
    split at h
    · exact ⟨_, (Failure.errors.inj (Except.error.inj h)).symm⟩
    · next hinner => exact absurd h (hinner es)
  | mediaType expected =>
    obtain ⟨a, h⟩ := hfault h
    cases a <;> exact hdemand h
  | length least greatest =>
    obtain ⟨n, h⟩ := hfault h
    obtain ⟨out, h⟩ := hfault h
    exact hdemand h
  | contains item | containsNamed item | omits item | omitsNamed item | inRange start stop =>
    obtain ⟨found, h⟩ := hfault h
    exact hdemand h
  | equals expected | differs invalid | oneOf items => exact hdemand h
  | custom verdict => cases hc

theorem passes_iff_ok {c : Check} (hc : c.isStandard = true) : c.Passes v ↔ c.run v = .ok () := by
  refine or_iff_left fun h => ?_
  obtain ⟨kind, h⟩ := check_reason hc h
  cases h

/-- What the check has against the value. -/
def Check.errorsOn (c : Check) (v : Value) : Except Fault FormErrors :=
  match c.run v with
  | .ok _ => .ok []
  | .error (.errors es) => .ok es
  | .error (.fault f) => .error f

section ErrorsOn

variable {c : Check} {f : Fault} {es : FormErrors} {e : FormError}

theorem errorsOn_eq_nil : c.errorsOn v = .ok [] ↔ c.Passes v := by
  unfold Check.errorsOn Check.Passes
  rcases c.run v with (more | f) | u <;> simp

theorem errorsOn_eq_error : c.errorsOn v = .error f ↔ c.run v = .error (.fault f) := by
  unfold Check.errorsOn
  rcases c.run v with (more | f) | u <;> simp

theorem run_of_errorsOn (h : c.errorsOn v = .ok es) (he : e ∈ es) :
    c.run v = .error (.errors es) := by
  unfold Check.errorsOn at h
  split at h
  · obtain rfl := Except.ok.inj h
    cases he
  · next hrun => rw [hrun, Except.ok.inj h]
  · cases h

end ErrorsOn

/-- The errors of a member are those of its checks, one after the other. -/
theorem check_eq (m : Member) (v : Value) :
    m.check v = (m.checks.mapM (Check.errorsOn · v)).map List.flatten := by
  obtain ⟨g, hg, hcheck⟩ : ∃ g : FormErrors → Check → Except Fault FormErrors,
      (∀ es c, g es c = (c.errorsOn v).map (es ++ ·)) ∧ m.check v = m.checks.foldlM g [] := by
    refine ⟨_, ?_, rfl⟩
    intro es c
    unfold Check.errorsOn
    rcases c.run v with (more | f) | u
    · rfl
    · rfl
    · exact congrArg Except.ok (List.append_nil es).symm
  have hfold (cs : List Check) (es : FormErrors) :
      cs.foldlM g es = (cs.mapM (Check.errorsOn · v)).map (es ++ ·.flatten) := by
    induction cs generalizing es with
    | nil => exact congrArg Except.ok (List.append_nil es).symm
    | cons c cs ih =>
      rw [List.foldlM_cons, List.mapM_cons, hg]
      cases c.errorsOn v with
      | error f => rfl
      | ok more =>
        change cs.foldlM g (es ++ more) = _
        rw [ih, bind_ok]
        cases cs.mapM (Check.errorsOn · v) with
        | error f => rfl
        | ok ess => exact congrArg Except.ok (List.append_assoc es more ess.flatten)
  rw [hcheck, hfold]
  rfl

theorem check_eq_ok : m.check v = .ok [] ↔ ∀ c ∈ m.checks, c.Passes v := by
  simp only [check_eq, map_eq_ok, mapM_eq_ok, List.flatten_eq_nil_iff, ← errorsOn_eq_nil]
  constructor
  · rintro ⟨ess, hess, hnil⟩ c hc
    obtain ⟨es, he, hes⟩ := forall₂_left hess c hc
    rw [hes, hnil es he]
  · intro h
    refine ⟨m.checks.map fun _ => [], ?_, by simp⟩
    exact List.forall₂_map_right_iff.2 (List.forall₂_same.2 h)

theorem check_eq_error {f : Fault} (h : m.check v = .error f) :
    ∃ c ∈ m.checks, c.run v = .error (.fault f) := by
  rw [check_eq, map_eq_error] at h
  obtain ⟨c, hc, h⟩ := mapM_eq_error h
  exact ⟨c, hc, errorsOn_eq_error.1 h⟩

theorem mem_check {es : FormErrors} (h : m.check v = .ok es) :
    ∀ e ∈ es, ∃ c ∈ m.checks, ∃ more, c.run v = .error (.errors more) ∧ e ∈ more := by
  rw [check_eq, map_eq_ok] at h
  obtain ⟨ess, hess, rfl⟩ := h
  intro e he
  obtain ⟨more, hmore, he⟩ := List.mem_flatten.1 he
  obtain ⟨c, hc, h⟩ := forall₂_right (mapM_eq_ok.1 hess) more hmore
  exact ⟨c, hc, more, run_of_errorsOn h he, he⟩

namespace Schema

variable {s : Schema}

def Asks (s : Schema) (c : Check) : Prop :=
  ∃ t ps m, s.declaration t = .ok ps ∧ .member m ∈ ps ∧ c ∈ m.checks

/-- Checks and constructors do not tell apart what is related. -/
structure BlindTo (s : Schema) (R : Value → Value → Prop) : Prop where
  check : ∀ {c v w}, s.Asks c → R v w → c.run v = c.run w
  constructor : ∀ {t slots slots'}, R (.record t slots) (.record t slots') →
    s.objections t slots = s.objections t slots'

/-- Checks and constructors leave it to the records to name their errors. -/
structure LeavesNames (s : Schema) : Prop where
  check : ∀ {c v es e}, s.Asks c → c.run v = .error (.errors es) → e ∈ es → e.name = none
  constructor : ∀ {t slots e}, e ∈ s.objections t slots → e.name = none

/-- There are no checks or constructors of the user's own. -/
structure IsStandard (s : Schema) : Prop where
  check : ∀ {c}, s.Asks c → c.isStandard = true
  constructor : ∀ t slots, s.objections t slots = []

theorem isStandard_of_records
    (h : ∀ ps, .ok ps ∈ s.records → ∀ m, .member m ∈ ps → ∀ c ∈ m.checks, c.isStandard = true)
    (ho : ∀ t slots, s.objections t slots = []) : s.IsStandard where
  check := by
    rintro c ⟨t, ps, m, hd, hm, hc⟩
    refine h ps ?_ m hm c hc
    unfold declaration at hd
    cases hr : s.records[t.index]? with
    | none => simp [hr] at hd
    | some d =>
      rw [hr, Option.getD_some] at hd
      exact hd ▸ List.mem_of_getElem? hr
  constructor := ho

theorem IsStandard.leavesNames (h : s.IsStandard) : s.LeavesNames where
  check hc hrun he := by
    obtain ⟨kind, rfl⟩ := check_reason (h.check hc) hrun
    obtain rfl := List.mem_singleton.1 he
    rfl
  constructor {t slots e} he := by
    rw [h.constructor t slots] at he
    cases he

/-- What the checks of the library are blind to, a schema without any others is blind to. -/
theorem IsStandard.blindTo {R : Value → Value → Prop} (h : s.IsStandard)
    (hR : ∀ (c : Check) v w, c.isStandard = true → R v w → c.run v = c.run w) :
    s.BlindTo R where
  check hc hvw := hR _ _ _ (h.check hc) hvw
  constructor _ := by rw [h.constructor, h.constructor]

theorem BlindTo.member {R : Value → Value → Prop} {t : RecordType} {ps : List RecordPart}
    {w : Value} (h : s.BlindTo R) (hd : s.declaration t = .ok ps) (hm : .member m ∈ ps)
    (hvw : R v w) : m.check v = m.check w := by
  rw [check_eq, check_eq, mapM_congr fun c hc => ?_]
  rw [Check.errorsOn, Check.errorsOn, h.check ⟨t, ps, m, hd, hm, hc⟩ hvw]

end Schema

namespace Collected

variable {c : Collected} {o : Objections} {e : FormError}

theorem complaints_eq_nil : c.complaints o = [] ↔ c.errors = [] ∧ o c.fields = [] := by
  unfold complaints
  cases c.errors <;> simp

theorem complaints_of_ne_nil (h : c.errors ≠ []) : c.complaints o = c.errors := by
  rw [complaints, if_neg (by simpa using h)]

theorem complaints_of_mem (h : e ∈ c.errors) : c.complaints o = c.errors :=
  complaints_of_ne_nil (List.ne_nil_of_mem h)

theorem complaints_cases : c.complaints o = o c.fields ∨ c.complaints o = c.errors := by
  unfold complaints
  split_ifs
  · exact .inl rfl
  · exact .inr rfl

end Collected

end WebForm
