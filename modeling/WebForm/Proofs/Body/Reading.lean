import Mathlib
import WebForm.Proofs.Body.Taking

/-!
# How bodies are read

The reading of a body comes to its end, to a chunk that goes past the limit or to one at which the
reader halts; or there is no reader in the first place. In each case all that the reader has
reported is kept, and what ended the reading comes after it.
-/
namespace WebForm.Body

inductive Stop where
  | complete
  | tooLarge (limit : Int)
  | halted (h : Halt)

namespace Stop

def errors : Stop → FormErrors
  | complete | halted (.fault _) => []
  | tooLarge l => [⟨.invalidLength none (some (.int l)), .form, none, none⟩]
  | halted .malformed => [.ofKind (.unreadable .multipart .body)]

def ofState {σ : Type} : Except Halt σ → Stop
  | .ok _ => complete
  | .error h => halted h

end Stop

/-- The chunks that were written to the reader, what it reported, and what ended the reading. -/
structure Receipt where
  written : List Text.Octets
  items : List Item
  stop : Stop

namespace Receipt

def after (chunk : Text.Octets) (items : List Item) (rest : Receipt) : Receipt :=
  ⟨chunk :: rest.written, items ++ rest.items, rest.stop⟩

def submissions (take : Item → Submission) (body : Receipt) : List Submission :=
  body.items.map take ++ body.stop.errors.map .error

def fields (take : Item → Submission) (body : Receipt) : List Field :=
  fieldsOf (body.items.map take)

def errors (take : Item → Submission) (body : Receipt) : FormErrors :=
  errorsOf (body.items.map take) ++ body.stop.errors

theorem fieldsOf_submissions (take : Item → Submission) (body : Receipt) :
    fieldsOf (body.submissions take) = body.fields take := by
  rw [submissions, fieldsOf_append, fieldsOf_errors, List.append_nil, fields]

theorem errorsOf_submissions (take : Item → Submission) (body : Receipt) :
    errorsOf (body.submissions take) = body.errors take := by
  rw [submissions, errorsOf_append, errorsOf_errors, errors]

end Receipt

/-- Reads chunks as long as they keep to the limit, with so many octets received before. -/
def Reader.readFrom (r : Reader) (limit : Option Int) (received : Nat) (s : r.State) :
    List Text.Octets → Receipt
  | [] => ⟨[], (r.finish s).items, .ofState (r.finish s).state⟩
  | chunk :: chunks =>
    let received := received + chunk.length
    match limit.filter (· < (received : Int)) with
    | some l => ⟨[], [], .tooLarge l⟩
    | none =>
      match (r.write s chunk).state with
      | .ok t => .after chunk (r.write s chunk).items (r.readFrom limit received t chunks)
      | .error h => ⟨[chunk], (r.write s chunk).items, .halted h⟩

def Reader.read (r : Reader) (limit : Option Int) (chunks : List Text.Octets) : Receipt :=
  r.readFrom limit 0 r.start chunks

section Chunks

variable {r : Reader} {limit : Option Int} {received : Nat} {s t : r.State} {h : Halt}
  {chunk : Text.Octets} {chunks : List Text.Octets}

def exceeded (limit : Option Int) (received : Nat) : Option Int :=
  limit.filter (· < (received : Int))

theorem exceeded_eq_none : exceeded limit received = none ↔ ∀ l ∈ limit, (received : Int) ≤ l := by
  simp [exceeded, Option.filter_eq_none_iff]

theorem readFrom_exceeded {l : Int} (hl : exceeded limit (received + chunk.length) = some l) :
    r.readFrom limit received s (chunk :: chunks) = ⟨[], [], .tooLarge l⟩ := by
  unfold exceeded at hl
  simp only [Reader.readFrom, hl]

theorem readFrom_ok (hl : exceeded limit (received + chunk.length) = none)
    (ht : (r.write s chunk).state = .ok t) :
    r.readFrom limit received s (chunk :: chunks) =
      .after chunk (r.write s chunk).items
        (r.readFrom limit (received + chunk.length) t chunks) := by
  unfold exceeded at hl
  simp only [Reader.readFrom, hl, ht]

theorem readFrom_halted (hl : exceeded limit (received + chunk.length) = none)
    (hh : (r.write s chunk).state = .error h) :
    r.readFrom limit received s (chunk :: chunks) =
      ⟨[chunk], (r.write s chunk).items, .halted h⟩ := by
  unfold exceeded at hl
  simp only [Reader.readFrom, hl, hh]

theorem written_isPrefix : (r.readFrom limit received s chunks).written <+: chunks := by
  induction chunks generalizing received s with
  | nil => exact List.prefix_rfl
  | cons chunk chunks ih =>
    cases hl : exceeded limit (received + chunk.length) with
    | some l =>
      rw [readFrom_exceeded hl]
      exact List.nil_prefix
    | none =>
      cases ht : (r.write s chunk).state with
      | ok t =>
        rw [readFrom_ok hl ht]
        exact (List.prefix_cons_inj chunk).2 ih
      | error h =>
        rw [readFrom_halted hl ht]
        exact (List.prefix_cons_inj chunk).2 List.nil_prefix

theorem written_le_limit {l : Int} (hne : (r.readFrom (some l) received s chunks).written ≠ []) :
    received + (r.readFrom (some l) received s chunks).written.flatten.length ≤ l := by
  induction chunks generalizing received s with
  | nil => exact absurd rfl hne
  | cons chunk chunks ih =>
    cases hl : exceeded (some l) (received + chunk.length) with
    | some l' =>
      rw [readFrom_exceeded hl] at hne
      exact absurd rfl hne
    | none =>
      have hchunk := exceeded_eq_none.1 hl l rfl
      cases ht : (r.write s chunk).state with
      | error h =>
        rw [readFrom_halted hl ht, List.flatten_singleton]
        exact_mod_cast hchunk
      | ok t =>
        rw [readFrom_ok hl ht, Receipt.after, List.flatten_cons, List.length_append]
        by_cases hrest : (r.readFrom (some l) (received + chunk.length) t chunks).written = []
        · rw [hrest, List.flatten_nil, List.length_nil]
          exact_mod_cast hchunk
        · have hrest := ih hrest
          push_cast at hrest ⊢
          rwa [← add_assoc]

theorem written_of_complete (hstop : (r.readFrom limit received s chunks).stop = .complete) :
    (r.readFrom limit received s chunks).written = chunks := by
  induction chunks generalizing received s with
  | nil => rfl
  | cons chunk chunks ih =>
    cases hl : exceeded limit (received + chunk.length) with
    | some l =>
      rw [readFrom_exceeded hl] at hstop
      cases hstop
    | none =>
      cases ht : (r.write s chunk).state with
      | error h =>
        rw [readFrom_halted hl ht] at hstop
        cases hstop
      | ok t =>
        rw [readFrom_ok hl ht] at hstop ⊢
        exact congrArg (chunk :: ·) (ih hstop)

theorem readFrom_unlimited (hlimit : ∀ l ∈ limit, (received + chunks.flatten.length : Nat) ≤ l) :
    r.readFrom limit received s chunks = r.readFrom none received s chunks := by
  induction chunks generalizing received s with
  | nil => rfl
  | cons chunk chunks ih =>
    rw [List.flatten_cons, List.length_append, ← Nat.add_assoc] at hlimit
    have hl : exceeded limit (received + chunk.length) = none :=
      exceeded_eq_none.2 fun l hl => le_trans (by push_cast; omega) (hlimit l hl)
    have hn : exceeded none (received + chunk.length) = none := rfl
    cases ht : (r.write s chunk).state with
    | error h => rw [readFrom_halted hl ht, readFrom_halted hn ht]
    | ok t => rw [readFrom_ok hl ht, readFrom_ok hn ht, ih hlimit]

theorem submissions_delivery {σ : Type} (r : Reader) (d : Delivery σ)
    (hstop : ∀ f, Stop.ofState d.state ≠ .halted (.fault f)) :
    r.submissions d = d.items.map r.submission ++ (Stop.ofState d.state).errors.map .error := by
  unfold Reader.submissions
  rcases hd : d.state with (_ | f) | t
  · rfl
  · exact absurd (by rw [hd]; rfl) (hstop f)
  · exact (List.append_nil _).symm

theorem submissionsFrom_eq
    (hstop : ∀ f, (r.readFrom limit received s chunks).stop ≠ .halted (.fault f)) :
    submissionsFrom r limit received s chunks =
      (r.readFrom limit received s chunks).submissions r.submission := by
  induction chunks generalizing received s with
  | nil => exact submissions_delivery r _ hstop
  | cons chunk chunks ih =>
    cases hl : exceeded limit (received + chunk.length) with
    | some l =>
      rw [readFrom_exceeded hl]
      unfold exceeded at hl
      simp only [submissionsFrom, hl]
      rfl
    | none =>
      cases ht : (r.write s chunk).state with
      | error h =>
        rw [readFrom_halted hl ht] at hstop ⊢
        unfold exceeded at hl
        simp only [submissionsFrom, hl, ht, List.append_nil]
        rw [submissions_delivery r _ (by rw [ht]; exact hstop), ht]
        rfl
      | ok t =>
        rw [readFrom_ok hl ht] at hstop ⊢
        unfold exceeded at hl
        simp only [submissionsFrom, hl, ht]
        rw [submissions_delivery r _ (by rw [ht]; exact nofun), ht, ih hstop]
        simp [Receipt.submissions, Receipt.after, Stop.ofState, Stop.errors]

end Chunks

def submissionsOf (reader? : Option Reader) (limit : Option Int) (chunks : List Text.Octets) :
    List Submission :=
  match reader? with
  | some r => submissionsFrom r limit 0 r.start chunks
  | none => [malformed]

theorem submissions_eq (rules : Rules) (contentType : Option String) (chunks : List Text.Octets) :
    submissions rules contentType chunks =
      submissionsOf ((format? rules contentType).map Format.reader) rules.sizeLimit chunks := by
  unfold submissions submissionsOf
  cases format? rules contentType <;> rfl

/-- Without a reader nothing is written. -/
def receipt (reader? : Option Reader) (limit : Option Int) (chunks : List Text.Octets) : Receipt :=
  match reader? with
  | some r => r.read limit chunks
  | none => ⟨[], [], .halted .malformed⟩

theorem submissionsOf_eq {reader? : Option Reader} {limit : Option Int} {chunks : List Text.Octets}
    {take : Item → Submission} (htake : ∀ r ∈ reader?, r.submission = take)
    (hstop : ∀ f, (receipt reader? limit chunks).stop ≠ .halted (.fault f)) :
    submissionsOf reader? limit chunks = (receipt reader? limit chunks).submissions take := by
  cases reader? with
  | none => rfl
  | some r =>
    rw [← htake r rfl]
    exact submissionsFrom_eq hstop

end WebForm.Body
