import Mathlib
import WebForm.Proofs.Body.Reading

/-!
# Broken bodies

A body is broken if it goes past the limit, if its reader halts or if a value in it is no text. No
form makes a plain value of a broken body: the errors of the body come before those of the form, or
into its context.
-/
namespace WebForm.Body

section Taken

variable {take : Item → Submission}

theorem take_ne_fault (htake : take = encodedSubmission ∨ take = rawSubmission) (i : Item)
    (f : Fault) : take i ≠ .fault f := by
  rcases htake with rfl | rfl
  · cases i <;> exact Submission.noConfusion
  · cases i with
    | file name fileName type content => exact Submission.noConfusion
    | value name value =>
      simp only [rawSubmission]
      split <;> exact Submission.noConfusion

theorem sound_submissions (htake : take = encodedSubmission ∨ take = rawSubmission)
    (body : Receipt) : Sound (body.submissions take) := by
  intro f hf
  rcases List.mem_append.1 hf with hf | hf
  · obtain ⟨i, -, hi⟩ := List.mem_map.1 hf
    exact take_ne_fault htake i f hi
  · obtain ⟨e, -, he⟩ := List.mem_map.1 hf
    cases he

theorem errors_of_undecodable {body : Receipt} {name value : Text.Octets} {p : Text.Utf8Problem}
    (hi : .value name value ∈ body.items) (hp : Text.decode value = .error p) :
    body.errors rawSubmission ≠ [] := by
  have herror : ∃ e, rawSubmission (.value name value) = .error e := by
    simp only [rawSubmission, hp]
    exact ⟨_, rfl⟩
  obtain ⟨e, he⟩ := herror
  have hmem : e ∈ errorsOf (body.items.map rawSubmission) :=
    List.mem_filterMap.2 ⟨.error e, List.mem_map.2 ⟨_, hi, he⟩, rfl⟩
  exact List.ne_nil_of_mem (List.mem_append_left _ hmem)

end Taken

theorem errors_of_stop {take : Item → Submission} {body : Receipt}
    (hstop : ∀ f, body.stop ≠ .halted (.fault f)) (hne : body.stop ≠ .complete) :
    body.errors take ≠ [] := by
  refine List.append_ne_nil_of_right_ne_nil _ ?_
  rcases hs : body.stop with _ | l | _ | f
  · exact absurd hs hne
  · exact List.cons_ne_nil _ _
  · exact List.cons_ne_nil _ _
  · exact absurd hs (hstop f)

section Limit

variable {reader? : Option Reader} {limit : Int} {chunks : List Text.Octets}

theorem receipt_isPrefix : (receipt reader? (some limit) chunks).written <+: chunks := by
  cases reader? with
  | none => exact List.nil_prefix
  | some r => exact written_isPrefix

theorem receipt_le_limit :
    ((receipt reader? (some limit) chunks).written.flatten.length : Int) ≤ max limit 0 := by
  by_cases hne : (receipt reader? (some limit) chunks).written = []
  · rw [hne]
    exact le_max_right _ _
  · cases reader? with
    | none => exact absurd rfl hne
    | some r =>
      have hlimit := written_le_limit hne
      rw [Nat.cast_zero, zero_add] at hlimit
      exact hlimit.trans (le_max_left _ _)

theorem receipt_of_tooLong (hreader : ∀ r ∈ reader?, 0 ≤ limit)
    (hlong : limit < chunks.flatten.length) :
    (receipt reader? (some limit) chunks).stop ≠ .complete := by
  intro hstop
  cases reader? with
  | none => cases hstop
  | some r =>
    have hle : ((r.read (some limit) chunks).written.flatten.length : Int) ≤ max limit 0 :=
      @receipt_le_limit (some r) limit chunks
    rw [Reader.read, written_of_complete hstop, max_eq_left (hreader r rfl)] at hle
    exact absurd hlong (not_lt.2 hle)

end Limit

/-- The body is longer than the limit, or it has no reader or one that halts, or a value in it is
taken as it is and is no UTF-8. -/
def Broken (take : Item → Submission) (limit : Int) (chunks : List Text.Octets) (body : Receipt) :
    Prop :=
  limit < chunks.flatten.length ∨ body.stop = .halted .malformed ∨
    take = rawSubmission ∧ ∃ name value p,
      .value name value ∈ body.items ∧ Text.decode value = .error p

/-- No more is written to a reader than the limit allows. If the body is broken, a form without a
context fails with what is wrong with the body, in the order in which it came up, and after that
with just the errors that it makes of the fields that were complete. A form with a context has each
of them once in its context. A reader takes only limits that a body can keep to, and it halts for no
other reason than a malformed body. -/
theorem broken_body_fails {reader? : Option Reader} {take : Item → Submission} {limit : Int}
    {chunks : List Text.Octets} (htake : take = encodedSubmission ∨ take = rawSubmission)
    (hreader : ∀ r ∈ reader?, r.submission = take ∧ 0 ≤ limit) :
    (receipt reader? (some limit) chunks).written <+: chunks ∧
      ((receipt reader? (some limit) chunks).written.flatten.length : Int) ≤ max limit 0 ∧
      ∀ (s : Schema) (form : Form) (mode : Mode) (own : Except FormErrors Value),
        (∀ f, (receipt reader? (some limit) chunks).stop ≠ .halted (.fault f)) →
        Outcome.caught (s.parse form mode ((receipt reader? (some limit) chunks).fields take)) =
          .ok own →
        Broken take limit chunks (receipt reader? (some limit) chunks) →
        (receipt reader? (some limit) chunks).errors take ≠ [] ∧
          (form.isContextual = false →
            s.parseBody form mode (submissionsOf reader? (some limit) chunks) =
              .error (.errors
                ((receipt reader? (some limit) chunks).errors take ++ failures own))) ∧
          ∀ item, form = .contextual item → ∃ v c c', own = .ok (.contextual v c') ∧
            s.parseBody form mode (submissionsOf reader? (some limit) chunks) =
              .ok (.contextual v c) ∧
            c.allErrors.Perm
              ((receipt reader? (some limit) chunks).errors take ++ c'.allErrors) := by
  refine ⟨receipt_isPrefix, receipt_le_limit, fun s form mode own hstop hown hbroken => ?_⟩
  have hne : (receipt reader? (some limit) chunks).errors take ≠ [] := by
    rcases hbroken with hlong | hhalted | ⟨rfl, name, value, p, hi, hp⟩
    · exact errors_of_stop hstop (receipt_of_tooLong (fun r hr => (hreader r hr).2) hlong)
    · exact errors_of_stop hstop (by rw [hhalted]; exact nofun)
    · exact errors_of_undecodable hi hp
  have hsubmissions := submissionsOf_eq (fun r hr => (hreader r hr).1) hstop
  have hsound := sound_submissions htake (receipt reader? (some limit) chunks)
  rw [← Receipt.fieldsOf_submissions] at hown
  rw [← Receipt.errorsOf_submissions] at hne ⊢
  rw [hsubmissions]
  refine ⟨hne, fun hform => parseBody_of_errors hform hsound hne hown, ?_⟩
  rintro item rfl
  exact parseBody_contextual hsound hown

def letterRules : Rules := ⟨some 112, none, none, .standard, false⟩

def letterType : String := "multipart/form-data; boundary=x"

def letterPart (name : String) (content : Text.Octets) : Text.Octets :=
  Text.encodeString ("--x\r\nContent-Disposition: form-data; name=" ++ name ++ "\r\n\r\n") ++
    content ++ Text.encodeString "\r\n"

def letter : Text.Octets :=
  letterPart "age" (Text.encodeString "old") ++ letterPart "name" [0xFF] ++
    Text.encodeString "--x--"

def letterErrors : FormErrors :=
  [⟨.unreadable .utf8 (.encoding ⟨[0xFF], 0, 1, .startByte⟩), .value,
      some (.name (.ofString "name")), none⟩,
    ⟨.invalidLength none (some (.int 112)), .form, none, none⟩]

def ageErrors : FormErrors :=
  [⟨.unreadable .int (.integer .digit), .value, some (.name (.ofString "age")), some "old"⟩]

def letterReader : Reader := .multipart ⟨[0x78], .standard, false⟩

theorem receipt_letter :
    receipt (some letterReader) (some 112) [letter, [0x0D]] =
      ⟨[letter], [.value (Text.encodeString "age") (Text.encodeString "old"),
        .value (Text.encodeString "name") [0xFF]], .tooLarge 112⟩ := by
  cbv

theorem letter_fails :
    Schema.empty.parseBody (.dict .text .integer) .strict
        (submissions letterRules letterType [letter, [0x0D]]) =
      .error (.errors (letterErrors ++ ageErrors)) ∧
    ∃ c, Schema.empty.parseBody (.contextual (.dict .text .integer)) .strict
        (submissions letterRules letterType [letter, [0x0D]]) =
      .ok (.contextual .none c) ∧ c.allErrors.Perm (letterErrors ++ ageErrors) := by
  have hfails := (@broken_body_fails (some letterReader) rawSubmission 112 [letter, [0x0D]]
    (.inr rfl) (by rintro r ⟨⟩; exact ⟨rfl, by decide⟩)).2.2
  have hlength : letter.length = 112 := by cbv
  have hformat : format? letterRules letterType = some (.multipart ⟨[0x78], .standard, false⟩) :=
    rfl
  have hfields : (receipt (some letterReader) (some 112) [letter, [0x0D]]).fields rawSubmission =
      [.value (.ofText "age" "old")] := by
    rw [receipt_letter, Receipt.fields]
    cbv
  have herrors : (receipt (some letterReader) (some 112) [letter, [0x0D]]).errors rawSubmission =
      letterErrors := by
    rw [receipt_letter, Receipt.errors]
    cbv
  rw [hfields, herrors] at hfails
  have hstop : ∀ f, (receipt (some letterReader) (some 112) [letter, [0x0D]]).stop ≠
      .halted (.fault f) := by
    intro f hf
    rw [receipt_letter] at hf
    cases hf
  have hbroken : Broken rawSubmission 112 [letter, [0x0D]]
      (receipt (some letterReader) (some 112) [letter, [0x0D]]) := .inl (by simp [hlength])
  obtain ⟨-, hplain, -⟩ := hfails Schema.empty (.dict .text .integer) .strict (.error ageErrors)
    hstop (by cbv) hbroken
  let own : FormContext := (Parser.noted .empty (.value (.ofText "age" "old"))).pushErrors ageErrors
  obtain ⟨-, -, hcontext⟩ := hfails Schema.empty (.contextual (.dict .text .integer)) .strict
    (.ok (.contextual .none own)) hstop (by cbv) hbroken
  obtain ⟨v, c, c', hown, hc, hall⟩ := hcontext _ rfl
  obtain ⟨rfl, rfl⟩ := Value.contextual.inj (Except.ok.inj hown)
  rw [submissions_eq, hformat]
  exact ⟨hplain rfl, c, hc, hall⟩

end WebForm.Body
