import Mathlib
import WebForm.Form.Upload

/-!
# Uploads in chunks

However the source of an upload is read, what is written in the end is all that it gives, and only
the sizes of what was written so far are compared with the limits. So an upload is complete or
rejected, and neither the chunks nor the reads can be told from the outcome. Nothing is written of
an empty source, so its file stays in memory even if no file should.
-/
namespace WebForm

/-- Whether a file of this size may be kept in memory. -/
def Storage.Holds (s : Storage) (size : Nat) : Prop := ∀ limit ∈ s.memoryLimit, (size : Int) ≤ limit

instance (s : Storage) (size : Nat) : Decidable (s.Holds size) :=
  decidable_of_iff (s.memoryLimit.all fun limit => decide ((size : Int) ≤ limit)) (by
    cases h : s.memoryLimit <;> simp [Storage.Holds, h])

theorem Storage.keep_of_canStore {s : Storage} {fileName : Option Text.Octets} {inMemory : Bool}
    {size : Nat} (h : s.canStore fileName = .ok true) :
    s.keep fileName inMemory size = .ok (some (inMemory && s.Holds size)) := by
  have hany : s.memoryLimit.any (· < (size : Int)) = !decide (s.Holds size) := by
    cases hlimit : s.memoryLimit <;> simp [Storage.Holds, hlimit, ← decide_not]
  rw [Storage.keep, h, hany]
  cases inMemory <;> cases decide (s.Holds size) <;> rfl

theorem Source.read_eq_nil {s : Source} {size : Int} (h : size ≠ 0) :
    (s.read size).1 = [] ↔ s.rest = [] := by
  unfold Source.read
  split_ifs with hneg
  · rfl
  · have hsize : size.toNat ≠ 0 := by omega
    split
    · simp [List.take_eq_nil_iff, hsize]
    · next p _ _ =>
      have hportion : min size.toNat (max p 1) ≠ 0 := by omega
      simp [List.take_eq_nil_iff, hportion]

namespace UploadRules

def Admits (r : UploadRules) (size : Nat) : Prop := ∀ limit ∈ r.sizeLimit, (size : Int) ≤ limit

def grown (r : UploadRules) (x : StoredFile) (bs : Text.Octets) : StoredFile :=
  { x with
    content := x.content ++ bs
    inMemory := x.inMemory && r.storage.Holds (x.content.length + bs.length)
    position := x.content.length + bs.length }

def written (r : UploadRules) (x : StoredFile) (bs : Text.Octets) : StoredFile :=
  if bs = [] then x else r.grown x bs

def complete (r : UploadRules) (name : String) (fileName : Option String) (bs : Text.Octets) :
    StoredFile :=
  ⟨name, fileName, bs, bs = [] ∨ r.storage.Holds bs.length, 0⟩

def CanStore (r : UploadRules) (fileName : Option String) : Prop :=
  r.storage.canStore (fileName.map Text.encodeString) = .ok true

def tooLong (limit : Int) : FormErrors :=
  [⟨.invalidLength none (some (.int limit)), .value, none, none⟩]

section Writing

variable {r : UploadRules} {x : StoredFile} {bs cs : Text.Octets} {source : Source} {limit : Int}

theorem Admits.of_le {m n : Nat} (h : r.Admits n) (hmn : m ≤ n) : r.Admits m :=
  fun limit hlimit => le_trans (Int.ofNat_le.2 hmn) (h limit hlimit)

theorem admits_iff {n : Nat} (hlimit : limit ∈ r.sizeLimit) : r.Admits n ↔ (n : Int) ≤ limit := by
  simp [Admits, Option.mem_def.1 hlimit]

@[simp] theorem written_nil : r.written x [] = x := if_pos rfl

theorem written_of_ne_nil (h : bs ≠ []) : r.written x bs = r.grown x bs := if_neg h

@[simp] theorem content_written : (r.written x bs).content = x.content ++ bs := by
  unfold written
  split_ifs with h
  · rw [h, List.append_nil]
  · rfl

@[simp] theorem fileName_written : (r.written x bs).fileName = x.fileName := by
  unfold written
  split_ifs <;> rfl

theorem written_append : r.written (r.written x bs) cs = r.written x (bs ++ cs) := by
  by_cases hbs : bs = []
  · rw [hbs, written_nil, List.nil_append]
  by_cases hcs : cs = []
  · rw [hcs, written_nil, List.append_nil]
  have hholds : r.storage.Holds (x.content.length + (bs ++ cs).length) →
      r.storage.Holds (x.content.length + bs.length) := by
    intro h limit hlimit
    have hle := h limit hlimit
    rw [List.length_append] at hle
    omega
  have happend : bs ++ cs ≠ [] := fun h => hbs (List.append_eq_nil_iff.1 h).1
  rw [written_of_ne_nil hbs, written_of_ne_nil hcs, written_of_ne_nil happend]
  simp only [grown, List.append_assoc,
    List.length_append, ← Nat.add_assoc, Bool.and_assoc, StoredFile.mk.injEq, true_and, and_true]
  rw [List.length_append, ← Nat.add_assoc] at hholds
  congr 1
  simpa using hholds

theorem write_admitted (hstore : r.CanStore x.fileName)
    (hadmits : r.Admits (x.content.length + bs.length)) : r.write x bs = .ok (r.grown x bs) := by
  have hsize : r.sizeLimit.filter (· < ((x.content.length + bs.length : Nat) : Int)) = none := by
    simpa [Option.filter_eq_none_iff, Admits] using hadmits
  simp only [write, hsize, Storage.keep_of_canStore hstore, grown]

theorem eq_written {y : StoredFile} (hstore : r.CanStore x.fileName)
    (hadmits : r.Admits (x.content.length + bs.length)) (hbs : bs ≠ [])
    (hy : r.write x bs = .ok y) : y = r.written x bs := by
  rw [write_admitted hstore hadmits, ← written_of_ne_nil hbs] at hy
  exact (Except.ok.inj hy).symm

theorem write_refused (hlimit : limit ∈ r.sizeLimit)
    (h : limit < (x.content.length + bs.length : Nat)) :
    r.write x bs = .error (.errors (tooLong limit)) := by
  have hsize : r.sizeLimit.filter (· < ((x.content.length + bs.length : Nat) : Int)) =
      some limit := by
    rw [hlimit, Option.filter_some, if_pos (decide_eq_true h)]
  simp only [write, hsize]
  rfl

theorem chunk_eq_nil (hchunk : r.chunkSize ≠ some 0) :
    (source.read (r.chunkSize.getD (-1))).1 = [] ↔ source.rest = [] := by
  refine Source.read_eq_nil ?_
  cases h : r.chunkSize with
  | none => decide
  | some n => exact fun hn => hchunk (h.trans (congrArg some hn))

theorem length_chunk (source : Source) (size : Int) :
    (source.read size).1.length + (source.read size).2.rest.length = source.rest.length := by
  rw [← List.length_append, source.read_append]

theorem writeAll_ok {y : StoredFile} (hread : (source.read (r.chunkSize.getD (-1))).1 ≠ [])
    (hy : r.write x (source.read (r.chunkSize.getD (-1))).1 = .ok y) :
    r.writeAll x source = r.writeAll y (source.read (r.chunkSize.getD (-1))).2 := by
  rw [UploadRules.writeAll, if_neg hread, hy]

theorem writeAll_admitted (hchunk : r.chunkSize ≠ some 0) (hstore : r.CanStore x.fileName)
    (hadmits : r.Admits (x.content.length + source.rest.length)) :
    r.writeAll x source = .ok (r.written x source.rest) := by
  induction x, source using UploadRules.writeAll.induct r with
  | case1 x source size hread =>
    rw [UploadRules.writeAll, if_pos hread, (chunk_eq_nil hchunk).1 hread, written_nil]
  | case2 x source size hread y hy ih =>
    have hlength := length_chunk source size
    have hroom : r.Admits (x.content.length + (source.read size).1.length) :=
      hadmits.of_le (by omega)
    obtain rfl := eq_written hstore hroom hread hy
    rw [writeAll_ok hread hy, ih, written_append, source.read_append]
    · rwa [fileName_written]
    · refine hadmits.of_le ?_
      rw [content_written, List.length_append]
      omega
  | case3 x source size hread e he =>
    have hlength := length_chunk source size
    have hroom : r.Admits (x.content.length + (source.read size).1.length) :=
      hadmits.of_le (by omega)
    rw [write_admitted hstore hroom] at he
    cases he

theorem writeAll_refused (hchunk : r.chunkSize ≠ some 0) (hstore : r.CanStore x.fileName)
    (hadmits : r.Admits x.content.length) (hlimit : limit ∈ r.sizeLimit)
    (h : limit < (x.content.length + source.rest.length : Nat)) :
    r.writeAll x source = .error (.errors (tooLong limit)) := by
  induction x, source using UploadRules.writeAll.induct r with
  | case1 x source size hread =>
    rw [(chunk_eq_nil hchunk).1 hread] at h
    exact absurd h (not_lt.2 (hadmits limit hlimit))
  | case2 x source size hread y hy ih =>
    have hlength := length_chunk source size
    have hroom : r.Admits (x.content.length + (source.read size).1.length) := by
      rw [admits_iff hlimit]
      by_contra hroom
      rw [write_refused hlimit (not_le.1 hroom)] at hy
      cases hy
    obtain rfl := eq_written hstore hroom hread hy
    have hcontent : (r.written x (source.read size).1).content.length =
        x.content.length + (source.read size).1.length := by
      rw [content_written, List.length_append]
    rw [writeAll_ok hread hy]
    refine ih ?_ (hcontent ▸ hroom) ?_
    · rwa [fileName_written]
    · omega
  | case3 x source size hread e he =>
    rw [UploadRules.writeAll, if_neg hread, he]
    by_cases hroom : r.Admits (x.content.length + (source.read size).1.length)
    · rw [write_admitted hstore hroom] at he
      cases he
    · rw [admits_iff hlimit, not_le] at hroom
      exact he.symm.trans (write_refused hlimit hroom)

end Writing

section Outcomes

variable {r : UploadRules} {f : DataField} {g : ValueField} {limit : Int}

theorem ofData_admitted (hchunk : r.chunkSize ≠ some 0) (hstore : r.CanStore f.fileName)
    (hadmits : r.Admits f.data.rest.length) :
    r.ofData f = .ok (r.complete f.name.source.text f.fileName f.data.rest) := by
  rw [ofData, writeAll_admitted hchunk hstore (by simpa using hadmits)]
  refine congrArg Except.ok ?_
  by_cases h : f.data.rest = []
  · simp [written, complete, h, StoredFile.rewind]
  · simp [written, complete, grown, h, StoredFile.rewind]

theorem ofData_refused (hchunk : r.chunkSize ≠ some 0) (hnonneg : ∀ limit ∈ r.sizeLimit, 0 ≤ limit)
    (hstore : r.CanStore f.fileName) (hlimit : limit ∈ r.sizeLimit)
    (h : limit < f.data.rest.length) : r.ofData f = .error (.errors (tooLong limit)) := by
  rw [ofData, writeAll_refused hchunk hstore ?_ hlimit (by simpa using h)]
  · rfl
  · exact (admits_iff hlimit).2 (hnonneg limit hlimit)

theorem ofValue_admitted (hstore : r.CanStore none)
    (hadmits : r.Admits (Text.encodeString g.value).length) :
    r.ofValue g = .ok ⟨g.name.source.text, none, Text.encodeString g.value,
      r.storage.Holds (Text.encodeString g.value).length, 0⟩ := by
  rw [ofValue, write_admitted hstore (by simpa using hadmits)]
  simp [grown, StoredFile.rewind, Except.map]

theorem ofValue_refused (hlimit : limit ∈ r.sizeLimit)
    (h : limit < (Text.encodeString g.value).length) :
    r.ofValue g = .error (.errors (tooLong limit)) := by
  rw [ofValue, write_refused hlimit (by simpa using h)]
  rfl

theorem exists_refusing (h : ¬r.Admits f.data.rest.length) :
    ∃ limit ∈ r.sizeLimit, limit < f.data.rest.length := by
  simpa [Admits] using h

/-- Chunks of another size, and reads that give other portions, come to the same. -/
theorem ofData_rechunked {chunkSize : Option Int} {data : Source} (hchunk : r.chunkSize ≠ some 0)
    (hchunk' : chunkSize ≠ some 0) (hnonneg : ∀ limit ∈ r.sizeLimit, 0 ≤ limit)
    (hstore : r.CanStore f.fileName) (hdata : data.rest = f.data.rest) :
    ({ r with chunkSize } : UploadRules).ofData { f with data } = r.ofData f := by
  by_cases hadmits : r.Admits f.data.rest.length
  · have h : ({ r with chunkSize } : UploadRules).ofData { f with data } =
        .ok (r.complete f.name.source.text f.fileName data.rest) :=
      ofData_admitted hchunk' hstore (hdata ▸ hadmits)
    rw [h, hdata, ofData_admitted hchunk hstore hadmits]
  · obtain ⟨limit, hlimit, hlt⟩ := exists_refusing hadmits
    have h : ({ r with chunkSize } : UploadRules).ofData { f with data } =
        .error (.errors (tooLong limit)) :=
      ofData_refused hchunk' hnonneg hstore hlimit (hdata ▸ hlt)
    rw [h, ofData_refused hchunk hnonneg hstore hlimit hlt]

/-- A text is uploaded like a source that gives its octets. An empty text is written all the same,
so that it leaves memory if no file is to be kept there. -/
theorem ofData_text (hchunk : r.chunkSize ≠ some 0) (hnonneg : ∀ limit ∈ r.sizeLimit, 0 ≤ limit)
    (hstore : r.CanStore f.fileName) (hnameless : r.CanStore none) (hname : g.name = f.name)
    (htext : Text.encodeString g.value = f.data.rest)
    (h : f.data.rest ≠ [] ∨ r.storage.Holds 0) :
    r.ofData f = (r.ofValue g).map fun x => { x with fileName := f.fileName } := by
  by_cases hadmits : r.Admits f.data.rest.length
  · have hholds : (f.data.rest = [] ∨ r.storage.Holds f.data.rest.length) ↔
        r.storage.Holds f.data.rest.length := by
      refine or_iff_right_of_imp fun hempty => ?_
      rw [hempty]
      exact h.resolve_left fun hne => hne hempty
    rw [ofData_admitted hchunk hstore hadmits, ofValue_admitted hnameless (htext ▸ hadmits)]
    simp only [complete, hholds, Except.map, htext, hname]
  · obtain ⟨limit, hlimit, h⟩ := exists_refusing hadmits
    rw [ofData_refused hchunk hnonneg hstore hlimit h, ofValue_refused hlimit (htext ▸ h)]
    rfl

end Outcomes

/-- An upload comes to a file exactly if its size is accepted. The file holds all of the octets,
stands at its start, and is in memory if it may be kept there or nothing was written. Otherwise the
limit is the one error. This holds for chunks of any size and reads of any portions, and a text is
uploaded like its octets, unless it is empty and no file is to be kept in memory. -/
theorem upload_complete {r : UploadRules} (hchunk : r.chunkSize ≠ some 0)
    (hnonneg : ∀ limit ∈ r.sizeLimit, 0 ≤ limit) {f : DataField} (hstore : r.CanStore f.fileName) :
    (∀ x, r.ofData f = .ok x ↔ r.Admits f.data.rest.length ∧
      x = ⟨f.name.source.text, f.fileName, f.data.rest,
        f.data.rest = [] ∨ r.storage.Holds f.data.rest.length, 0⟩) ∧
    (∀ x, r.ofData f = .ok x →
      (Value.file x).attribute? "size" = some (.int f.data.rest.length)) ∧
    (∀ limit ∈ r.sizeLimit, limit < f.data.rest.length →
      r.ofData f =
        .error (.errors [⟨.invalidLength none (some (.int limit)), .value, none, none⟩])) ∧
    (∀ (chunkSize : Option Int) (data : Source), chunkSize ≠ some 0 → data.rest = f.data.rest →
      ({ r with chunkSize } : UploadRules).ofData { f with data } = r.ofData f) ∧
    ∀ g : ValueField, g.name = f.name → Text.encodeString g.value = f.data.rest →
      r.CanStore none →
      (f.data.rest ≠ [] ∨ r.storage.Holds 0 →
        r.ofData f = (r.ofValue g).map fun x => { x with fileName := f.fileName }) ∧
      (f.data.rest = [] → ¬r.storage.Holds 0 →
        r.ofValue g = .ok ⟨f.name.source.text, none, [], false, 0⟩) := by
  have hok (x : StoredFile) : r.ofData f = .ok x ↔ r.Admits f.data.rest.length ∧
      x = r.complete f.name.source.text f.fileName f.data.rest := by
    by_cases hadmits : r.Admits f.data.rest.length
    · rw [ofData_admitted hchunk hstore hadmits, Except.ok.injEq, eq_comm]
      exact (and_iff_right hadmits).symm
    · obtain ⟨limit, hlimit, h⟩ := exists_refusing hadmits
      rw [ofData_refused hchunk hnonneg hstore hlimit h]
      exact ⟨nofun, fun h => absurd h.1 hadmits⟩
  refine ⟨hok, fun x hx => ?_, fun limit => ofData_refused hchunk hnonneg hstore,
    fun chunkSize data hchunk' => ofData_rechunked hchunk hchunk' hnonneg hstore,
    fun g hname htext hnameless => ⟨ofData_text hchunk hnonneg hstore hnameless hname htext,
      fun hempty hholds => ?_⟩⟩
  · obtain ⟨-, rfl⟩ := (hok x).1 hx
    rfl
  · rw [hempty] at htext
    rw [ofValue_admitted hnameless, hname, htext]
    · simpa using hholds
    · rw [htext]
      exact hnonneg

def lettersRules : UploadRules := ⟨⟨none, false, false, some 4⟩, some 8, some 3⟩

def letterField (text : String) : DataField :=
  ⟨.ofName (.ofString "letter"), ⟨Text.encodeString text, [2, 1, 1]⟩, some "letter.txt", none⟩

/-- Five octets are too many for memory, nine too many for an upload. -/
theorem letters_complete :
    lettersRules.chunkSize ≠ some 0 ∧ (∀ limit ∈ lettersRules.sizeLimit, 0 ≤ limit) ∧
      lettersRules.CanStore (some "letter.txt") ∧
      lettersRules.ofData (letterField "Hello") =
        .ok ⟨"letter", some "letter.txt", Text.encodeString "Hello", false, 0⟩ ∧
      lettersRules.ofData (letterField "Dear Rex,") =
        .error (.errors [⟨.invalidLength none (some (.int 8)), .value, none, none⟩]) := by
  have hchunk : lettersRules.chunkSize ≠ some 0 := by decide
  have hnonneg : ∀ limit ∈ lettersRules.sizeLimit, 0 ≤ limit := by decide
  have hstore : lettersRules.CanStore (some "letter.txt") := rfl
  obtain ⟨hok, -⟩ := upload_complete hchunk hnonneg (f := letterField "Hello") hstore
  obtain ⟨-, -, herror, -⟩ := upload_complete hchunk hnonneg (f := letterField "Dear Rex,") hstore
  have hadmits : lettersRules.Admits (letterField "Hello").data.rest.length :=
    (admits_iff rfl).2 (by decide)
  exact ⟨hchunk, hnonneg, hstore, (hok _).2 ⟨hadmits, rfl⟩, herror 8 rfl (by decide)⟩

def unheldRules : UploadRules := ⟨⟨none, false, false, some (-1)⟩, none, some 3⟩

/-- The file of an empty source stays in memory where no file may be kept, and the one of an empty
text does not. -/
theorem empty_upload_held :
    unheldRules.chunkSize ≠ some 0 ∧ (∀ limit ∈ unheldRules.sizeLimit, 0 ≤ limit) ∧
      unheldRules.CanStore none ∧ ¬unheldRules.storage.Holds 0 ∧
      unheldRules.ofData ⟨.ofName (.ofString "x"), .ofOctets [], none, none⟩ =
        .ok ⟨"x", none, [], true, 0⟩ ∧
      unheldRules.ofValue ⟨.ofName (.ofString "x"), ""⟩ = .ok ⟨"x", none, [], false, 0⟩ := by
  have hchunk : unheldRules.chunkSize ≠ some 0 := by decide
  exact ⟨hchunk, nofun, rfl, by decide, ofData_admitted hchunk rfl nofun, rfl⟩

end UploadRules

end WebForm
