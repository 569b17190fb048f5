import WebForm.Fault
import WebForm.Field
import WebForm.FileName
import WebForm.Outcome

/-!
# Uploads

An upload is kept in memory until it grows past a limit and is then moved to a file. A second limit
rejects it altogether. What was written is read from the start.
-/
namespace WebForm

/-- The directory for files. Files can be made there only if it is available. -/
structure Directory where
  path : String
  available : Bool
  deriving DecidableEq, Repr

/-- When and where what was kept in memory is moved to a file. A file that does not keep its name
has a temporary one, which may keep the extension. -/
structure Storage where
  directory : Option Directory
  keepFileName : Bool
  keepExtensions : Bool
  memoryLimit : Option Int
  deriving DecidableEq, Repr

namespace Storage

def standard : Storage := ⟨none, false, false, some (1024 * 1024)⟩

def nameLimit : Nat := 255

def temporaryLength : Nat := 11

def isAvailable (s : Storage) : Bool := s.directory.all (·.available)

def canStore (s : Storage) (fileName : Option Text.Octets) : Except Fault Bool :=
  if s.directory.isSome && s.keepFileName then
    match fileName.map FileName.splitOctets with
    | none => .error (.lacksAttribute "File" "_file_base")
    | some (stem, extension) =>
      if (if s.keepExtensions then stem ++ extension else stem).contains 0 then .error .zeroOctet
      else .ok s.isAvailable
  else if s.keepExtensions then
    match fileName.map FileName.splitOctets with
    | none => .error (.lacksAttribute "File" "_ext")
    | some (_, extension) =>
      match Text.decode extension with
      | .error p => .error (.undecodable p)
      | .ok _ =>
        if extension.contains 0 then .error .zeroOctet
        else .ok (s.isAvailable && temporaryLength + extension.length ≤ nameLimit)
  else .ok s.isAvailable

def keep (s : Storage) (fileName : Option Text.Octets) (inMemory : Bool) (size : Nat) :
    Except Fault (Option Bool) :=
  if inMemory && s.memoryLimit.any (· < (size : Int)) then
    (s.canStore fileName).map fun stored => if stored then some false else none
  else .ok (some inMemory)

end Storage

structure UploadRules where
  storage : Storage
  sizeLimit : Option Int
  chunkSize : Option Int
  deriving DecidableEq, Repr

namespace UploadRules

def standard : UploadRules := ⟨.standard, none, some (64 * 1024)⟩

def write (r : UploadRules) (f : StoredFile) (bs : Text.Octets) : Outcome StoredFile :=
  let size := f.content.length + bs.length
  match r.sizeLimit.filter (· < (size : Int)) with
  | some limit => .error (.errors (.ofKind (.invalidLength none (some (.int limit)))))
  | none =>
    match r.storage.keep (f.fileName.map Text.encodeString) f.inMemory size with
    | .error fault => .error (.fault fault)
    | .ok none => .error (.errors (.ofKind (.unreadable .file .storage)))
    | .ok (some inMemory) => .ok { f with content := f.content ++ bs, inMemory, position := size }

/-- Writes what the source gives until a read gives nothing. -/
def writeAll (r : UploadRules) (f : StoredFile) (s : Source) : Outcome StoredFile :=
  let size := r.chunkSize.getD (-1)
  if (s.read size).1 = [] then .ok f
  else
    match r.write f (s.read size).1 with
    | .ok f => r.writeAll f (s.read size).2
    | .error e => .error e
termination_by s.rest.length
decreasing_by exact s.length_read _ ‹_›

def ofValue (r : UploadRules) (f : ValueField) : Outcome StoredFile :=
  (r.write ⟨f.name.source.text, none, [], true, 0⟩ (Text.encodeString f.value)).map .rewind

def ofData (r : UploadRules) (f : DataField) : Outcome StoredFile :=
  (r.writeAll ⟨f.name.source.text, f.fileName, [], true, 0⟩ f.data).map .rewind

end UploadRules

end WebForm
