import WebForm.Number.Shortest
import WebForm.Value.Basic

/-!
# The text of values, errors and contexts

Quoted text shows how a value could be written down; plain text is the value's own text where it has
one.
-/
namespace WebForm

def quotedTime (t : Time) : List String :=
  let shown :=
    if t.microsecond ≠ 0 then [t.hour, t.minute, t.second, t.microsecond]
    else if t.second ≠ 0 then [t.hour, t.minute, t.second]
    else [t.hour, t.minute]
  shown.map toString ++
    match t.offset with
    | none => []
    | some o =>
      ["tzinfo=" ++ (if o = 0 then "datetime.timezone.utc"
        else "datetime.timezone(" ++ displaySpan o ++ ")")]

def quotedDate (d : Date) : List String := [toString d.year, toString d.month, toString d.day]

def quotedAddress (a : Address) : String :=
  (match a.version with
    | .four => "IPv4Address("
    | .six => "IPv6Address(") ++ Text.quoted a.display ++ ")"

def quotedOption : Option String → String
  | none => "None"
  | some s => Text.quoted s

def quotedFileName : Option String → String
  | none => "None"
  | some s => Text.quotedOctets (Text.encodeString s)

def quotedFile (f : StoredFile) : String :=
  "File(file_name=" ++ quotedFileName f.fileName ++ ", field_name=" ++
    quotedFileName (some f.fieldName) ++ ")"

def bracketed (parts : List String) : String := "[" ++ Text.commaSeparated parts ++ "]"
def braced (parts : List String) : String := "\x7b" ++ Text.commaSeparated parts ++ "\x7d"

def quotedTexts (table : List (Name × List String)) : String :=
  braced (table.map fun e =>
    Text.quoted e.1.text ++ ": " ++ bracketed (e.2.map Text.quoted))

def quotedErrorName (e : Option Path) : String := quotedOption (e.map Path.display)

mutual
def Value.quoted : Value → String
  | .none => "None"
  | .bool b => if b then "True" else "False"
  | .int i => toString i
  | .float d => d.display
  | .text s => Text.quoted s
  | .octets bs => Text.quotedOctets bs
  | .list vs => bracketed (quotedList vs)
  | .tuple vs => quotedTuple (quotedList vs)
  | .dict es => braced (quotedEntries es)
  | .record t fs => t.name ++ "(" ++ Text.commaSeparated (quotedSlots fs) ++ ")"
  | .choice t m v => "<" ++ t ++ "." ++ m ++ ": " ++ v.quoted ++ ">"
  | .address a => quotedAddress a
  | .date d => "datetime.date(" ++ Text.commaSeparated (quotedDate d) ++ ")"
  | .time t => "datetime.time(" ++ Text.commaSeparated (quotedTime t) ++ ")"
  | .dateTime t =>
    "datetime.datetime(" ++ Text.commaSeparated (quotedDate t.date ++ quotedTime t.time) ++ ")"
  | .file f => quotedFile f
  | .errors es => "Errors(" ++ bracketed (quotedErrors es) ++ ")"
  | .contextual v c => "Contextual(value=" ++ v.quoted ++ ", context=" ++ quotedContext c ++ ")"
  | .object fs => "namespace(" ++ Text.commaSeparated (quotedFields fs) ++ ")"

def quotedList : List Value → List String
  | [] => []
  | v :: vs => v.quoted :: quotedList vs

def quotedEntries : List (Value × Value) → List String
  | [] => []
  | (k, v) :: es => (k.quoted ++ ": " ++ v.quoted) :: quotedEntries es

def quotedFields : List (String × Value) → List String
  | [] => []
  | (n, v) :: fs => (n ++ "=" ++ v.quoted) :: quotedFields fs

def quotedSlots : List (String × Slot Value) → List String
  | [] => []
  | (_, .unset) :: fs => quotedSlots fs
  | (n, .own v) :: fs => (n ++ "=" ++ v.quoted) :: quotedSlots fs
  | (n, .shared v) :: fs => (n ++ "=" ++ v.quoted) :: quotedSlots fs

def quotedBound : Option Value → String
  | none => "None"
  | some v => v.quoted

def quotedKind : Kind Value → String
  | .invalidLength a b => "InvalidLength(" ++ quotedBound a ++ ", " ++ quotedBound b ++ ")"
  | .outOfRange a b => "OutOfRange(" ++ quotedBound a ++ ", " ++ quotedBound b ++ ")"
  | .invalidChoice cs => "InvalidChoice(" ++ quotedTuple (cs.map Text.quoted) ++ ")"
  | .validation m => "Validation(" ++ Text.quoted m ++ ")"
  | .duplicate => "Duplicate()"
  | .missing => "Missing()"
  | .unexpected => "Unexpected()"
  | .unknown => "Unknown()"
  | .custom c => "Custom(" ++ c.quoted ++ ")"
  | .unreadable r c => r.label ++ "(" ++ c.quoted ++ ")"

def quotedError : Error Value → String
  | ⟨k, e, n, v⟩ =>
    "Error(name=" ++ quotedErrorName n ++ ", value=" ++ quotedOption v ++ ", kind=" ++
      quotedKind k ++ ", entity=" ++ e.quoted ++ ")"

def quotedErrors : List (Error Value) → List String
  | [] => []
  | e :: es => quotedError e :: quotedErrors es

def quotedErrorTable : List (Path × List (Error Value)) → List String
  | [] => []
  | (_, es) :: t => quotedErrors es ++ quotedErrorTable t

def quotedContext : Context Value → String
  | ⟨errors, values, _, formErrors, status⟩ =>
    "Context(values=" ++ quotedTexts values ++ ", errors=" ++
      bracketed (quotedErrorTable errors ++ quotedErrors formErrors) ++ ", status=" ++
      status.quoted ++ ")"
end

namespace Value

def plain : Value → String
  | .text s => s
  | .choice t m _ => t ++ "." ++ m
  | .address a => a.display
  | .date d => d.toIso
  | .time t => t.toIso
  | .dateTime t => t.date.toIso ++ " " ++ t.time.toIso
  | v => v.quoted

def isOne : Value → Bool
  | .int 1 => true
  | .bool true => true
  | .float d => d.rank?.any fun r => Rank.compare r (.ofInt 1) == .eq
  | _ => false

end Value

namespace Kind

def message : Kind Value → String
  | .invalidLength none none => "unexpected or incomplete"
  | .invalidLength none (some b) => "length cannot exceed " ++ b.plain
  | .invalidLength (some a) none =>
    if a.isOne then "value cannot be empty" else "length must be at least " ++ a.plain
  | .invalidLength (some a) (some b) =>
    "length must be between " ++ a.plain ++ " and " ++ b.plain
  | .invalidChoice [] => "invalid choice"
  | .invalidChoice [c] => "expected " ++ c
  | .invalidChoice cs =>
    "expected one of " ++ Text.commaSeparated (cs.map fun c => "`" ++ c ++ "`")
  | .outOfRange none none => "out of range"
  | .outOfRange none (some b) => "value cannot exceed " ++ b.plain
  | .outOfRange (some a) none => "value must be at least " ++ a.plain
  | .outOfRange (some a) (some b) => "value must be between " ++ a.plain ++ " and " ++ b.plain
  | .validation m => m
  | .duplicate => "duplicate"
  | .missing => "missing"
  | .unexpected => "unexpected"
  | .unknown => "unknown internal error"
  | .custom c => c.message
  | .unreadable r c => r.message ++ ": " ++ c.message

end Kind

def Errors.message (es : FormErrors) : String :=
  "\n".intercalate (s!"{es.length} errors:" :: es.map fun e => e.kind.message)

end WebForm
