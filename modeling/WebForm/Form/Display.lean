import WebForm.Form.Schema

/-!
# The text of forms
-/
namespace WebForm

def quotedTruth (b : Bool) : String := if b then "True" else "False"

def quotedInt : Option Int → String
  | none => "None"
  | some i => toString i

def UploadRules.quoted (r : UploadRules) : String :=
  braced
    ["'UPLOAD_DIR': " ++ quotedFileName (r.storage.directory.map (·.path)),
      "'UPLOAD_KEEP_FILENAME': " ++ quotedTruth r.storage.keepFileName,
      "'UPLOAD_KEEP_EXTENSIONS': " ++ quotedTruth r.storage.keepExtensions,
      "'MAX_MEMORY_FILE_SIZE': " ++ quotedInt r.storage.memoryLimit,
      "'MAX_FILE_SIZE': " ++ quotedInt r.sizeLimit,
      "'CHUNK_SIZE': " ++ quotedInt r.chunkSize]

def AddressVersion.quoted : Option AddressVersion → String
  | none => "None"
  | some .four => "4"
  | some .six => "6"

def Leaf.label : Leaf → String
  | .text _ => "StrField"
  | .octets _ => "BytesField"
  | .integer _ _ => "IntField"
  | .float => "FloatField"
  | .boolean => "BoolField"
  | .address _ => "AddrField"
  | .date => "DateField"
  | .time => "TimeField"
  | .dateTime => "DateTimeField"
  | .choice _ => "ChoiceField"
  | .upload _ => "UploadField"
  | .nothing => "FromFormField"

def Form.label : Form → String
  | .leaf l => l.label
  | .list _ => "Vec"
  | .dict _ _ => "Map"
  | .pair _ _ => "Pair"
  | .record _ => "Struct"
  | .optional _ => "Optional"
  | .result _ => "Result"
  | .forced .strict _ => "Strict"
  | .forced .lenient _ => "Lenient"
  | .contextual _ => "ContextualForm"
  | .unimplemented => "FromForm"

def Leaf.settings : Leaf → List String
  | .text limit | .octets limit => ["limit=" ++ quotedInt limit]
  | .integer signed bits =>
    ["signed=" ++ quotedTruth signed, "bits=" ++ quotedInt (bits.map Int.ofNat)]
  | .address version => ["version=" ++ AddressVersion.quoted version]
  | .choice e => [e.name]
  | .upload rules => ["config=" ++ rules.quoted]
  | _ => []

def applied (label : String) (parts : List String) : String :=
  label ++ "(" ++ Text.commaSeparated parts ++ ")"

def Form.quoted (form : Form) : String :=
  applied form.label <|
    match form with
    | .leaf l => l.settings
    | .list item | .optional item | .result item | .forced _ item | .contextual item =>
      [item.quoted]
    | .dict first second | .pair first second => [first.quoted, second.quoted]
    | .record type => [type.name]
    | .unimplemented => []

def Member.quoted (m : Member) : String :=
  "StructField(" ++ Text.quoted m.attr ++ ", names=" ++ quotedTuple (m.names.map Text.quoted) ++
    ", form=" ++ m.form.quoted ++ ")"

def Mode.quoted : Mode → String
  | .lenient => "<Options.LENIENT: 0>"
  | .strict => "<Options.STRICT: 1>"

end WebForm
