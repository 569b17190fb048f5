import WebForm.Parser.Dict
import WebForm.Parser.Leaf
import WebForm.Parser.List
import WebForm.Parser.Pair
import WebForm.Parser.Record
import WebForm.Parser.Wrapped

/-!
# The parser of a form

The parser of a form is put together from those of its parts. Record types can refer to themselves,
so a parser follows them to a given depth. Each step to a part takes a key off the name of a field;
once there are none left, a record type that is met again would be met for ever, and so would one
whose absent member is a record of its own type. The depth of a schema is therefore the length of
the longest name and a few times the number of record types.
-/
namespace WebForm

def Form.parserWith (recordParser : RecordType → Parser) : Form → Parser
  | .leaf l => .leaf l.rules
  | .list item => .list (item.parserWith recordParser)
  | .dict key value => .dict (key.parserWith recordParser) (value.parserWith recordParser)
  | .pair left right => .pair (left.parserWith recordParser) (right.parserWith recordParser)
  | .record type => recordParser type
  | .optional item => .optional (item.parserWith recordParser)
  | .result item => .result (item.parserWith recordParser)
  | .forced mode item => .forced mode (item.parserWith recordParser)
  | .contextual item => .contextual (item.parserWith recordParser)
  | .unimplemented => .failing .unimplemented

namespace Schema

def parser (s : Schema) : Nat → Form → Parser
  | 0, form => form.parserWith fun _ => .failing .endless
  | depth + 1, form =>
    form.parserWith fun t => .record t (s.declaration t) (s.objections t) (s.parser depth)

/-- Deep enough for names of the given length. -/
def depth (s : Schema) (nameLength : Nat) : Nat := nameLength + 3 * (s.records.length + 1)

def longestName (fs : List Field) : Nat := fs.foldl (fun n f => max n f.name.source.length) 0

def parse (s : Schema) (form : Form) (mode : Mode) (fs : List Field) : Outcome Value :=
  (s.parser (s.depth (longestName fs)) form).run mode fs

def absent (s : Schema) (form : Form) (mode : Mode) : Except Fault (Option Value) :=
  (s.parser (s.depth 0) form).absent mode

end Schema

end WebForm
