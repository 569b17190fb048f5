import WebForm.Name.Path
import WebForm.Text.Quoted

/-!
# The text of names

How names, keys, views and paths are shown.
-/
namespace WebForm

def quotedKey (k : Key) : String := "Key(" ++ Text.quoted k ++ ")"
def Name.quoted (n : Name) : String := "Name(" ++ Text.quoted n.text ++ ")"
def View.quoted (v : View) : String := "NameView(" ++ Text.quoted v.asName.text ++ ")"
def Path.quoted (p : Path) : String := "NameBuf(" ++ Text.quoted p.display ++ ")"

end WebForm
