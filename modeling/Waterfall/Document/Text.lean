import Waterfall.Error
import Waterfall.Json.Reader
import Waterfall.Document.Decode

set_option autoImplicit false

namespace Waterfall

def Document.ofJson (handle : String) (j : Json) : Except Error (Option Document) :=
  match j with
  | .null => .ok none
  | j =>
    match Document.ofJson? j with
    | some d => .ok (some d)
    | none => .error (.fetch handle (.notDocument (Document.Fault.ofJson j)))

def Document.ofText (handle text : String) : Except Error (Option Document) :=
  match Json.parse text with
  | .error fault => .error (.fetch handle (.invalidJson fault))
  | .ok j => Document.ofJson handle j

end Waterfall
