set_option autoImplicit false

namespace Waterfall

/-- An element without content is `single` when its tag closes itself. -/
inductive Markup where
  | single (name : String) (attributes : List (String × String))
  | element (name : String) (attributes : List (String × String)) (content : List Markup)
  | text (s : String)

namespace Markup

def entities : List (Char × String) :=
  [('&', "&amp;"), ('<', "&lt;"), ('>', "&gt;"), ('"', "&quot;"), ('\'', "&apos;")]

def replace (cs : List Char) (entity : Char × String) : List Char :=
  cs.flatMap fun c => if c = entity.1 then entity.2.toList else [c]

-- One replacement after the other; the ampersand comes first, since the others bring in new ones.
def escape (s : String) : String :=
  String.ofList (entities.foldl replace s.toList)

def attributeText (a : String × String) : String :=
  " " ++ a.1 ++ "=\"" ++ a.2 ++ "\""

def tagText (name : String) (attributes : List (String × String)) : String :=
  name ++ String.join (attributes.map attributeText)

mutual

def write : Markup → String
  | .single name attributes => "<" ++ tagText name attributes ++ "/>"
  | .element name attributes content =>
    "<" ++ tagText name attributes ++ ">" ++ writeAll content ++ "</" ++ name ++ ">"
  | .text s => escape s

def writeAll : List Markup → String
  | [] => ""
  | m :: rest => write m ++ writeAll rest

end

end Markup

end Waterfall
