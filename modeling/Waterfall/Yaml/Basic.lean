set_option autoImplicit false

namespace Waterfall

inductive Yaml where
  | scalar (text : String) (plain : Bool)
  | sequence (items : List Yaml)
  | mapping (entries : List (Yaml × Yaml))
  deriving Inhabited

namespace Yaml

-- Nothing stands where a value may stand.
def nothing : Yaml := .scalar "" true

def text? : Yaml → Option String
  | .scalar s _ => some s
  | _ => none

def plainText? : Yaml → Option String
  | .scalar s true => some s
  | _ => none

def isNull : Yaml → Bool
  | .scalar s true => s ∈ ["", "null", "Null", "NULL", "~"]
  | _ => false

def bool? (y : Yaml) : Option Bool :=
  match y.plainText? with
  | some "true" | some "True" | some "TRUE" => some true
  | some "false" | some "False" | some "FALSE" => some false
  | _ => none

end Yaml

end Waterfall
