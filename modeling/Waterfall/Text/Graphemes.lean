import Waterfall.Text.Blank

set_option autoImplicit false

namespace Waterfall

def isControl (c : Char) : Bool :=
  c.toNat < 0x20 || (0x7f ≤ c.toNat && c.toNat ≤ 0x9f)

/-- The graphemes of a text, and how many columns of a terminal a text takes. -/
class Graphemes where
  split : String → List String
  columns : String → Nat

-- Every character is a grapheme of its own.
abbrev Graphemes.ofWidths (width : Char → Nat) : Graphemes where
  split s := s.toList.map String.singleton
  columns s := s.toList.foldl (fun n c => n + width c) 0

structure Cluster where
  text : String
  width : Nat

namespace Cluster

def ofText [Graphemes] (s : String) : List Cluster :=
  (Graphemes.split s).map fun g => ⟨g, Graphemes.columns g⟩

def isBlank (g : Cluster) : Bool :=
  g.text = "\u200b" || (g.text ≠ "\u00a0" && g.text.toList.all Waterfall.isBlank)

end Cluster

end Waterfall
