import Waterfall.Span.Basic
import Waterfall.Walk

set_option autoImplicit false

namespace Waterfall

structure Row where
  span : Span
  index : Nat
  depth : Nat
  deriving Inhabited

def Row.toJson (r : Row) : Json :=
  .object (r.span.fields ++ [("row", .int r.index), ("depth", .int r.depth)])

namespace Row

def position? (spans : List Span) (id : String) : Option (Fin spans.length) :=
  spans.findFinIdx? (·.id = id)

-- The position of the parent; a span is never its own parent.
def parentOf (spans : List Span) (i : Fin spans.length) : Option (Fin spans.length) :=
  ((spans.get i).parent.bind (position? spans)).filter (· ≠ i)

def parents (spans : List Span) : Vector (Option (Fin spans.length)) spans.length :=
  .ofFn (parentOf spans)

def children {n : Nat} (parents : Vector (Option (Fin n)) n) (position : Fin n) : List (Fin n) :=
  (List.finRange n).filter fun i => parents.get i = some position

def byStart (spans : List Span) (positions : List (Fin spans.length)) : List (Fin spans.length) :=
  positions.mergeSort fun i j => (spans.get i).start ≤ (spans.get j).start

-- What cannot be reached from a span without a parent is listed last.
def places (spans : List Span) : List (Place spans.length) :=
  let parents := parents spans
  let all := List.finRange spans.length
  let walk := Walk.visit (children parents)
  let roots := byStart spans (all.filter fun i => (parents.get i).isNone)
  let placed := roots.foldl walk []
  let stranded := byStart spans (all.filter fun i => !Walk.seen placed i)
  (stranded.foldl walk placed).reverse

def ofSpans (spans : List Span) : List Row :=
  (places spans).mapIdx fun index place => ⟨spans.get place.position, index, place.depth⟩

@[simp] theorem get_parents (spans : List Span) (i : Fin spans.length) :
    (parents spans).get i = parentOf spans i :=
  Vector.getElem_ofFn i.isLt

@[simp] theorem mem_children {n : Nat} {parents : Vector (Option (Fin n)) n} {position i : Fin n} :
    i ∈ children parents position ↔ parents.get i = some position := by
  simp [children]

end Row

end Waterfall
