import Waterfall.Scale

set_option autoImplicit false

namespace Waterfall

variable {α : Type} [Scalar α]

structure ZoomLimits (α : Type) where
  min : α
  max : α
  step : α

structure Zoom (α : Type) where
  k : α
  x : α

namespace Zoom

def identity : Zoom α := ⟨1, 0⟩

def isIdentity (z : Zoom α) : Bool :=
  Scalar.abs (z.k - 1) < Scalar.epsilon && Scalar.abs z.x < Scalar.epsilon

def invert (z : Zoom α) (position : α) : α :=
  (position - z.x) / z.k

def rescale (z : Zoom α) (base : Scale α) : Scale α where
  domain := (base.invert (z.invert base.range.1), base.invert (z.invert base.range.2))
  range := base.range

def constrain (z : Zoom α) (range : α × α) : Zoom α :=
  let low := range.2 * (1 - z.k)
  let high := range.1 * (1 - z.k)
  ⟨z.k, Scalar.clamp z.x (Scalar.min low high) (Scalar.max high low)⟩

def zoomAt (z : Zoom α) (anchor factor : α) (limits : ZoomLimits α) (range : α × α) : Zoom α :=
  let k := Scalar.clamp (z.k * factor) limits.min limits.max
  constrain ⟨k, anchor - (anchor - z.x) * (k / z.k)⟩ range

def pan (z : Zoom α) (dx : α) (range : α × α) : Zoom α :=
  constrain ⟨z.k, z.x + dx⟩ range

end Zoom

end Waterfall
