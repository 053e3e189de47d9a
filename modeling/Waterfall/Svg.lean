import Waterfall.Decimal.Text
import Waterfall.Scene
import Waterfall.Svg.Markup

set_option autoImplicit false

namespace Waterfall

namespace Svg

def font : List (String × String) :=
  [("font-family", "ui-monospace, monospace"), ("font-size", "11")]

def Anchor.name : Anchor → String
  | .start => "start"
  | .middle => "middle"
  | .finish => "end"

def ofShape : Shape Float → Markup
  | .rect x y width height fill =>
    .single "rect"
      [("x", floatText x), ("y", floatText y), ("width", floatText width),
        ("height", floatText height), ("rx", "2"), ("fill", toString fill)]
  | .line x1 y1 x2 y2 color =>
    .single "line"
      [("x1", floatText x1), ("y1", floatText y1), ("x2", floatText x2), ("y2", floatText y2),
        ("stroke", toString color), ("stroke-width", "1")]
  | .text x y text color anchor bold =>
    .element "text"
      ([("x", floatText x), ("y", floatText y)] ++ font
        ++ (if bold then [("font-weight", "bold")] else [])
        ++ [("fill", toString color), ("text-anchor", Anchor.name anchor),
          ("dominant-baseline", "middle")])
      [.text text]
  | .dot cx cy r color =>
    .single "circle"
      [("cx", floatText cx), ("cy", floatText cy), ("r", floatText r), ("fill", toString color)]

def group (name : String) (shapes : List (Shape Float)) : Markup :=
  .element "g" [("class", name)] (shapes.map ofShape)

def background (s : Scene Float) : Markup :=
  .single "rect"
    [("x", "0"), ("y", "0"), ("width", floatText s.viewport.width),
      ("height", floatText s.viewport.height), ("fill", toString s.background)]

def placeholder (s : Scene Float) (message : String) : Markup :=
  .element "text"
    ([("x", floatText (s.viewport.width / 2.0)), ("y", floatText (s.viewport.height / 2.0))] ++ font
      ++ [("fill", toString s.foreground), ("text-anchor", "middle"),
        ("dominant-baseline", "middle")])
    [.text message]

def clip (s : Scene Float) : Markup :=
  .element "defs" [] [.element "clipPath" [("id", "body")]
    [.single "rect"
      [("x", "0"), ("y", floatText s.bodyTop), ("width", floatText s.viewport.width),
        ("height", floatText (Scalar.positive (s.viewport.height - s.bodyTop)))]]]

def rows (s : Scene Float) : Markup :=
  .element "g" [("class", "rows"), ("clip-path", "url(#body)")]
    [.element "g" [("transform", "translate(0," ++ floatText (-s.scrollTop) ++ ")")]
      (s.rows.map ofShape)]

def content (s : Scene Float) : List Markup :=
  match s.placeholder with
  | some message => [background s, placeholder s message]
  | none => [background s, clip s, group "grid" s.grid, rows s, group "header" s.header]

def document (s : Scene Float) : Markup :=
  let width := floatText s.viewport.width
  let height := floatText s.viewport.height
  .element "svg"
    [("xmlns", "http://www.w3.org/2000/svg"), ("width", width), ("height", height),
      ("viewBox", "0 0 " ++ width ++ " " ++ height)]
    (content s)

end Svg

def Scene.toSvg (s : Scene Float) : String :=
  (Svg.document s).write

end Waterfall
