import Mathlib.Data.List.Basic
import Mathlib.Tactic.Tauto
import Waterfall.Proofs.Numerals
import Waterfall.Proofs.Xml
import Waterfall.Svg

set_option autoImplicit false

namespace Waterfall

open Xml (isPlain isChar Sound SoundAll SoundTag Allowed AllowedAll)

theorem isPlain_of_isDigit {c : Char} (h : c.isDigit) : isPlain c :=
  Xml.isPlain_of_isNameChar (by simp [Xml.isNameChar, h])

theorem isPlain_floatText (x : Float) : ∀ c ∈ (floatText x).toList, isPlain c := by
  have common : Decimal.Common (fun c => isPlain c = true) :=
    ⟨fun _ => isPlain_of_isDigit, by decide, by decide⟩
  unfold floatText
  cases Binary.ofFloat x with
  | nan => exact forall_of_all (by decide)
  | infinite negative =>
    cases negative
    · exact forall_of_all (by decide)
    · exact forall_of_all (by decide)
  | finite negative m q =>
    exact common.finite Decimal.Style.plain (forall_of_all (by decide)) (.inl fun _ => rfl) _ negative m q

theorem isPlain_color (color : Color) : ∀ c ∈ (toString color).toList, isPlain c := by
  have digit (n : Nat) : isPlain (Color.hexDigit n) := by
    have each : ∀ d < 16, isPlain (Color.hexDigit d) := by decide
    have small : Color.hexDigit n = Color.hexDigit (n % 16) := by simp [Color.hexDigit]
    rw [small]
    exact each _ (Nat.mod_lt _ (by decide))
  change ∀ c ∈ (String.ofList _).toList, isPlain c
  rw [String.toList_ofList]
  simp [Color.channelText, digit, show isPlain '#' by decide]

theorem soundTag {name : String} {attributes : List (String × String)} (keys : List String)
    (same : attributes.map Prod.fst = keys)
    (proper : Xml.isName name ∧ (∀ key ∈ keys, Xml.isName key) ∧ keys.Nodup)
    (values : ∀ value ∈ attributes.map Prod.snd, ∀ c ∈ value.toList, isPlain c) :
    SoundTag name attributes where
  name := proper.1
  keys _ member := proper.2.1 _ (same ▸ List.mem_map_of_mem member)
  distinct := same ▸ proper.2.2
  values _ member := values _ (List.mem_map_of_mem member)

-- Values that are the same in every drawing.
theorem forall_values {values : List String} (h : values.all fun value => value.toList.all isPlain) :
    ∀ value ∈ values, ∀ c ∈ value.toList, isPlain c :=
  fun value member => forall_of_all (List.all_eq_true.1 h value member)

namespace Svg

theorem isPlain_font : ∀ value ∈ font.map Prod.snd, ∀ c ∈ value.toList, isPlain c :=
  forall_values (by decide)

theorem sound_ofShape (shape : Shape Float) : Sound (ofShape shape) := by
  cases shape with
  | rect x y width height fill =>
    refine soundTag ["x", "y", "width", "height", "rx", "fill"] rfl (by decide) ?_
    simp only [List.map_cons, List.map_nil, List.forall_mem_cons]
    exact ⟨isPlain_floatText x, isPlain_floatText y, isPlain_floatText width, isPlain_floatText height,
      forall_of_all (by decide), isPlain_color fill, List.forall_mem_nil _⟩
  | line x1 y1 x2 y2 color =>
    refine soundTag ["x1", "y1", "x2", "y2", "stroke", "stroke-width"] rfl (by decide) ?_
    simp only [List.map_cons, List.map_nil, List.forall_mem_cons]
    exact ⟨isPlain_floatText x1, isPlain_floatText y1, isPlain_floatText x2, isPlain_floatText y2,
      isPlain_color color, forall_of_all (by decide), List.forall_mem_nil _⟩
  | text x y text color anchor bold =>
    have anchored : ∀ c ∈ (Anchor.name anchor).toList, isPlain c := by
      cases anchor <;> exact forall_of_all (by decide)
    refine ⟨?_, trivial, trivial⟩
    cases bold
    · refine soundTag ["x", "y", "font-family", "font-size", "fill", "text-anchor", "dominant-baseline"]
        rfl (by decide) ?_
      simp only [List.map_append, List.forall_mem_append, List.map_cons, List.map_nil,
        List.forall_mem_cons]
      exact ⟨⟨⟨⟨isPlain_floatText x, isPlain_floatText y, List.forall_mem_nil _⟩, isPlain_font⟩,
        forall_values (by decide)⟩, isPlain_color color, anchored, forall_of_all (by decide),
        List.forall_mem_nil _⟩
    · refine soundTag
        ["x", "y", "font-family", "font-size", "font-weight", "fill", "text-anchor", "dominant-baseline"]
        rfl (by decide) ?_
      simp only [List.map_append, List.forall_mem_append, List.map_cons, List.map_nil,
        List.forall_mem_cons]
      exact ⟨⟨⟨⟨isPlain_floatText x, isPlain_floatText y, List.forall_mem_nil _⟩, isPlain_font⟩,
        forall_values (by decide)⟩, isPlain_color color, anchored, forall_of_all (by decide),
        List.forall_mem_nil _⟩
  | dot cx cy r color =>
    refine soundTag ["cx", "cy", "r", "fill"] rfl (by decide) ?_
    simp only [List.map_cons, List.map_nil, List.forall_mem_cons]
    exact ⟨isPlain_floatText cx, isPlain_floatText cy, isPlain_floatText r, isPlain_color color,
      List.forall_mem_nil _⟩

theorem soundAll_shapes (shapes : List (Shape Float)) : SoundAll (shapes.map ofShape) := by
  induction shapes with
  | nil => trivial
  | cons shape rest ih => exact ⟨sound_ofShape shape, ih⟩

theorem sound_group {name : String} (plain : ∀ c ∈ name.toList, isPlain c)
    (shapes : List (Shape Float)) : Sound (group name shapes) :=
  ⟨soundTag ["class"] rfl (by decide) (by simpa using plain), soundAll_shapes shapes⟩

theorem sound_background (s : Scene Float) : Sound (background s) := by
  refine soundTag ["x", "y", "width", "height", "fill"] rfl (by decide) ?_
  simp only [List.map_cons, List.map_nil, List.forall_mem_cons]
  exact ⟨forall_of_all (by decide), forall_of_all (by decide), isPlain_floatText _,
    isPlain_floatText _, isPlain_color _, List.forall_mem_nil _⟩

theorem sound_placeholder (s : Scene Float) (message : String) : Sound (placeholder s message) := by
  refine ⟨soundTag ["x", "y", "font-family", "font-size", "fill", "text-anchor", "dominant-baseline"]
    rfl (by decide) ?_, trivial, trivial⟩
  simp only [List.map_append, List.forall_mem_append, List.map_cons, List.map_nil,
    List.forall_mem_cons]
  exact ⟨⟨⟨isPlain_floatText _, isPlain_floatText _, List.forall_mem_nil _⟩, isPlain_font⟩,
    isPlain_color _, forall_of_all (by decide), forall_of_all (by decide), List.forall_mem_nil _⟩

theorem sound_clip (s : Scene Float) : Sound (clip s) := by
  refine ⟨soundTag [] rfl (by decide) (List.forall_mem_nil _),
    ⟨soundTag ["id"] rfl (by decide) (forall_values (by decide)), ?_, trivial⟩, trivial⟩
  refine soundTag ["x", "y", "width", "height"] rfl (by decide) ?_
  simp only [List.map_cons, List.map_nil, List.forall_mem_cons]
  exact ⟨forall_of_all (by decide), isPlain_floatText _, isPlain_floatText _, isPlain_floatText _,
    List.forall_mem_nil _⟩

theorem sound_rows (s : Scene Float) : Sound (rows s) := by
  have moved : ∀ c ∈ ("translate(0," ++ floatText (-s.scrollTop) ++ ")").toList, isPlain c :=
    forall_append.2 ⟨forall_append.2 ⟨forall_of_all (by decide), isPlain_floatText _⟩,
      forall_of_all (by decide)⟩
  exact ⟨soundTag ["class", "clip-path"] rfl (by decide) (forall_values (by decide)),
    ⟨soundTag ["transform"] rfl (by decide) (by simpa using moved), soundAll_shapes s.rows⟩, trivial⟩

theorem soundAll_content (s : Scene Float) : SoundAll (content s) := by
  unfold content
  split
  next message _ => exact ⟨sound_background s, sound_placeholder s message, trivial⟩
  next =>
    exact ⟨sound_background s, sound_clip s, sound_group (forall_of_all (by decide)) s.grid, sound_rows s,
      sound_group (forall_of_all (by decide)) s.header, trivial⟩

theorem sound_document (s : Scene Float) : Sound (document s) := by
  have box : ∀ c ∈ ("0 0 " ++ floatText s.viewport.width ++ " " ++
      floatText s.viewport.height).toList, isPlain c :=
    forall_append.2 ⟨forall_append.2 ⟨forall_append.2 ⟨forall_of_all (by decide), isPlain_floatText _⟩,
      forall_of_all (by decide)⟩, isPlain_floatText _⟩
  refine ⟨soundTag ["xmlns", "width", "height", "viewBox"] rfl (by decide) ?_, soundAll_content s⟩
  simp only [List.map_cons, List.map_nil, List.forall_mem_cons]
  exact ⟨forall_of_all (by decide), isPlain_floatText _, isPlain_floatText _, box, List.forall_mem_nil _⟩

end Svg

def Shape.text? {α : Type} : Shape α → Option String
  | .text _ _ words _ _ _ => some words
  | _ => none

def Scene.texts {α : Type} (s : Scene α) : List String :=
  match s.placeholder with
  | some message => [message]
  | none => (s.grid ++ s.rows ++ s.header).filterMap Shape.text?

namespace Svg

theorem textsAll_shapes (shapes : List (Shape Float)) :
    Xml.textsAll (shapes.map ofShape) = shapes.filterMap Shape.text? := by
  induction shapes with
  | nil => rfl
  | cons shape rest ih =>
    rw [List.map_cons, Xml.textsAll, ih]
    cases shape <;> simp [List.filterMap_cons, ofShape, Xml.texts, Xml.data, Shape.text?]

theorem texts_document (s : Scene Float) : Xml.textsAll (content s) = s.texts := by
  unfold content Scene.texts
  cases s.placeholder with
  | some message => simp [Xml.textsAll, Xml.texts, Xml.data, background, placeholder]
  | none => simp [Xml.textsAll, Xml.texts, background, clip, group, rows, textsAll_shapes]

theorem allowedAll_shapes (shapes : List (Shape Float)) :
    AllowedAll (shapes.map ofShape) ↔ ∀ text ∈ shapes.filterMap Shape.text?, ∀ c ∈ text.toList, isChar c := by
  induction shapes with
  | nil => simp [AllowedAll]
  | cons shape rest ih =>
    rw [List.map_cons, AllowedAll, ih]
    cases shape <;> simp [ofShape, Allowed, AllowedAll, Shape.text?]

theorem allowedAll_content (s : Scene Float) :
    AllowedAll (content s) ↔ ∀ text ∈ s.texts, ∀ c ∈ text.toList, isChar c := by
  unfold content Scene.texts
  cases s.placeholder with
  | some message => simp [Allowed, AllowedAll, background, placeholder]
  | none =>
    simp only [Allowed, AllowedAll, background, clip, group, rows, allowedAll_shapes,
      List.filterMap_append, List.forall_mem_append]
    tauto

theorem read?_toSvg (s : Scene Float) : ∃ m, Xml.read? s.toSvg = some m ∧ Xml.texts m = s.texts := by
  refine ⟨_, Xml.read?_write (sound_document s), ?_⟩
  rw [Xml.texts, if_neg (by decide), Xml.textsAll_joinedAll, texts_document]
  rfl

theorem wellFormed_toSvg_iff (s : Scene Float) :
    Xml.WellFormed s.toSvg ↔ ∀ text ∈ s.texts, ∀ c ∈ text.toList, isChar c := by
  obtain ⟨m, read, -⟩ := read?_toSvg s
  rw [← allowedAll_content, Xml.WellFormed, read]
  exact (and_iff_right rfl).trans (Xml.forall_write _ (sound_document s))

end Svg

/-- Every scene is written as one element whose texts are those of the scene, and as a well-formed document exactly
if XML allows the characters of these texts. -/
theorem Scene.toSvg_document (s : Scene Float) :
    (∃ m, Xml.read? s.toSvg = some m ∧ Xml.texts m = s.texts) ∧
      (Xml.WellFormed s.toSvg ↔ ∀ text ∈ s.texts, ∀ c ∈ text.toList, isChar c) :=
  ⟨Svg.read?_toSvg s, Svg.wellFormed_toSvg_iff s⟩

-- Control characters are no markup, so they are written as they are.
theorem Scene.toSvg_control_character :
    ¬ Xml.WellFormed (Scene.message ⟨400.0, 200.0⟩ Theme.dark.palette "a\x01").toSvg := by
  rw [Svg.wellFormed_toSvg_iff]
  intro allowed
  exact absurd (allowed "a\x01" List.mem_cons_self '\x01' (by decide)) (by decide)

end Waterfall
