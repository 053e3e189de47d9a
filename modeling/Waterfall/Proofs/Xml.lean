import Mathlib.Data.List.Basic
import Waterfall.Proofs.Numerals
import Waterfall.Svg.Markup

set_option autoImplicit false

namespace Waterfall

namespace Xml

def isNameStart (c : Char) : Bool :=
  c.isAlpha || c = '_' || c = ':'

def isNameChar (c : Char) : Bool :=
  isNameStart c || c.isDigit || c = '-' || c = '.'

-- Most control characters are left out, and so are two code points that are no characters.
def isChar (c : Char) : Bool :=
  c = '\t' || c = '\n' || c = '\r' || (0x20 ≤ c.toNat && c.toNat ≤ 0xfffd) || 0x10000 ≤ c.toNat

def entity? (name : List Char) : Option Char :=
  if name = "amp".toList then some '&'
  else if name = "lt".toList then some '<'
  else if name = "gt".toList then some '>'
  else if name = "quot".toList then some '"'
  else if name = "apos".toList then some '\''
  else none

structure Tag where
  name : String
  attributes : List (String × String) := []

inductive Mode where
  | content
  | reference (done : List Char)
  | tag
  | name (done : List Char)
  | key (tag : Tag) (done : List Char)
  | equals (tag : Tag) (key : String)
  | value (tag : Tag) (key : String) (done : List Char)
  | behindValue (tag : Tag)
  | slash (tag : Tag)
  | close (done : List Char)

structure Reading where
  frames : List (Tag × List Markup) := []
  content : List Markup := []
  mode : Mode := .content

def addChar (c : Char) : List Markup → List Markup
  | .text s :: before => .text (s ++ String.singleton c) :: before
  | before => .text (String.singleton c) :: before

def Reading.data (r : Reading) (c : Char) : Reading :=
  { r with content := addChar c r.content, mode := .content }

def nameText (done : List Char) : String :=
  String.ofList done.reverse

def named (done : List Char) (c : Char) : Bool :=
  if done = [] then isNameStart c else isNameChar c

-- Behind the name of a tag or the value of an attribute.
def goOn (r : Reading) (tag : Tag) (c : Char) : Option Reading :=
  if c = ' ' then some { r with mode := .key tag [] }
  else if c = '/' then some { r with mode := .slash tag }
  else if c = '>' then some { frames := (tag, r.content) :: r.frames }
  else none

-- An end tag closes the tag that was opened last.
def endTag (r : Reading) (name : String) : Option Reading :=
  match r.frames with
  | (tag, before) :: frames =>
    if tag.name = name then
      some ⟨frames, .element tag.name tag.attributes r.content.reverse :: before, .content⟩
    else none
  | [] => none

def step (r : Reading) (c : Char) : Option Reading :=
  let within (mode : Mode) : Option Reading := some { r with mode := mode }
  match r.mode with
  | .content =>
    if c = '<' then within .tag
    else if c = '&' then within (.reference [])
    else if c = '>' then none
    else some (r.data c)
  | .reference done =>
    if c = ';' then (entity? done.reverse).map r.data else within (.reference (c :: done))
  | .tag =>
    if c = '/' then within (.close [])
    else if isNameStart c then within (.name [c]) else none
  | .name done =>
    if isNameChar c then within (.name (c :: done)) else goOn r ⟨nameText done, []⟩ c
  | .key tag done =>
    if named done c then within (.key tag (c :: done))
    else if c = '=' ∧ done ≠ [] ∧ nameText done ∉ tag.attributes.map Prod.fst then
      within (.equals tag (nameText done))
    else none
  | .equals tag key => if c = '"' then within (.value tag key []) else none
  | .value tag key done =>
    if c = '"' then
      within (.behindValue { tag with attributes := tag.attributes ++ [(key, nameText done)] })
    else if c = '<' ∨ c = '>' ∨ c = '&' then none
    else within (.value tag key (c :: done))
  | .behindValue tag => goOn r tag c
  | .slash tag =>
    if c = '>' then some ⟨r.frames, .single tag.name tag.attributes :: r.content, .content⟩ else none
  | .close done =>
    if named done c then within (.close (c :: done))
    else if c = '>' then endTag r (nameText done) else none

def run (r : Reading) (cs : List Char) : Option Reading :=
  cs.foldlM step r

/-- The element that a text consists of, whatever the characters of its character data. -/
def read? (s : String) : Option Markup :=
  match run {} s.toList with
  | some ⟨[], [m], .content⟩ => match m with
    | .text _ => none
    | m => some m
  | _ => none

/-- A document of one element, in characters that XML allows. -/
def WellFormed (s : String) : Prop :=
  (read? s).isSome ∧ ∀ c ∈ s.toList, isChar c

def isName (s : String) : Bool :=
  match s.toList with
  | [] => false
  | c :: rest => isNameStart c && rest.all isNameChar

/-- Visible ASCII, spaces and what else may stand in a value as it is. -/
def isPlain (c : Char) : Bool :=
  0x20 ≤ c.toNat && c.toNat ≤ 0x7e && c ≠ '<' && c ≠ '>' && c ≠ '&' && c ≠ '"'

structure SoundTag (name : String) (attributes : List (String × String)) : Prop where
  name : isName name
  keys : ∀ a ∈ attributes, isName a.1
  distinct : (attributes.map Prod.fst).Nodup
  values : ∀ a ∈ attributes, ∀ c ∈ a.2.toList, isPlain c

mutual

def Sound : Markup → Prop
  | .single name attributes => SoundTag name attributes
  | .element name attributes content => SoundTag name attributes ∧ SoundAll content
  | .text _ => True

def SoundAll : List Markup → Prop
  | [] => True
  | m :: rest => Sound m ∧ SoundAll rest

end

theorem run_append (r : Reading) (a b : List Char) : run r (a ++ b) = (run r a).bind (run · b) :=
  List.foldlM_append

theorem run_cons (r : Reading) (c : Char) (cs : List Char) :
    run r (c :: cs) = (step r c).bind (run · cs) :=
  List.foldlM_cons

-- Characters that are only collected.
theorem run_collect {frames : List (Tag × List Markup)} {content : List Markup}
    (mode : List Char → Mode) {cs : List Char} (one : ∀ done, ∀ c ∈ cs,
      step ⟨frames, content, mode done⟩ c = some ⟨frames, content, mode (c :: done)⟩)
    (done : List Char) :
    run ⟨frames, content, mode done⟩ cs = some ⟨frames, content, mode (cs.reverse ++ done)⟩ := by
  induction cs generalizing done with
  | nil => rfl
  | cons c cs ih =>
    rw [run_cons, one done c List.mem_cons_self, Option.bind_some,
      ih fun done d member => one done d (List.mem_cons_of_mem c member), List.reverse_cons,
      List.append_assoc]
    rfl

theorem nameText_reverse (s : String) : nameText s.toList.reverse = s := by
  rw [nameText, List.reverse_reverse, String.ofList_toList]

theorem exists_of_isName {s : String} (h : isName s) :
    ∃ c rest, s.toList = c :: rest ∧ isNameStart c ∧ ∀ d ∈ rest, isNameChar d := by
  unfold isName at h
  split at h
  next => cases h
  next c rest found =>
    rw [Bool.and_eq_true, List.all_eq_true] at h
    exact ⟨c, rest, found, h⟩

variable {frames : List (Tag × List Markup)} {content : List Markup} {s : String}

-- The same reading for the names of start tags, attributes and end tags, by how each begins and goes on.
theorem run_name {start : Mode} (mode : List Char → Mode) (h : isName s)
    (first : ∀ c, isNameStart c →
      step ⟨frames, content, start⟩ c = some ⟨frames, content, mode [c]⟩)
    (more : ∀ done c, done ≠ [] → isNameChar c →
      step ⟨frames, content, mode done⟩ c = some ⟨frames, content, mode (c :: done)⟩) :
    run ⟨frames, content, start⟩ s.toList = some ⟨frames, content, mode s.toList.reverse⟩ := by
  obtain ⟨c, rest, found, begins, goes⟩ := exists_of_isName h
  have collected := run_collect (fun done => mode (done ++ [c]))
    (fun done d member => more (done ++ [c]) d (by simp) (goes d member)) []
  rw [found, run_cons, first c begins, Option.bind_some, List.reverse_cons]
  simpa using collected

theorem slash_not_nameStart {c : Char} (h : isNameStart c) : c ≠ '/' := by
  rintro rfl
  exact absurd h (by decide)

theorem run_tag_name (h : isName s) :
    run ⟨frames, content, .tag⟩ s.toList = some ⟨frames, content, .name s.toList.reverse⟩ :=
  run_name .name h
    (fun c begins => by simp [step, slash_not_nameStart begins, begins])
    (fun done c _ goes => by simp [step, goes])

theorem run_key (tag : Tag) (h : isName s) :
    run ⟨frames, content, .key tag []⟩ s.toList = some ⟨frames, content, .key tag s.toList.reverse⟩ :=
  run_name (.key tag) h (fun c begins => by simp [step, named, begins])
    (fun done c some_done goes => by simp [step, named, some_done, goes])

theorem run_close_name (h : isName s) :
    run ⟨frames, content, .close []⟩ s.toList = some ⟨frames, content, .close s.toList.reverse⟩ :=
  run_name .close h (fun c begins => by simp [step, named, begins])
    (fun done c some_done goes => by simp [step, named, some_done, goes])

theorem run_value (tag : Tag) (key : String) (h : ∀ c ∈ s.toList, isPlain c) :
    run ⟨frames, content, .value tag key []⟩ s.toList =
      some ⟨frames, content, .value tag key s.toList.reverse⟩ := by
  have one (done : List Char) (c : Char) (member : c ∈ s.toList) :
      step ⟨frames, content, .value tag key done⟩ c = some ⟨frames, content, .value tag key (c :: done)⟩ := by
    have plain := h c member
    simp [isPlain] at plain
    simp [step, plain]
  have collected := run_collect (.value tag key) one []
  rwa [List.append_nil] at collected

theorem run_attribute (tag : Tag) {key : String} {value : String} (name : isName key)
    (plain : ∀ c ∈ value.toList, isPlain c) (free : key ∉ tag.attributes.map Prod.fst) :
    run ⟨frames, content, .behindValue tag⟩ (Markup.attributeText (key, value)).toList =
      some ⟨frames, content,
        .behindValue { tag with attributes := tag.attributes ++ [(key, value)] }⟩ := by
  have some_name : key.toList.reverse ≠ [] := by
    obtain ⟨c, rest, found, -⟩ := exists_of_isName name
    simp [found]
  have blank : step ⟨frames, content, .behindValue tag⟩ ' ' = some ⟨frames, content, .key tag []⟩ := rfl
  have equals : step ⟨frames, content, .key tag key.toList.reverse⟩ '=' =
      some ⟨frames, content, .equals tag key⟩ := by
    have other : named key.toList.reverse '=' = false := by
      rw [named, if_neg some_name]
      rfl
    simp only [step, other, nameText_reverse, free]
    simpa using some_name
  have opened : step ⟨frames, content, .equals tag key⟩ '"' =
      some ⟨frames, content, .value tag key []⟩ := rfl
  have closed : step ⟨frames, content, .value tag key value.toList.reverse⟩ '"' =
      some ⟨frames, content,
        .behindValue { tag with attributes := tag.attributes ++ [(key, value)] }⟩ := by
    simp [step, nameText_reverse]
  have written : (Markup.attributeText (key, value)).toList =
      ' ' :: (key.toList ++ '=' :: '"' :: (value.toList ++ ['"'])) := by
    simp [Markup.attributeText]
  rw [written, run_cons, blank, Option.bind_some, run_append, run_key tag name, Option.bind_some,
    run_cons, equals, Option.bind_some, run_cons, opened, Option.bind_some, run_append,
    run_value tag key plain, Option.bind_some, run_cons, closed]
  rfl

theorem run_attributes (tag : Tag) {attributes : List (String × String)}
    (keys : ∀ a ∈ attributes, isName a.1) (values : ∀ a ∈ attributes, ∀ c ∈ a.2.toList, isPlain c)
    (distinct : ((tag.attributes ++ attributes).map Prod.fst).Nodup) :
    run ⟨frames, content, .behindValue tag⟩ (attributes.flatMap fun a => (Markup.attributeText a).toList) =
      some ⟨frames, content, .behindValue { tag with attributes := tag.attributes ++ attributes }⟩ := by
  induction attributes generalizing tag with
  | nil => simp [run]
  | cons a rest ih =>
    obtain ⟨keys_a, keys⟩ := List.forall_mem_cons.1 keys
    obtain ⟨values_a, values⟩ := List.forall_mem_cons.1 values
    have free : a.1 ∉ tag.attributes.map Prod.fst := by
      rw [List.map_append, List.nodup_append] at distinct
      exact fun held => distinct.2.2 _ held _ List.mem_cons_self rfl
    rw [List.flatMap_cons, run_append, run_attribute tag keys_a values_a free, Option.bind_some,
      ih _ keys values (by simpa using distinct)]
    simp

theorem run_tag {name : String} {attributes : List (String × String)}
    (sound : SoundTag name attributes) {c : Char} (ends : c = '>' ∨ c = '/') (cs : List Char) :
    run ⟨frames, content, .content⟩ ('<' :: ((Markup.tagText name attributes).toList ++ c :: cs)) =
      run ⟨frames, content, .behindValue ⟨name, attributes⟩⟩ (c :: cs) := by
  -- Behind its name the tag goes on as behind an attribute.
  have behind (d : Char) (ds : List Char) (other : isNameChar d = false) :
      run ⟨frames, content, .name name.toList.reverse⟩ (d :: ds) =
        run ⟨frames, content, .behindValue ⟨name, []⟩⟩ (d :: ds) := by
    simp [run_cons, step, other, nameText_reverse, goOn]
  have opened : step ⟨frames, content, .content⟩ '<' = some ⟨frames, content, .tag⟩ := rfl
  have read : run ⟨frames, content, .behindValue ⟨name, []⟩⟩
      (attributes.flatMap fun a => (Markup.attributeText a).toList) =
        some ⟨frames, content, .behindValue ⟨name, attributes⟩⟩ :=
    run_attributes ⟨name, []⟩ sound.keys sound.values sound.distinct
  rw [Markup.tagText, String.toList_append, String.toList_join, List.flatMap_map, List.append_assoc,
    run_cons, opened, Option.bind_some, run_append, run_tag_name sound.name, Option.bind_some]
  have gone : run ⟨frames, content, .behindValue ⟨name, []⟩⟩
      ((attributes.flatMap fun a => (Markup.attributeText a).toList) ++ c :: cs) =
        run ⟨frames, content, .behindValue ⟨name, attributes⟩⟩ (c :: cs) := by
    rw [run_append, read]
    rfl
  rw [← gone]
  cases attributes with
  | nil => rcases ends with rfl | rfl <;> exact behind _ _ (by decide)
  | cons a rest =>
    simp only [List.flatMap_cons, Markup.attributeText, String.toList_append, List.append_assoc]
    exact behind ' ' _ (by decide)

mutual

def joined (before : List Markup) : Markup → List Markup
  | .single name attributes => .single name attributes :: before
  | .element name attributes content => .element name attributes (joinedAll [] content).reverse :: before
  | .text s => s.toList.foldl (fun before c => addChar c before) before

def joinedAll (before : List Markup) : List Markup → List Markup
  | [] => before
  | m :: rest => joinedAll (joined before m) rest

end

def escapeChar (c : Char) : List Char :=
  match c with
  | '&' => "&amp;".toList
  | '<' => "&lt;".toList
  | '>' => "&gt;".toList
  | '"' => "&quot;".toList
  | '\'' => "&apos;".toList
  | c => [c]

-- No replacement finds anything in what an earlier one has put in.
theorem toList_escape (s : String) : (Markup.escape s).toList = s.toList.flatMap escapeChar := by
  have each : ∀ c, Markup.entities.foldl Markup.replace [c] = escapeChar c := by
    intro c
    unfold escapeChar
    split
    case h_6 amp lt gt quot apos =>
      simp only [Markup.entities, Markup.replace, List.foldl, List.flatMap_singleton, if_neg amp,
        if_neg lt, if_neg gt, if_neg quot, if_neg apos]
    all_goals rfl
  rw [Markup.escape, String.toList_ofList, ← funext each]
  simp only [Markup.entities, List.foldl, Markup.replace, List.flatMap_assoc, List.flatMap_singleton]

theorem run_escapeChar (c : Char) :
    run ⟨frames, content, .content⟩ (escapeChar c) = some ⟨frames, addChar c content, .content⟩ := by
  unfold escapeChar
  split
  case h_6 amp lt gt _ _ =>
    have plain : step ⟨frames, content, .content⟩ c = some ⟨frames, addChar c content, .content⟩ := by
      rw [step, if_neg lt, if_neg amp, if_neg gt]
      rfl
    rw [run_cons, plain]
    rfl
  all_goals rfl

theorem run_escape (s : String) :
    run ⟨frames, content, .content⟩ (Markup.escape s).toList =
      some ⟨frames, joined content (.text s), .content⟩ := by
  rw [toList_escape, joined]
  induction s.toList generalizing content with
  | nil => rfl
  | cons c cs ih => rw [List.flatMap_cons, run_append, run_escapeChar, Option.bind_some, ih]; rfl

mutual

theorem run_write (m : Markup) (sound : Sound m) (frames : List (Tag × List Markup))
    (content : List Markup) :
    run ⟨frames, content, .content⟩ m.write.toList = some ⟨frames, joined content m, .content⟩ :=
  match m with
  | .text s => run_escape s
  | .single name attributes => by
    have written : (Markup.single name attributes).write.toList =
        '<' :: ((Markup.tagText name attributes).toList ++ ['/', '>']) := by
      simp [Markup.write]
    rw [written, run_tag sound (.inr rfl)]
    rfl
  | .element name attributes inner => by
    have written : (Markup.element name attributes inner).write.toList =
        '<' :: ((Markup.tagText name attributes).toList ++ '>' ::
          ((Markup.writeAll inner).toList ++ '<' :: '/' :: (name.toList ++ ['>']))) := by
      simp [Markup.write]
    have opened : step ⟨frames, content, .behindValue ⟨name, attributes⟩⟩ '>' =
        some ⟨(⟨name, attributes⟩, content) :: frames, [], .content⟩ := rfl
    have last : named name.toList.reverse '>' = false := by
      unfold named
      split <;> rfl
    rw [written, run_tag sound.1 (.inl rfl), run_cons, opened, Option.bind_some, run_append,
      run_writeAll inner sound.2, Option.bind_some, run_cons]
    change run ⟨_, _, .close []⟩ _ = _
    rw [run_append, run_close_name sound.1.name, Option.bind_some, run_cons]
    simp [step, last, nameText_reverse, endTag, run, joined]

theorem run_writeAll (ms : List Markup) (sound : SoundAll ms) (frames : List (Tag × List Markup))
    (content : List Markup) :
    run ⟨frames, content, .content⟩ (Markup.writeAll ms).toList =
      some ⟨frames, joinedAll content ms, .content⟩ :=
  match ms with
  | [] => rfl
  | m :: rest => by
    rw [Markup.writeAll, String.toList_append, run_append, run_write m sound.1, Option.bind_some,
      run_writeAll rest sound.2]
    rfl

end

theorem read?_write {name : String} {attributes : List (String × String)} {inner : List Markup}
    (sound : Sound (.element name attributes inner)) :
    read? (Markup.element name attributes inner).write =
      some (.element name attributes (joinedAll [] inner).reverse) := by
  rw [read?, run_write _ sound]
  rfl

def data : List Markup → String
  | [] => ""
  | .text s :: rest => s ++ data rest
  | _ :: rest => data rest

mutual

/-- The character data of the `text` elements, in the order of the document. -/
def texts : Markup → List String
  | .single _ _ => []
  | .element name _ content => if name = "text" then [data content] else textsAll content
  | .text _ => []

def textsAll : List Markup → List String
  | [] => []
  | m :: rest => texts m ++ textsAll rest

end

theorem data_append (ms ns : List Markup) : data (ms ++ ns) = data ms ++ data ns := by
  induction ms with
  | nil => simp [data]
  | cons m ms ih => cases m <;> simp [data, ih, String.append_assoc]

theorem textsAll_append (ms ns : List Markup) : textsAll (ms ++ ns) = textsAll ms ++ textsAll ns := by
  induction ms with
  | nil => rfl
  | cons m ms ih => simp [textsAll, ih]

theorem data_addChar (c : Char) (before : List Markup) :
    data (addChar c before).reverse = data before.reverse ++ String.singleton c := by
  apply String.toList_inj.1
  unfold addChar
  split <;> simp [data_append, data]

theorem textsAll_addChar (c : Char) (before : List Markup) :
    textsAll (addChar c before).reverse = textsAll before.reverse := by
  unfold addChar
  split <;> simp [textsAll_append, textsAll, texts]

theorem data_joined (before : List Markup) (m : Markup) :
    data (joined before m).reverse = data before.reverse ++ data [m] := by
  cases m with
  | single | element => simp [joined, data_append, data]
  | text s =>
    have each (cs : List Char) (before : List Markup) :
        data (cs.foldl (fun before c => addChar c before) before).reverse =
          data before.reverse ++ String.ofList cs := by
      induction cs generalizing before with
      | nil => simp
      | cons c cs ih =>
        rw [List.foldl_cons, ih, data_addChar, String.append_assoc]
        congr 1
        apply String.toList_inj.1
        simp
    rw [joined, each, String.ofList_toList]
    simp [data]

theorem data_joinedAll (before ms : List Markup) :
    data (joinedAll before ms).reverse = data before.reverse ++ data ms := by
  induction ms generalizing before with
  | nil => simp [joinedAll, data]
  | cons m rest ih =>
    rw [joinedAll, ih, data_joined, String.append_assoc, ← data_append]
    rfl

mutual

theorem textsAll_joined (before : List Markup) (m : Markup) :
    textsAll (joined before m).reverse = textsAll before.reverse ++ texts m :=
  match m with
  | .single name attributes => by simp [joined, textsAll_append, textsAll]
  | .element name attributes inner => by
    have inside := textsAll_joinedAll [] inner
    have whole := data_joinedAll [] inner
    simp only [List.reverse_nil, textsAll, List.nil_append, data, String.empty_append] at inside whole
    simp [joined, textsAll_append, textsAll, texts, inside, whole]
  | .text s => by
    rw [joined, texts, List.append_nil]
    induction s.toList generalizing before with
    | nil => rfl
    | cons c cs ih => rw [List.foldl_cons, ih, textsAll_addChar]

theorem textsAll_joinedAll (before ms : List Markup) :
    textsAll (joinedAll before ms).reverse = textsAll before.reverse ++ textsAll ms :=
  match ms with
  | [] => by simp [joinedAll, textsAll]
  | m :: rest => by
    rw [joinedAll, textsAll_joinedAll (joined before m) rest, textsAll_joined before m,
      List.append_assoc]
    rfl

end

mutual

def Allowed : Markup → Prop
  | .single _ _ => True
  | .element _ _ content => AllowedAll content
  | .text s => ∀ c ∈ s.toList, isChar c

def AllowedAll : List Markup → Prop
  | [] => True
  | m :: rest => Allowed m ∧ AllowedAll rest

end

theorem isChar_of_isPlain {c : Char} (h : isPlain c) : isChar c := by
  simp only [isPlain, isChar, Bool.and_eq_true, Bool.or_eq_true, decide_eq_true_eq] at h ⊢
  omega

theorem isPlain_of_isNameChar {c : Char} (h : isNameChar c) : isPlain c := by
  have upper : c.isUpper = decide ('A'.val ≤ c.val ∧ c.val ≤ 'Z'.val) := rfl
  have lower : c.isLower = (decide ('a'.val ≤ c.val) && decide (c.val ≤ 'z'.val)) := rfl
  have digit : c.isDigit = (decide ('0'.val ≤ c.val) && decide (c.val ≤ '9'.val)) := rfl
  have letter : c.isAlpha = (c.isUpper || c.isLower) := rfl
  simp only [isNameChar, isNameStart, isPlain, letter, upper, lower, digit, Bool.and_eq_true, Bool.or_eq_true,
    decide_eq_true_eq, UInt32.le_iff_toNat_le, ne_eq, ← Char.toNat_inj] at h ⊢
  simp only [Char.reduceToNat, Char.toNat_val] at h ⊢
  omega

theorem forall_escapeChar (c : Char) : (∀ d ∈ escapeChar c, isChar d) ↔ isChar c := by
  unfold escapeChar
  split
  case h_6 => simp
  all_goals exact iff_of_true (forall_of_all (by decide)) (by decide)

theorem forall_escape (s : String) :
    (∀ c ∈ (Markup.escape s).toList, isChar c) ↔ ∀ c ∈ s.toList, isChar c := by
  rw [toList_escape, List.forall_mem_flatMap]
  exact forall₂_congr fun c _ => forall_escapeChar c

theorem forall_isName {s : String} (h : isName s) : ∀ c ∈ s.toList, isChar c := by
  obtain ⟨c, rest, found, begins, goes⟩ := exists_of_isName h
  have first : isNameChar c := by simp [isNameChar, begins]
  rw [found]
  exact List.forall_mem_cons.2 ⟨isChar_of_isPlain (isPlain_of_isNameChar first),
    fun d member => isChar_of_isPlain (isPlain_of_isNameChar (goes d member))⟩

theorem forall_tagText {name : String} {attributes : List (String × String)}
    (sound : SoundTag name attributes) :
    ∀ c ∈ (Markup.tagText name attributes).toList, isChar c := by
  simp only [Markup.tagText, String.toList_append, String.toList_join, List.flatMap_map,
    List.forall_mem_append, List.forall_mem_flatMap, Markup.attributeText]
  refine ⟨forall_isName sound.name, fun a member => ?_⟩
  have blank : ∀ c ∈ " ".toList, isChar c := forall_of_all (by decide)
  have equals : ∀ c ∈ "=\"".toList, isChar c := forall_of_all (by decide)
  have quote : ∀ c ∈ "\"".toList, isChar c := forall_of_all (by decide)
  refine ⟨⟨⟨⟨blank, forall_isName (sound.keys a member)⟩, equals⟩, fun c held => ?_⟩, quote⟩
  exact isChar_of_isPlain (sound.values a member c held)

mutual

-- Tags are written in plain characters, so only character data can bring in others.
theorem forall_write (m : Markup) (sound : Sound m) : (∀ c ∈ m.write.toList, isChar c) ↔ Allowed m :=
  match m with
  | .text s => forall_escape s
  | .single name attributes => by
    simp only [Markup.write, Allowed, String.toList_append, List.forall_mem_append, iff_true]
    exact ⟨⟨forall_of_all (by decide), forall_tagText sound⟩, forall_of_all (by decide)⟩
  | .element name attributes inner => by
    have opened : ∀ c ∈ "<".toList, isChar c := forall_of_all (by decide)
    have behind : ∀ c ∈ ">".toList, isChar c := forall_of_all (by decide)
    have closed : ∀ c ∈ "</".toList, isChar c := forall_of_all (by decide)
    simp only [Markup.write, Allowed, String.toList_append, List.forall_mem_append,
      forall_writeAll inner sound.2]
    exact ⟨fun h => h.1.1.1.2, fun h =>
      ⟨⟨⟨⟨⟨⟨opened, forall_tagText sound.1⟩, behind⟩, h⟩, closed⟩, forall_isName sound.1.name⟩, behind⟩⟩

theorem forall_writeAll (ms : List Markup) (sound : SoundAll ms) :
    (∀ c ∈ (Markup.writeAll ms).toList, isChar c) ↔ AllowedAll ms :=
  match ms with
  | [] => by simp [Markup.writeAll, AllowedAll]
  | m :: rest => by
    rw [Markup.writeAll, String.toList_append, List.forall_mem_append, forall_write m sound.1,
      forall_writeAll rest sound.2]
    rfl

end

end Xml

end Waterfall
