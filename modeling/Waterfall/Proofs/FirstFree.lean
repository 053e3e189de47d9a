import Mathlib
import Waterfall.Proofs.Blanks
import Waterfall.Span.Ids

set_option autoImplicit false

namespace Waterfall.Ids

inductive Asks (fallback : String) : Option String → String → Prop where
  | recorded {text id : String} (trimmed : Trimmed text.toList id.toList) (some_left : id ≠ "") :
      Asks fallback (some text) id
  | blank {text : String} (blank : ∀ c ∈ text.toList, isBlank c = true) :
      Asks fallback (some text) fallback
  | missing : Asks fallback none fallback

theorem trim_eq_empty_iff {text : String} : trim text = "" ↔ ∀ c ∈ text.toList, isBlank c = true := by
  rw [← trimChars_eq_nil_iff, trim, ← String.toList_inj, String.toList_ofList]
  rfl

theorem asks_preferred (recorded : Option String) (fallback : String) :
    Asks fallback recorded (preferred recorded fallback) := by
  cases recorded with
  | none => exact .missing
  | some text =>
    simp only [preferred, Option.map_some]
    split
    next nothing => exact .blank (trim_eq_empty_iff.1 nothing)
    next some_left =>
      refine .recorded ?_ some_left
      rw [trim, String.toList_ofList]
      exact trimmed_trimChars text.toList

theorem asks_iff {recorded : Option String} {fallback asked : String} :
    Asks fallback recorded asked ↔ asked = preferred recorded fallback := by
  constructor
  · intro asks
    cases asks with
    | @recorded text _ trimmed some_left =>
      have same : trim text = asked := by rw [trim, trimmed.trimChars_eq, String.ofList_toList]
      simp only [preferred, Option.map_some, same, if_neg some_left]
    | blank blank => simp only [preferred, Option.map_some, trim_eq_empty_iff.2 blank, if_true]
    | missing => rfl
  · rintro rfl
    exact asks_preferred recorded fallback

-- Adds an id, and tells whether it is new.
def add (ids : Ids) (id : String) : Bool × Ids :=
  if id ∈ ids then (false, ids) else (true, id :: ids)

/-- The search that tries the numbers from `n` on comes to an end with an id and the ids claimed by then. -/
inductive SearchEnds (base : String) : Ids → ℕ → String × Ids → Prop where
  | new {ids after : Ids} {n : ℕ} (added : ids.add (numbered base n) = (true, after)) :
      SearchEnds base ids n (numbered base n, after)
  | taken {ids after : Ids} {n : ℕ} {found : String × Ids}
      (refused : ids.add (numbered base n) = (false, after)) (rest : SearchEnds base after (n + 1) found) :
      SearchEnds base ids n found

inductive ClaimEnds (base : String) : Ids → String × Ids → Prop where
  | new {ids after : Ids} (added : ids.add base = (true, after)) : ClaimEnds base ids (base, after)
  | taken {ids after : Ids} {found : String × Ids} (refused : ids.add base = (false, after))
      (search : SearchEnds base after 2 found) : ClaimEnds base ids found

-- The numbers from `n` on that make the id new.
def free (ids : Ids) (base : String) (n : ℕ) : Set ℕ :=
  {m | n ≤ m ∧ numbered base m ∉ ids}

section

variable {ids after : Ids} {base id : String} {n m : ℕ} {found : String × Ids}

theorem add_eq_true_iff : ids.add id = (true, after) ↔ id ∉ ids ∧ after = id :: ids := by
  unfold add
  split <;> simp [*, eq_comm]

theorem add_eq_false_iff : ids.add id = (false, after) ↔ id ∈ ids ∧ after = ids := by
  unfold add
  split <;> simp [*, eq_comm]

-- Going on from a number that is taken keeps the free numbers.
theorem free_succ (taken : numbered base n ∈ ids) : ids.free base (n + 1) = ids.free base n := by
  ext m
  refine and_congr_left fun new => ⟨Nat.le_of_succ_le, fun from_n => Nat.lt_of_le_of_ne from_n ?_⟩
  rintro rfl
  exact new taken

theorem SearchEnds.exists_least (search : SearchEnds base ids n found) :
    ∃ m, IsLeast (ids.free base n) m ∧ found = (numbered base m, numbered base m :: ids) := by
  induction search with
  | new added =>
    obtain ⟨new, rfl⟩ := add_eq_true_iff.1 added
    exact ⟨_, ⟨⟨le_rfl, new⟩, fun m later => later.1⟩, rfl⟩
  | taken refused _ ih =>
    obtain ⟨taken, rfl⟩ := add_eq_false_iff.1 refused
    rwa [free_succ taken] at ih

-- The induction is on how many numbers are left until the least free one.
theorem searchEnds_of_least (least : IsLeast (ids.free base n) m) :
    SearchEnds base ids n (numbered base m, numbered base m :: ids) := by
  induction gap : m - n generalizing n with
  | zero =>
    obtain rfl : m = n := le_antisymm (Nat.sub_eq_zero_iff_le.1 gap) least.1.1
    exact .new (add_eq_true_iff.2 ⟨least.1.2, rfl⟩)
  | succ left ih =>
    have taken : numbered base n ∈ ids := by
      by_contra new
      have := least.2 ⟨le_rfl, new⟩
      omega
    rw [← free_succ taken] at least
    exact .taken (add_eq_false_iff.2 ⟨taken, rfl⟩) (ih least (by omega))

theorem searchEnds_iff :
    SearchEnds base ids n found ↔
      ∃ m, IsLeast (ids.free base n) m ∧ found = (numbered base m, numbered base m :: ids) := by
  refine ⟨SearchEnds.exists_least, ?_⟩
  rintro ⟨m, least, rfl⟩
  exact searchEnds_of_least least

end

theorem numbered_inj {base : String} {m n : Nat} : numbered base m = numbered base n ↔ m = n := by
  constructor
  · intro same
    exact Nat.repr_injective ((String.append_right_inj _).1 same)
  · rintro rfl
    rfl

theorem exists_numbered_notMem (ids : Ids) (base : String) :
    ∃ k < ids.length + 1, numbered base (k + 2) ∉ ids := by
  -- There are more candidates than ids to take them.
  by_contra taken
  push Not at taken
  have distinct : ((List.range (ids.length + 1)).map fun k => numbered base (k + 2)).Nodup := by
    refine List.nodup_range.map fun j k same => ?_
    have := numbered_inj.1 same
    omega
  have all_taken : ((List.range (ids.length + 1)).map fun k => numbered base (k + 2)) ⊆ ids := by
    intro id member
    obtain ⟨k, inside, rfl⟩ := List.mem_map.1 member
    exact taken k (List.mem_range.1 inside)
  have := (List.subperm_of_subset distinct all_taken).length_le
  simp at this

theorem exists_least_free (ids : Ids) (base : String) :
    ∃ k < ids.length + 1, IsLeast (ids.free base 2) (k + 2) := by
  obtain ⟨j, inside, new⟩ := exists_numbered_notMem ids base
  have free : j + 2 ∈ ids.free base 2 := ⟨Nat.le_add_left 2 j, new⟩
  obtain ⟨m, least⟩ : ∃ m, IsLeast (ids.free base 2) m := ⟨_, isLeast_csInf ⟨j + 2, free⟩⟩
  obtain ⟨k, rfl⟩ := Nat.exists_eq_add_of_le' least.1.1
  have := least.2 free
  exact ⟨k, by omega, least⟩

/-- The id itself if it is free, and otherwise the id with the least number from two on that makes it so. -/
inductive FirstFree (ids : Ids) (base : String) : String → Prop where
  | itself (new : base ∉ ids) : FirstFree ids base base
  | numbered {n : ℕ} (taken : base ∈ ids) (least : IsLeast (ids.free base 2) n) :
      FirstFree ids base (numbered base n)

section

variable {ids : Ids} {base id other : String} {out : String × Ids}

theorem FirstFree.notMem (first : FirstFree ids base id) : id ∉ ids := by
  cases first with
  | itself new => exact new
  | numbered _ least => exact least.1.2

theorem FirstFree.unique (first : FirstFree ids base id) (second : FirstFree ids base other) : id = other := by
  cases first with
  | itself new =>
    cases second with
    | itself => rfl
    | numbered taken => exact absurd taken new
  | numbered taken least =>
    cases second with
    | itself new => exact absurd taken new
    | numbered _ least' => rw [least.unique least']

theorem claimEnds_iff : ClaimEnds base ids out ↔ FirstFree ids base out.1 ∧ out.2 = out.1 :: ids := by
  constructor
  · rintro (added | ⟨refused, search⟩)
    · obtain ⟨new, rfl⟩ := add_eq_true_iff.1 added
      exact ⟨.itself new, rfl⟩
    · obtain ⟨taken, rfl⟩ := add_eq_false_iff.1 refused
      obtain ⟨n, least, rfl⟩ := searchEnds_iff.1 search
      exact ⟨.numbered taken least, rfl⟩
  · obtain ⟨id, after⟩ := out
    rintro ⟨(first : FirstFree ids base id), (rfl : after = id :: ids)⟩
    cases first with
    | itself new => exact .new (add_eq_true_iff.2 ⟨new, rfl⟩)
    | numbered taken least =>
      exact .taken (add_eq_false_iff.2 ⟨taken, rfl⟩) (searchEnds_iff.2 ⟨_, least, rfl⟩)

end

-- The least free number is among the candidates.
theorem firstFree_fresh (ids : Ids) (base : String) : FirstFree ids base (ids.fresh base) := by
  unfold fresh
  split
  next taken =>
    obtain ⟨k, inside, least⟩ := exists_least_free ids base
    have found : (List.range (ids.length + 1)).find? (fun j => numbered base (j + 2) ∉ ids) = some k := by
      rw [List.find?_range_eq_some]
      refine ⟨decide_eq_true least.1.2, List.mem_range.2 inside, fun j before => ?_⟩
      by_contra new
      have := least.2 ⟨Nat.le_add_left 2 j, by simpa using new⟩
      omega
    dsimp only
    rw [List.find?_map, Function.comp_def, found]
    exact .numbered taken least
  next new => exact .itself new

/-- A claim comes to an end, in one way only, and hands out the first free id for the id asked for. -/
theorem claim_first_free (ids : Ids) (recorded : Option String) (fallback : String) :
    let asked := preferred recorded fallback
    let claimed := ids.claim recorded fallback
    (∀ id, Asks fallback recorded id ↔ id = asked) ∧
      (∀ out, ClaimEnds asked ids out ↔ out = claimed) ∧
      FirstFree ids asked claimed.1 ∧ claimed.1 ∉ ids ∧
      claimed.2.toFinset = insert claimed.1 ids.toFinset := by
  intro asked claimed
  have first : FirstFree ids asked claimed.1 := firstFree_fresh ids asked
  refine ⟨fun id => asks_iff, fun out => ?_, first, first.notMem, List.toFinset_cons⟩
  rw [claimEnds_iff]
  constructor
  · rintro ⟨found, after⟩
    have same : out.1 = claimed.1 := found.unique first
    exact Prod.ext same (after.trans (congrArg (· :: ids) same))
  · rintro rfl
    exact ⟨first, rfl⟩

-- Recorded ids may look like numbered ones.
example : Ids.claim ["dup#2", "dup"] (some " dup ") "root" = ("dup#3", ["dup#3", "dup#2", "dup"]) := by
  decide

end Waterfall.Ids
