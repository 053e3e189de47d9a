import Mathlib.Data.List.TakeWhile
import Waterfall.Text.Blank

set_option autoImplicit false

namespace Waterfall

variable {before cs inner after : List Char}

theorem trimStart_append (blank : ∀ c ∈ before, isBlank c = true)
    (first : ∀ c ∈ cs.head?, isBlank c = false) : trimStart (before ++ cs) = cs := by
  rw [trimStart, List.dropWhile_append_of_pos blank]
  cases cs with
  | nil => rfl
  | cons c rest => exact List.dropWhile_cons_of_neg (by simpa using first c rfl)

theorem trimEnd_append (blank : ∀ c ∈ after, isBlank c = true)
    (last : ∀ c ∈ cs.getLast?, isBlank c = false) : trimEnd (cs ++ after) = cs := by
  have turned : trimStart (after.reverse ++ cs.reverse) = cs.reverse :=
    trimStart_append (fun c member => blank c (List.mem_reverse.1 member)) (by rwa [List.head?_reverse])
  rw [trimEnd, List.reverse_append]
  exact (congrArg List.reverse turned).trans (List.reverse_reverse cs)

theorem head?_trimStart (cs : List Char) : ∀ c ∈ (trimStart cs).head?, isBlank c = false := by
  intro c first
  have solid := List.head?_dropWhile_not isBlank cs
  rwa [show (cs.dropWhile isBlank).head? = some c from first] at solid

theorem getLast?_trimEnd (cs : List Char) : ∀ c ∈ (trimEnd cs).getLast?, isBlank c = false := by
  rw [trimEnd, List.getLast?_reverse]
  exact head?_trimStart cs.reverse

theorem exists_trimStart (cs : List Char) :
    ∃ before, cs = before ++ trimStart cs ∧ ∀ c ∈ before, isBlank c = true :=
  ⟨cs.takeWhile isBlank, List.takeWhile_append_dropWhile.symm, fun _ member => List.mem_takeWhile_imp member⟩

theorem exists_trimEnd (cs : List Char) :
    ∃ after, cs = trimEnd cs ++ after ∧ ∀ c ∈ after, isBlank c = true := by
  obtain ⟨before, whole, blank⟩ := exists_trimStart cs.reverse
  refine ⟨before.reverse, ?_, fun c member => blank c (List.mem_reverse.1 member)⟩
  have turned := congrArg List.reverse whole
  rwa [List.reverse_reverse, List.reverse_append] at turned

theorem exists_trimChars (cs : List Char) :
    ∃ before after, cs = before ++ trimChars cs ++ after ∧ ∀ c ∈ before ++ after, isBlank c = true := by
  obtain ⟨before, started, blank_before⟩ := exists_trimStart cs
  obtain ⟨after, ended, blank_after⟩ := exists_trimEnd (trimStart cs)
  refine ⟨before, after, ?_, List.forall_mem_append.2 ⟨blank_before, blank_after⟩⟩
  rw [List.append_assoc, trimChars, ← ended]
  exact started

theorem trimChars_eq_nil_iff : trimChars cs = [] ↔ ∀ c ∈ cs, isBlank c = true := by
  constructor
  · intro nothing
    obtain ⟨before, after, parts, blank⟩ := exists_trimChars cs
    rw [nothing, List.append_nil] at parts
    rwa [parts]
  · intro blank
    rw [trimChars, trimStart, List.dropWhile_eq_nil_iff.2 blank]
    rfl

structure Trimmed (cs inner : List Char) : Prop where
  parts : ∃ before after, cs = before ++ inner ++ after ∧ ∀ c ∈ before ++ after, isBlank c = true
  first : ∀ c ∈ inner.head?, isBlank c = false
  last : ∀ c ∈ inner.getLast?, isBlank c = false

theorem Trimmed.trimChars_eq (trimmed : Trimmed cs inner) : trimChars cs = inner := by
  obtain ⟨⟨before, after, rfl, blank⟩, first, last⟩ := trimmed
  cases inner with
  | nil => exact trimChars_eq_nil_iff.2 (by rwa [List.append_nil])
  | cons c rest =>
    rw [List.forall_mem_append] at blank
    have started : trimStart (before ++ (c :: rest ++ after)) = c :: rest ++ after :=
      trimStart_append blank.1 first
    rw [trimChars, List.append_assoc, started]
    exact trimEnd_append blank.2 last

theorem trimmed_trimChars (cs : List Char) : Trimmed cs (trimChars cs) := by
  refine ⟨exists_trimChars cs, fun c first => ?_, getLast?_trimEnd _⟩
  obtain ⟨after, ended, -⟩ := exists_trimEnd (trimStart cs)
  apply head?_trimStart cs
  rw [ended, List.head?_append, show (trimEnd (trimStart cs)).head? = some c from first]
  rfl

theorem trimChars_append (blank : ∀ c ∈ before ++ after, isBlank c = true)
    (solid : ∀ c ∈ cs, isBlank c = false) : trimChars (before ++ cs ++ after) = cs :=
  Trimmed.trimChars_eq ⟨⟨before, after, rfl, blank⟩, fun c first => solid c (List.mem_of_head? first),
    fun c last => solid c (List.mem_of_mem_getLast? last)⟩

end Waterfall
