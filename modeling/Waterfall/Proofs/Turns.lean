import Waterfall.Proofs.Coverage
import Waterfall.Proofs.Timings

set_option autoImplicit false

namespace Waterfall

def Signal.Untimed (g : Signal) : Prop :=
  ∀ ms ∈ g.durationMs, ¬ (ms.isFinite = true ∧ 0 ≤ ms)

theorem Signal.untimed_iff (g : Signal) :
    g.Untimed ↔ g.durationMs.bind Timing.microsOfMillis? = none := by
  simp only [Untimed, Option.bind_eq_none_iff, Option.mem_def, ← Timing.isSome_microsOfMillis?_iff,
    Option.not_isSome_iff_eq_none]

theorem Micros.clip_toNat (n : UInt64) : clip n.toNat = n := by
  apply UInt64.toNat_inj.1
  have := n.toNat_lt
  simp only [toNat_clip, limit, UInt64.size]
  omega

theorem Micros.add_clip (n : ℕ) (b : UInt64) : add (clip n) b = clip (n + b.toNat) := by
  apply UInt64.toNat_inj.1
  simp only [toNat_add, toNat_clip]
  omega

theorem Micros.clip_le_clip {m n : ℕ} (h : m ≤ n) : clip m ≤ clip n := by
  rw [UInt64.le_iff_toNat_le, toNat_clip, toNat_clip]
  exact min_le_min_right _ h

namespace Timing

theorem toNat_share {block : UInt64} {count : ℕ} (pos : 0 < count) (fits : count ≤ block.toNat) :
    (share block count).toNat = block.toNat / count := by
  have least : 1 ≤ block.toNat / count := Nat.div_pos fits pos
  have most : block.toNat / count ≤ block.toNat := Nat.div_le_self _ _
  have whole : (UInt64.ofNat (block.toNat / count)).toNat = block.toNat / count :=
    UInt64.toNat_ofNat_of_lt' (most.trans_lt block.toNat_lt)
  rw [share, toNat_atLeastOne, Nat.max_eq_left pos, whole, Nat.max_eq_left least]

variable {share start : UInt64} {signals : List Signal}

theorem start_of_mem_head? {t : Timing} (first : t ∈ (inTurn share start signals).head?) :
    t.start = start := by
  cases signals with
  | nil => cases first
  | cons g rest =>
    cases first
    rfl

theorem isChain_inTurn (share start : UInt64) (signals : List Signal) :
    (inTurn share start signals).IsChain fun t u => u.start = Micros.add t.start t.duration := by
  induction signals generalizing start with
  | nil => exact .nil
  | cons g rest ih =>
    exact List.isChain_cons.2 ⟨fun u first => start_of_mem_head? first, ih _⟩

-- The starts are clipped once, as if the times before them had been added without a bound.
theorem getElem?_inTurn {n k : ℕ} (untimed : ∀ g ∈ signals, g.Untimed) (inside : k < signals.length) :
    (inTurn share (Micros.clip n) signals)[k]? =
      some ⟨Micros.clip (n + k * share.toNat), share, true⟩ := by
  induction signals generalizing n k with
  | nil => cases inside
  | cons g rest ih =>
    have here := g.untimed_iff.1 (untimed g List.mem_cons_self)
    simp only [inTurn, here, Option.getD_none, Option.isNone_none, Micros.add_clip]
    cases k with
    | zero => rw [List.getElem?_cons_zero, Nat.zero_mul, Nat.add_zero]
    | succ k =>
      rw [List.getElem?_cons_succ, ih (fun g member => untimed g (List.mem_cons_of_mem _ member))
        (Nat.lt_of_succ_lt_succ inside), Nat.succ_mul, Nat.add_comm (k * _), Nat.add_assoc]

end Timing

theorem Document.exists_parts_eq {d : Document} {i : ℕ} {p : Phase} {b : SignalBlock}
    (recorded : d.phases[i]? = some p) (block : p.signals = some b) :
    ∃ before after, d.parts = before ++ (.signals i p b ::
      (b.signals.zipIdx.map (fun (g, k) => Part.signal i p b k g) ++ after)) := by
  obtain ⟨before, after, split⟩ := List.append_of_mem (List.mk_mem_zipIdx_iff_getElem?.2 recorded)
  rw [parts, split, List.flatMap_append, List.flatMap_cons]
  simp only [Phase.parts, block, Option.elim_some, SignalBlock.parts, List.cons_append,
    List.append_assoc]
  exact ⟨.root :: (_ ++ (_ ++ [.phase i p])), _, by simp; rfl⟩

theorem exists_append_of_forall₂ {α β : Type} {R : α → β → Prop} {l l₁ l₂ : List α} {r : List β}
    (related : List.Forall₂ R l r) (split : l = l₁ ++ l₂) :
    ∃ r₁ r₂, r = r₁ ++ r₂ ∧ List.Forall₂ R l₁ r₁ ∧ List.Forall₂ R l₂ r₂ := by
  subst split
  refine ⟨r.take l₁.length, r.drop l₁.length, (List.take_append_drop _ _).symm, ?_, ?_⟩
  · simpa using List.forall₂_take l₁.length related
  · simpa using List.forall₂_drop l₁.length related

namespace Span

def moments (s : Span) : Finset ℕ := Finset.Ico s.start.toNat s.finish.toNat

def uncovered (own : Span) (turns : List Span) : Finset ℕ :=
  own.moments.filter fun t => ∀ s ∈ turns, t ∉ s.moments

variable {d : Document} {i : ℕ} {p : Phase} {b : SignalBlock} {own s : Span} {turns : List Span}

theorem exists_turns (recorded : d.phases[i]? = some p) (block : p.signals = some b) :
    ∃ before own turns after, ofDocument d = before ++ own :: (turns ++ after) ∧
      (Part.signals i p b, own) ∈ d.parts.zip (ofDocument d) ∧
      List.Forall₂ (fun (g, k) s => (Part.signal i p b k g, s) ∈ d.parts.zip (ofDocument d))
        b.signals.zipIdx turns := by
  have listed : List.Forall₂ (fun part s => (part, s) ∈ d.parts.zip (ofDocument d)) d.parts
      (ofDocument d) := List.forall₂_iff_zip.2 ⟨(shown_ofDocument d).length_eq, fun here => here⟩
  obtain ⟨_, _, split⟩ := Document.exists_parts_eq recorded block
  obtain ⟨before, rest, spans, -, later⟩ := exists_append_of_forall₂ listed split
  obtain ⟨own, rest', here, inner, rfl⟩ := List.forall₂_cons_left_iff.1 later
  obtain ⟨turns, after, rfl, each, -⟩ := exists_append_of_forall₂ inner rfl
  exact ⟨before, own, turns, after, spans, here, List.forall₂_map_left_iff.1 each⟩

variable (here : (Part.signals i p b, own) ∈ d.parts.zip (ofDocument d))
  (each : List.Forall₂ (fun (g, k) s => (Part.signal i p b k g, s) ∈ d.parts.zip (ofDocument d))
    b.signals.zipIdx turns)

include here each

omit here in
theorem length_turns : turns.length = b.signals.length := by
  rw [← each.length_eq, List.length_zipIdx]

theorem timing_turns :
    turns.map timing =
      Timing.inTurn (Timing.share own.duration b.signals.length) own.start b.signals := by
  have block := timing_eq here nofun
  have length (share start : UInt64) :
      (turns.map timing).length = (Timing.inTurn share start b.signals).length := by
    rw [List.length_map, Timing.length_inTurn, length_turns each]
  refine List.ext_getElem (length _ _) fun k inside inside' => ?_
  rw [List.length_map] at inside
  have turn := each.get (each.length_eq ▸ inside) inside
  simp only [List.get_eq_getElem, List.getElem_zipIdx, Nat.zero_add] at turn
  rw [List.getElem_map, timing_eq turn nofun]
  simp only [Part.timing]
  change own.timing = Timing.signals _ _ b at block
  rw [← block]
  exact Option.getD_eq_iff.2 (.inl (List.getElem?_eq_getElem inside'))

theorem timing_turn (untimed : ∀ g ∈ b.signals, g.Untimed) (fits : b.signals.length ≤ own.duration.toNat)
    {k : ℕ} (found : turns[k]? = some s) :
    k < b.signals.length ∧
      s.start = Micros.clip (own.start.toNat + k * (own.duration.toNat / b.signals.length)) ∧
      s.duration.toNat = own.duration.toNat / b.signals.length ∧
      s.finish = Micros.clip (own.start.toNat + (k + 1) * (own.duration.toNat / b.signals.length)) := by
  have turn : (turns.map timing)[k]? = some s.timing := by
    rw [List.getElem?_map, found, Option.map_some]
  have inside : k < b.signals.length := length_turns each ▸ (List.getElem?_eq_some_iff.1 found).1
  rw [timing_turns here each, ← Micros.clip_toNat own.start, Timing.getElem?_inTurn untimed inside,
    Timing.toNat_share (Nat.zero_lt_of_lt inside) fits] at turn
  have start : s.start = Micros.clip _ := congrArg Timing.start (Option.some.inj turn).symm
  have duration : s.duration = Timing.share _ _ := congrArg Timing.duration (Option.some.inj turn).symm
  have share := Timing.toNat_share (Nat.zero_lt_of_lt inside) fits
  rw [← duration] at share
  refine ⟨inside, start, share, ?_⟩
  rw [finish, start, Micros.add_clip, share, Nat.succ_mul, Nat.add_assoc]

theorem turn_within (untimed : ∀ g ∈ b.signals, g.Untimed)
    (fits : b.signals.length ≤ own.duration.toNat) (member : s ∈ turns) :
    s.duration.toNat = own.duration.toNat / b.signals.length ∧ own.start ≤ s.start ∧
      s.finish ≤ own.finish := by
  obtain ⟨k, found⟩ := List.getElem?_of_mem member
  obtain ⟨inside, start, share, finish⟩ := timing_turn here each untimed fits found
  have last : (k + 1) * (own.duration.toNat / b.signals.length) ≤ own.duration.toNat :=
    (Nat.mul_le_mul_right _ inside).trans (Nat.mul_div_le _ _)
  refine ⟨share, ?_, ?_⟩
  · calc own.start = Micros.clip own.start.toNat := (Micros.clip_toNat _).symm
      _ ≤ s.start := start ▸ Micros.clip_le_clip (Nat.le_add_right _ _)
  · rw [finish]
    exact Micros.clip_le_clip (Nat.add_le_add_left last _)

-- A microsecond before the end of the last turn is in the turn that division by the share gives.
theorem uncovered_subset (untimed : ∀ g ∈ b.signals, g.Untimed)
    (fits : b.signals.length ≤ own.duration.toNat) :
    uncovered own turns ⊆ Finset.Ico
      (own.start.toNat + b.signals.length * (own.duration.toNat / b.signals.length))
      (own.start.toNat + own.duration.toNat) := by
  intro t member
  simp only [uncovered, moments, Finset.mem_filter, Finset.mem_Ico, finish, Micros.toNat_add] at member
  obtain ⟨⟨early, late⟩, bare⟩ := member
  refine Finset.mem_Ico.2 ⟨?_, by omega⟩
  by_contra before
  have short : t - own.start.toNat < b.signals.length * (own.duration.toNat / b.signals.length) := by
    omega
  have pos : 0 < own.duration.toNat / b.signals.length :=
    Nat.pos_of_mul_pos_left (Nat.zero_lt_of_lt short)
  have inside : (t - own.start.toNat) / (own.duration.toNat / b.signals.length) < turns.length := by
    rw [length_turns each]
    exact Nat.div_lt_of_lt_mul (by rwa [Nat.mul_comm])
  obtain ⟨-, start, share, -⟩ :=
    timing_turn here each untimed fits (List.getElem?_eq_getElem inside)
  have least := Nat.div_mul_le_self (t - own.start.toNat) (own.duration.toNat / b.signals.length)
  have most := Nat.lt_mul_div_succ (t - own.start.toNat) pos
  rw [Nat.mul_comm, Nat.succ_mul] at most
  refine bare _ (List.getElem_mem inside) ?_
  rw [start, share, Micros.toNat_clip]
  omega

theorem card_uncovered_lt (untimed : ∀ g ∈ b.signals, g.Untimed)
    (fits : b.signals.length ≤ own.duration.toNat) (nonempty : b.signals ≠ []) :
    (uncovered own turns).card < b.signals.length := by
  have rest := Nat.div_add_mod own.duration.toNat b.signals.length
  calc (uncovered own turns).card
      ≤ own.duration.toNat % b.signals.length := by
        refine (Finset.card_le_card (uncovered_subset here each untimed fits)).trans_eq ?_
        rw [Nat.card_Ico]
        omega
    _ < b.signals.length := Nat.mod_lt _ (List.length_pos_iff.2 nonempty)

omit here each

/-- The signals of a block follow each other without a gap. Those without a duration last equally long, and less than
a microsecond for each is left uncovered. -/
theorem signals_in_turn (recorded : d.phases[i]? = some p) (block : p.signals = some b) :
    ∃ before own turns after, ofDocument d = before ++ own :: (turns ++ after) ∧
      (Part.signals i p b, own) ∈ d.parts.zip (ofDocument d) ∧
      List.Forall₂ (fun (g, k) s => (Part.signal i p b k g, s) ∈ d.parts.zip (ofDocument d) ∧
        s.parent = some own.id) b.signals.zipIdx turns ∧
      (∀ s ∈ turns.head?, s.start = own.start) ∧
      turns.IsChain (fun s t => t.start = s.finish) ∧
      ((∀ g ∈ b.signals, g.Untimed) → b.signals.length ≤ own.duration.toNat →
        (∀ s ∈ turns, s.duration.toNat = own.duration.toNat / b.signals.length ∧
          own.start ≤ s.start ∧ s.finish ≤ own.finish) ∧
        (b.signals ≠ [] → (uncovered own turns).card < b.signals.length)) := by
  obtain ⟨before, own, turns, after, listed, here, each⟩ := exists_turns recorded block
  have timed := timing_turns here each
  refine ⟨before, own, turns, after, listed, here, ?_, ?_, ?_, fun untimed fits => ⟨?_, ?_⟩⟩
  · exact each.imp fun (g, k) s turn => ⟨turn, (parent_eq_iff turn here).2 rfl⟩
  · intro s first
    have turn : s.timing ∈ (turns.map timing).head? := by
      rw [List.head?_map]
      exact Option.mem_map_of_mem _ first
    rw [timed] at turn
    exact Timing.start_of_mem_head? turn
  · have chain := Timing.isChain_inTurn (Timing.share own.duration b.signals.length) own.start b.signals
    rw [← timed] at chain
    exact (List.isChain_map timing).1 chain
  · exact fun s member => turn_within here each untimed fits member
  · exact card_uncovered_lt here each untimed fits

-- What is reported for the second signal cannot be a duration; two of 302 microseconds are left.
theorem signals_in_turn_shared :
    let b : SignalBlock :=
      { start := 1000, finish := 303000, signals := [{ name := "lint" }, { durationMs := some (-1) }, {}] }
    let p : Phase := { signals := some b }
    let d : Document := { start := 1000, finish := 901000, phases := [p] }
    d.phases[0]? = some p ∧ p.signals = some b ∧ (∀ g ∈ b.signals, g.Untimed) ∧
      ∃ before own turns after, ofDocument d = before ++ own :: (turns ++ after) ∧
        own.duration = 302 ∧ turns.length = 3 ∧
        turns.IsChain (fun s t => t.start = s.finish) ∧
        (∀ s ∈ turns, s.duration.toNat = 100 ∧ own.start ≤ s.start ∧ s.finish ≤ own.finish) ∧
        (uncovered own turns).card < 3 := by
  intro b p d
  have untimed : ∀ g ∈ b.signals, g.Untimed := fun g member => g.untimed_iff.2 (by
    fin_cases member <;> decide +kernel)
  obtain ⟨before, own, turns, after, listed, here, each, -, chain, shared⟩ :=
    signals_in_turn (d := d) (i := 0) (p := p) (b := b) rfl rfl
  have duration : own.duration = 302 :=
    (congrArg Timing.duration (timing_eq here nofun)).trans (by decide +kernel)
  rw [duration] at shared
  obtain ⟨equal, left⟩ := shared untimed (by decide)
  have share : UInt64.toNat 302 / b.signals.length = 100 := by decide
  rw [share] at equal
  exact ⟨rfl, rfl, untimed, before, own, turns, after, listed, duration, each.length_eq.symm, chain, equal,
    left (List.cons_ne_nil _ _)⟩

end Span

end Waterfall
