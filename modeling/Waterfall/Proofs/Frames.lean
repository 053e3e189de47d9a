import Waterfall.Redraw

set_option autoImplicit false

namespace Waterfall

namespace Redraw

inductive Call where
  | request
  | beginFrame (now : Nat)
  | due (now : Nat)

def call (r : Redraw) : Call → Redraw
  | .request => r.request
  | .beginFrame now => (r.beginFrame now).1
  | .due _ => r

def drawn? (r : Redraw) : Call → Option Nat
  | .beginFrame now => if (r.beginFrame now).2 then some now else none
  | _ => none

def callAll (r : Redraw) (calls : List Call) : Redraw :=
  calls.foldl call r

def frames (r : Redraw) : List Call → List Nat
  | [] => []
  | c :: rest => (r.drawn? c).toList ++ (r.call c).frames rest

def Asked (r : Redraw) (calls : List Call) : Prop :=
  ∃ earlier later, calls = earlier ++ .request :: later ∧
    (r.callAll (earlier ++ [.request])).frames later = []

/-- The first instant at which a frame may be drawn. -/
def ready (r : Redraw) : Nat :=
  r.lastFrame.elim 0 (· + r.interval)

section

variable (r : Redraw) (now : Nat)

theorem due?_eq : r.due? now = if r.pending then some (r.ready - now) else none := by
  unfold due? ready
  cases r.lastFrame with
  | none => rw [Option.elim, Nat.zero_sub]
  | some last => rfl

theorem beginFrame_eq :
    r.beginFrame now =
      if r.pending = true ∧ r.ready ≤ now then
        ({ r with pending := false, lastFrame := some now }, true)
      else (r, false) := by
  have due : r.due? now = some 0 ↔ r.pending = true ∧ r.ready ≤ now := by
    rw [due?_eq, Option.ite_none_right_eq_some, Option.some_inj, Nat.sub_eq_zero_iff_le]
  simp only [beginFrame, due]

theorem beginFrame_snd : (r.beginFrame now).2 = true ↔ r.pending = true ∧ r.ready ≤ now := by
  rw [beginFrame_eq]
  split
  next drawn => exact iff_of_true rfl drawn
  next waiting => exact iff_of_false Bool.false_ne_true waiting

end

inductive Step (r : Redraw) : Call → Redraw → Option Nat → Prop where
  | asks : Step r .request r.request none
  | draws {now : Nat} (asked : r.pending = true) (ready : r.ready ≤ now) :
      Step r (.beginFrame now) { r with pending := false, lastFrame := some now } (some now)
  | stays {c : Call} (other : c ≠ .request) : Step r c r none

theorem step_call (r : Redraw) (c : Call) : Step r c (r.call c) (r.drawn? c) := by
  cases c with
  | request => exact .asks
  | due now => exact .stays nofun
  | beginFrame now =>
    rw [call, drawn?, beginFrame_eq]
    split
    next drawn => exact .draws drawn.1 drawn.2
    next => exact .stays nofun

section

variable {r s : Redraw} {c : Call} {frame : Option Nat} (step : Step r c s frame)

include step

theorem Step.interval : s.interval = r.interval := by
  cases step <;> rfl

theorem Step.lastFrame : s.lastFrame = frame.or r.lastFrame := by
  cases step <;> rfl

theorem Step.pending : s.pending = true ↔ c = .request ∨ r.pending = true ∧ frame = none := by
  cases step with
  | asks => exact iff_of_true r.pending_request (.inl rfl)
  | draws => simp
  | stays other => simp [other]

theorem Step.ready_le_of_drawn {now : Nat} (drawn : frame = some now) :
    r.ready ≤ now ∧ s.ready = now + r.interval := by
  cases step with
  | draws _ ready =>
    cases drawn
    exact ⟨ready, rfl⟩
  | asks | stays => cases drawn

theorem Step.ready_le : r.ready ≤ s.ready := by
  cases frame with
  | none =>
    have same : r.ready = s.ready := by
      rw [ready, ready, step.lastFrame, step.interval, Option.none_or]
    exact Nat.le_of_eq same
  | some now =>
    obtain ⟨late, next⟩ := step.ready_le_of_drawn rfl
    omega

end

theorem interval_callAll (r : Redraw) (calls : List Call) :
    (r.callAll calls).interval = r.interval := by
  induction calls generalizing r with
  | nil => rfl
  | cons c rest ih => exact (ih (r.call c)).trans (step_call r c).interval

theorem lastFrame_callAll (r : Redraw) (calls : List Call) :
    (r.callAll calls).lastFrame = (r.frames calls).getLast?.or r.lastFrame := by
  induction calls generalizing r with
  | nil => rfl
  | cons c rest ih =>
    refine (ih (r.call c)).trans ?_
    rw [(step_call r c).lastFrame, frames, List.getLast?_append, Option.or_assoc]
    cases r.drawn? c <;> rfl

theorem asked_cons (r : Redraw) (c : Call) (rest : List Call) :
    r.Asked (c :: rest) ↔
      c = .request ∧ (r.call c).frames rest = [] ∨ (r.call c).Asked rest := by
  constructor
  · rintro ⟨earlier, later, listed, none_drawn⟩
    cases earlier with
    | nil =>
      cases listed
      exact .inl ⟨rfl, none_drawn⟩
    | cons first earlier =>
      cases listed
      exact .inr ⟨earlier, later, rfl, none_drawn⟩
  · rintro (⟨rfl, none_drawn⟩ | ⟨earlier, later, rfl, none_drawn⟩)
    · exact ⟨[], rest, rfl, none_drawn⟩
    · exact ⟨c :: earlier, later, rfl, none_drawn⟩

-- A request is open if a call made it and no later one drew a frame, or if it was open at the start.
theorem pending_callAll (r : Redraw) (calls : List Call) :
    (r.callAll calls).pending = true ↔
      r.Asked calls ∨ r.pending = true ∧ r.frames calls = [] := by
  induction calls generalizing r with
  | nil => simp [callAll, frames, Asked]
  | cons c rest ih =>
    rw [asked_cons, frames, List.append_eq_nil_iff, Option.toList_eq_nil_iff]
    refine (ih (r.call c)).trans ?_
    rw [(step_call r c).pending, or_and_right, and_assoc, or_left_comm, or_assoc]

-- Over the calls, since none makes the next frame come earlier.
theorem ready_le_of_mem_frames {r : Redraw} {calls : List Call} {t : Nat}
    (drawn : t ∈ r.frames calls) : r.ready ≤ t := by
  induction calls generalizing r with
  | nil => cases drawn
  | cons c rest ih =>
    rw [frames, List.mem_append, Option.mem_toList] at drawn
    obtain now | later := drawn
    · exact ((step_call r c).ready_le_of_drawn now).1
    · exact Nat.le_trans (step_call r c).ready_le (ih later)

theorem pairwise_frames (r : Redraw) (calls : List Call) :
    (r.frames calls).Pairwise fun first second => first + r.interval ≤ second := by
  induction calls generalizing r with
  | nil => exact .nil
  | cons c rest ih =>
    have later := ih (r.call c)
    rw [(step_call r c).interval] at later
    rw [frames]
    cases drawn : r.drawn? c with
    | none => exact later
    | some now =>
      refine .cons (fun t member => ?_) later
      exact ((step_call r c).ready_le_of_drawn drawn).2 ▸ ready_le_of_mem_frames member

/-- A frame is drawn exactly if a redraw was requested since the last frame and that is an interval ago, and the
wait that is told is the least after which one is drawn. -/
theorem frame_iff_asked (interval : Nat) (calls : List Call) :
    let start : Redraw := { interval := interval }
    let r := start.callAll calls
    (∀ now, (r.beginFrame now).2 = true ↔
        start.Asked calls ∧ ∀ last, (start.frames calls).getLast? = some last → last + interval ≤ now) ∧
      (start.frames calls).Pairwise (fun first second => first + interval ≤ second) ∧
      ∀ now, ((r.due? now).isSome = true ↔ start.Asked calls) ∧
        ∀ wait, r.due? now = some wait →
          (r.beginFrame (now + wait)).2 = true ∧
            ∀ t, now ≤ t → t < now + wait → (r.beginFrame t).2 = false := by
  intro start r
  have pending : r.pending = true ↔ start.Asked calls := by
    simpa [start] using start.pending_callAll calls
  have lastFrame : r.lastFrame = (start.frames calls).getLast? := by
    simpa [start] using start.lastFrame_callAll calls
  have ready (now : Nat) : r.ready ≤ now ↔
      ∀ last, (start.frames calls).getLast? = some last → last + interval ≤ now := by
    rw [← lastFrame, Redraw.ready, start.interval_callAll calls]
    cases r.lastFrame <;> simp [start]
  refine ⟨fun now => ?_, start.pairwise_frames calls, fun now => ⟨?_, fun wait told => ?_⟩⟩
  · rw [beginFrame_snd, pending, ready]
  · rw [Option.isSome_iff_ne_none, ne_eq, due?_eq_none_iff, Bool.not_eq_false, pending]
  · rw [due?_eq, Option.ite_none_right_eq_some, Option.some_inj] at told
    obtain ⟨asked, rfl⟩ := told
    refine ⟨(r.beginFrame_snd _).2 ⟨asked, by omega⟩, fun t _ before => ?_⟩
    rw [← Bool.not_eq_true, beginFrame_snd]
    omega

end Redraw

end Waterfall
