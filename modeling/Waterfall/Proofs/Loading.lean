import Waterfall.Proofs.Events

set_option autoImplicit false

namespace Waterfall

namespace View

variable {asked : Option Request} {answered : Option Outcome} {arrived later : List Outcome}
variable {v : View} {o : Outcome}

/-- The view that belongs to the last request: it waits while the answer is not taken in, and shows
the answer afterwards. -/
def Follows (asked : Option Request) (answered : Option Outcome) (arrived : List Outcome) :
    View → Prop
  | .empty => True
  | .loading handle ticket => asked = some ⟨ticket, handle⟩ ∧ ∀ o ∈ answered, o ∈ arrived
  | v => ∃ o ∈ answered, v = ofResult o.handle o.result

theorem Follows.mono (follows : Follows asked answered arrived v)
    (h : ∀ o ∈ answered, o ∈ arrived → o ∈ later) : Follows asked answered later v := by
  cases v with
  | loading handle ticket => exact ⟨follows.1, fun o answer => h o answer (follows.2 o answer)⟩
  | _ => exact follows

theorem Follows.answer (follows : Follows asked none arrived v) (o : Outcome) :
    Follows asked (some o) (arrived ++ [o]) v := by
  cases v with
  | empty => trivial
  | loading handle ticket => exact ⟨follows.1, by simp⟩
  | failed _ _ _ | shown _ => simp [Follows] at follows

-- An outcome that the view does not wait for is not missed.
theorem Follows.skip (follows : Follows asked answered (o :: later) v)
    (answers : ∀ x ∈ answered, asked = some ⟨x.ticket, x.handle⟩)
    (other : v.awaited? ≠ some o.ticket) : Follows asked answered later v := by
  cases v with
  | loading handle ticket =>
    refine ⟨follows.1, fun x answer => ?_⟩
    obtain rfl | here := List.mem_cons.1 (follows.2 x answer)
    · cases follows.1.symm.trans (answers x answer)
      exact absurd rfl other
    · exact here
  | _ => exact follows

theorem unselected_ofResult (handle : String) (result : Fetched) :
    (ofResult handle result).unselected = ofResult handle result := by
  unfold ofResult
  split <;> rfl

theorem awaited?_ofResult (handle : String) (result : Fetched) :
    (ofResult handle result).awaited? = none := by
  unfold ofResult
  split <;> rfl

theorem handle?_ofResult (handle : String) (result : Fetched) :
    (ofResult handle result).handle? = some handle := by
  unfold ofResult
  split <;> rfl

theorem follows_ofResult (answer : o ∈ answered) :
    Follows asked answered arrived (ofResult o.handle o.result) := by
  cases same : ofResult o.handle o.result with
  | empty => trivial
  | loading handle ticket =>
    have settled := awaited?_ofResult o.handle o.result
    rw [same] at settled
    cases settled
  | failed _ _ _ | shown _ => exact ⟨o, answer, same.symm⟩

theorem eq_loading_of_awaited? {ticket : Ticket} (h : v.awaited? = some ticket) :
    ∃ handle, v = .loading handle ticket := by
  cases v with
  | loading handle t =>
    cases h
    exact ⟨handle, rfl⟩
  | _ => cases h

end View

namespace App

variable {α : Type} [Scalar α]

-- One outcome is taken in.
def takeNext (a : App α) : App α :=
  match a.loader.arrived with
  | [] => a
  | o :: rest => { a with loader := { a.loader with arrived := rest } }.apply o

theorem apply_eq_self {a : App α} {o : Outcome} (h : a.view.awaited? ≠ some o.ticket) :
    a.apply o = a := by
  rw [apply, View.apply_of_ne h]

theorem view_apply {a : App α} {o : Outcome} (h : a.view.awaited? = some o.ticket) :
    (a.apply o).view = View.ofResult o.handle o.result := by
  simp [apply, View.apply, h]

theorem takeNext_of_nil {a : App α} (h : a.loader.arrived = []) : a.takeNext = a := by
  rw [takeNext, h]

theorem takeNext_of_cons {a : App α} {o : Outcome} {rest : List Outcome}
    (h : a.loader.arrived = o :: rest) :
    a.takeNext = { a with loader := { a.loader with arrived := rest } }.apply o := by
  rw [takeNext, h]

theorem loader_takeNext (a : App α) :
    a.takeNext.loader = { a.loader with arrived := a.loader.arrived.tail } := by
  cases arrived : a.loader.arrived with
  | nil => rw [takeNext_of_nil arrived, List.tail_nil, ← arrived]
  | cons o rest => rw [takeNext_of_cons arrived]; rfl

theorem view_takeNext {a : App α} {o : Outcome} {rest : List Outcome}
    (h : a.loader.arrived = o :: rest) : a.takeNext.view = (a.apply o).view := by
  rw [takeNext_of_cons h]
  rfl

theorem drain_of_nil {a : App α} (h : a.loader.arrived = []) : a.drain = a := by
  rw [drain, h, List.foldl_nil, ← h]

theorem drain_of_cons {a : App α} {o : Outcome} {rest : List Outcome}
    (h : a.loader.arrived = o :: rest) : a.drain = a.takeNext.drain := by
  simp only [drain, takeNext_of_cons h, h, List.foldl_cons]
  rfl

-- Of the outcomes that wait only the last one is awaited.
theorem view_drain_of_last {a : App α} {earlier : List Outcome} {o : Outcome}
    (arrived : a.loader.arrived = earlier ++ [o]) (awaited : a.view.awaited? = some o.ticket)
    (others : ∀ x ∈ earlier, x.ticket ≠ o.ticket) :
    a.drain.view = View.ofResult o.handle o.result := by
  induction earlier generalizing a with
  | nil =>
    have rest : a.takeNext.loader.arrived = [] := by rw [loader_takeNext, arrived]; rfl
    rw [drain_of_cons arrived, drain_of_nil rest, view_takeNext arrived, view_apply awaited]
  | cons x earlier ih =>
    rw [List.forall_mem_cons] at others
    have not_awaited : a.view.awaited? ≠ some x.ticket := by
      rw [awaited]
      exact fun same => others.1 (Option.some.inj same).symm
    have kept : a.takeNext.view = a.view := by
      rw [view_takeNext arrived, apply_eq_self not_awaited]
    rw [drain_of_cons arrived]
    refine ih ?_ (by rwa [kept]) others.2
    rw [loader_takeNext, arrived]
    rfl

theorem loader_drain (a : App α) : a.drain.loader = { a.loader with arrived := [] } := by
  have kept (outcomes : List Outcome) (b : App α) : (outcomes.foldl apply b).loader = b.loader := by
    induction outcomes generalizing b with
    | nil => rfl
    | cons o rest ih => exact ih (b.apply o)
  exact kept _ _

end App

/-- The application, its last request, and the answer to that once there is one. -/
structure Session (α : Type) where
  app : App α
  asked : Option Request := none
  answered : Option Outcome := none

namespace Session

inductive Event where
  | app (e : App.Event)
  | answer (result : Fetched)
  | late (o : Outcome)
  | takeNext
  | drain

section

variable {α : Type}

-- A new request takes the place of the last one and is not answered yet.
def advance (s : Session α) (a : App α) : Session α :=
  if a.loader.count = s.app.loader.count then { s with app := a }
  else ⟨a, a.loader.running, none⟩

-- The fetch that was not superseded ends.
def answer (s : Session α) (result : Fetched) : Session α :=
  match s.app.loader.running with
  | some r =>
    let o := ⟨r.ticket, r.handle, result⟩
    { s with app := s.app.deliver o, answered := some o }
  | none => s

-- A superseded fetch answers nevertheless, as often as it likes and with anything.
def late (s : Session α) (o : Outcome) : Session α :=
  if o.ticket < s.app.loader.count then { s with app := s.app.deliver o } else s

variable [Scalar α]

def next (s : Session α) : Event → Session α
  | .app e => s.advance (s.app.respond e)
  | .answer result => s.answer result
  | .late o => s.late o
  | .takeNext => { s with app := s.app.takeNext }
  | .drain => { s with app := s.app.drain }

def run (s : Session α) (events : List Event) : Session α :=
  events.foldl next s

end

structure Tracks {α : Type} (s : Session α) : Prop where
  latest : s.app.loader.latest? = s.asked.map (·.ticket)
  running : s.app.loader.running = if s.answered.isNone then s.asked else none
  answers : ∀ o ∈ s.answered, s.asked = some ⟨o.ticket, o.handle⟩
  issued : ∀ o ∈ s.app.loader.arrived, o.ticket ≤ s.app.loader.count
  arrived : ∀ o ∈ s.app.loader.arrived, o.ticket = s.app.loader.count → o ∈ s.answered
  view : s.app.view.unselected.Follows s.asked s.answered s.app.loader.arrived

section

variable {α : Type} {s : Session α} {a b : App α}

theorem Tracks.latest_of_asked (tracks : Tracks s) {r : Request} (h : s.asked = some r) :
    s.app.loader.latest? = some r.ticket := by
  rw [tracks.latest, h, Option.map_some]

theorem Tracks.count_eq (tracks : Tracks s) {r : Request} (h : s.asked = some r) :
    s.app.loader.count = r.ticket := by
  have latest := tracks.latest_of_asked h
  rw [Loader.latest?] at latest
  split at latest
  · cases latest
  · exact Option.some.inj latest

@[simp] theorem app_advance (s : Session α) (a : App α) : (s.advance a).app = a := by
  unfold advance
  split <;> rfl

theorem advance_of_loader (same : a.loader = s.app.loader) : s.advance a = { s with app := a } := by
  rw [advance, if_pos (by rw [same])]

theorem advance_of_request {handle : String} (h : a.loader = (s.app.loader.request handle).1) :
    s.advance a = ⟨a, some ⟨(s.app.loader.request handle).2, handle⟩, none⟩ := by
  rw [advance, if_neg, h, Loader.running_request]
  rw [h]
  exact Nat.succ_ne_self _

theorem Tracks.stay (tracks : Tracks s) (same : a.loader = s.app.loader)
    (view : a.view.unselected.Follows s.asked s.answered s.app.loader.arrived) :
    Tracks (s.advance a) := by
  rw [advance_of_loader same]
  obtain ⟨latest, running, answers, issued, arrived, -⟩ := tracks
  rw [← same] at latest running issued arrived view
  exact ⟨latest, running, answers, issued, arrived, view⟩

theorem Tracks.ask (tracks : Tracks s) {handle : String}
    (h : a.loader = (s.app.loader.request handle).1)
    (view : a.view = .loading handle (s.app.loader.request handle).2) : Tracks (s.advance a) := by
  rw [advance_of_request h]
  refine ⟨by rw [h]; rfl, by rw [h]; rfl, by simp, ?_, ?_, ?_⟩
  · intro o member
    rw [h] at member ⊢
    exact Nat.le_succ_of_le (tracks.issued o member)
  · -- What has arrived so far answers earlier requests.
    intro o member same
    rw [h] at member same
    exact absurd same (Nat.ne_of_lt (Nat.lt_succ_of_le (tracks.issued o member)))
  · rw [view]
    exact ⟨rfl, by simp⟩

theorem Tracks.move (tracks : Tracks s) (m : App.Move s.app a) : Tracks (s.advance a) := by
  cases m with
  | quiet same => exact tracks.stay same.loader (same.view ▸ tracks.view)
  | finds _ _ _ _ _ view loader => exact tracks.stay loader (view ▸ tracks.view)
  | closes _ view loader => exact tracks.stay loader (view ▸ trivial)
  | opens _ _ _ _ view loader => exact tracks.ask loader view
  | reopens _ _ _ _ view loader => exact tracks.ask loader view
  | trims _ _ view loader => exact tracks.stay loader (view ▸ tracks.view)

theorem loader_of_move (m : App.Move a b) :
    b.loader = a.loader ∨ a.loader.count < b.loader.count := by
  cases m with
  | quiet same => exact .inl same.loader
  | finds _ _ _ _ _ _ loader => exact .inl loader
  | closes _ _ loader => exact .inl loader
  | opens _ _ _ _ _ loader => exact .inr (loader ▸ Nat.lt_succ_self _)
  | reopens _ _ _ _ _ loader => exact .inr (loader ▸ Nat.lt_succ_self _)
  | trims _ _ _ loader => exact .inl loader

theorem count_le_of_moves (moves : App.Moves a b) : a.loader.count ≤ b.loader.count := by
  induction moves with
  | refl => exact Nat.le_refl _
  | tail _ m ih =>
    obtain same | less := loader_of_move m
    · rwa [same]
    · exact Nat.le_trans ih (Nat.le_of_lt less)

-- Of several requests of one event the last remains.
theorem advance_advance (moves : App.Moves s.app a) (m : App.Move a b) :
    (s.advance a).advance b = s.advance b := by
  have le := count_le_of_moves moves
  obtain same | less := loader_of_move m
  · rw [advance_of_loader (by rw [same, app_advance]), advance, advance, same]
    split <;> rfl
  · rw [advance, app_advance, if_neg (by omega), advance, if_neg (by omega)]

theorem Tracks.moves (tracks : Tracks s) (moves : App.Moves s.app a) : Tracks (s.advance a) := by
  induction moves with
  | refl => exact tracks.stay rfl tracks.view
  | tail before m ih =>
    rw [← advance_advance before m]
    exact ih.move (by rwa [app_advance])

theorem Tracks.of_running (tracks : Tracks s) {r : Request} (h : s.app.loader.running = some r) :
    s.answered = none ∧ s.asked = some r := by
  have expected := tracks.running
  rw [h] at expected
  split at expected
  · next unanswered => exact ⟨Option.isNone_iff_eq_none.1 unanswered, expected.symm⟩
  · cases expected

theorem Tracks.answer (tracks : Tracks s) (result : Fetched) : Tracks (s.answer result) := by
  unfold Session.answer
  cases running : s.app.loader.running with
  | none => exact tracks
  | some r =>
    obtain ⟨unanswered, asked⟩ := tracks.of_running running
    refine ⟨tracks.latest, ?_, ?_, ?_, ?_, ?_⟩
    · simp [App.deliver, Loader.deliver, running]
    · simp [asked]
    · intro o member
      obtain earlier | last := List.mem_append.1 member
      · exact tracks.issued o earlier
      · rw [List.mem_singleton.1 last]
        exact Nat.le_of_eq (tracks.count_eq asked).symm
    · intro o member same
      obtain earlier | last := List.mem_append.1 member
      · have := tracks.arrived o earlier same
        rw [unanswered] at this
        cases this
      · rw [List.mem_singleton.1 last]
        rfl
    · have follows := tracks.view
      rw [unanswered] at follows
      exact follows.answer _

theorem Tracks.late (tracks : Tracks s) (o : Outcome) : Tracks (s.late o) := by
  unfold Session.late
  split
  · next superseded =>
    refine ⟨tracks.latest, ?_, tracks.answers, ?_, ?_, ?_⟩
    · rw [← tracks.running]
      cases running : s.app.loader.running with
      | none => simp [App.deliver, Loader.deliver, running]
      | some r =>
        have other : r.ticket ≠ o.ticket :=
          tracks.count_eq (tracks.of_running running).2 ▸ (Nat.ne_of_lt superseded).symm
        simp [App.deliver, Loader.deliver, running, other]
    · intro x member
      obtain earlier | last := List.mem_append.1 member
      · exact tracks.issued x earlier
      · rw [List.mem_singleton.1 last]
        exact Nat.le_of_lt superseded
    · intro x member same
      obtain earlier | last := List.mem_append.1 member
      · exact tracks.arrived x earlier same
      · rw [List.mem_singleton.1 last] at same
        exact absurd same (Nat.ne_of_lt superseded)
    · exact tracks.view.mono fun x _ here => List.mem_append_left _ here
  · exact tracks

theorem running_answer (s : Session α) (result : Fetched) :
    (s.answer result).app.loader.running = none := by
  unfold Session.answer
  cases running : s.app.loader.running with
  | none => exact running
  | some r => simp [App.deliver, Loader.deliver, running]

-- The view waits for the last request only, so what it waits for is the answer to that.
theorem Tracks.mem_answered (tracks : Tracks s) {o : Outcome} (here : o ∈ s.app.loader.arrived)
    (awaited : s.app.view.awaited? = some o.ticket) : o ∈ s.answered := by
  obtain ⟨handle, loading⟩ := View.eq_loading_of_awaited? awaited
  have waits := tracks.view
  rw [loading] at waits
  exact tracks.arrived o here (tracks.count_eq waits.1).symm

theorem Tracks.running_or_arrived (tracks : Tracks s) {handle : String} {ticket : Ticket}
    (loading : s.app.view = .loading handle ticket) :
    s.asked = some ⟨ticket, handle⟩ ∧
      (s.app.loader.running = some ⟨ticket, handle⟩ ∨
        ∃ o ∈ s.app.loader.arrived,
          o.ticket = ticket ∧ o.handle = handle ∧ s.answered = some o) := by
  have waits := tracks.view
  rw [loading] at waits
  obtain ⟨asked, here⟩ := waits
  refine ⟨asked, ?_⟩
  cases answered : s.answered with
  | none =>
    have running := tracks.running
    rw [answered] at running
    exact .inl (running.trans asked)
  | some o =>
    have same := (tracks.answers o answered).symm.trans asked
    cases same
    exact .inr ⟨o, here o answered, rfl, rfl, rfl⟩

theorem Tracks.exists_answer (tracks : Tracks s) (other : s.app.view ≠ .empty)
    (settled : s.app.view.awaited? = none) :
    ∃ o, s.answered = some o ∧ s.app.view.unselected = View.ofResult o.handle o.result := by
  have follows := tracks.view
  cases view : s.app.view with
  | empty => exact absurd view other
  | loading handle ticket =>
    rw [view] at settled
    cases settled
  | failed _ _ _ | shown _ =>
    rw [view] at follows
    exact follows

theorem tracks_start (controller : Controller α) (preferences : Preferences) (sidebarWidth : Nat)
    (layoutId : String) (ratio : Float32) :
    Tracks ⟨App.start controller preferences sidebarWidth layoutId ratio, none, none⟩ :=
  ⟨rfl, rfl, by simp, by simp [App.start], by simp [App.start], trivial⟩

end

section

variable {α : Type} [Scalar α] {s : Session α}

theorem Tracks.takeNext (tracks : Tracks s) : Tracks { s with app := s.app.takeNext } := by
  cases arrived : s.app.loader.arrived with
  | nil => rwa [App.takeNext_of_nil arrived]
  | cons o rest =>
    have loader : s.app.takeNext.loader = { s.app.loader with arrived := rest } := by
      rw [App.loader_takeNext, arrived, List.tail_cons]
    have answer := tracks.mem_answered (arrived ▸ List.mem_cons_self : o ∈ s.app.loader.arrived)
    obtain ⟨latest, running, answers, issued, outcomes, follows⟩ := tracks
    rw [arrived] at issued outcomes follows
    rw [List.forall_mem_cons] at issued outcomes
    refine ⟨?_, ?_, answers, ?_, ?_, ?_⟩
    · rw [loader]
      exact latest
    · rw [loader]
      exact running
    · rw [loader]
      exact issued.2
    · rw [loader]
      exact outcomes.2
    · rw [loader, App.view_takeNext arrived]
      by_cases awaited : s.app.view.awaited? = some o.ticket
      · rw [App.view_apply awaited, View.unselected_ofResult]
        exact View.follows_ofResult (answer awaited)
      · rw [App.apply_eq_self awaited]
        exact follows.skip answers (by rwa [View.awaited?_unselected])

-- Draining takes in one outcome after the other.
theorem drain_of_step {P : Session α → Prop}
    (step : ∀ s : Session α, P s → P { s with app := s.app.takeNext }) (h : P s) :
    P { s with app := s.app.drain } := by
  generalize arrived : s.app.loader.arrived = outcomes
  induction outcomes generalizing s with
  | nil => rwa [App.drain_of_nil arrived]
  | cons o rest ih =>
    rw [App.drain_of_cons arrived]
    refine ih (step s h) ?_
    rw [App.loader_takeNext, arrived, List.tail_cons]

theorem Tracks.drain (tracks : Tracks s) : Tracks { s with app := s.app.drain } :=
  drain_of_step (fun _ => Tracks.takeNext) tracks

theorem Tracks.next (tracks : Tracks s) (e : Event) : Tracks (s.next e) := by
  cases e with
  | app e => exact tracks.moves (App.moves_respond s.app e)
  | answer result => exact tracks.answer result
  | late o => exact tracks.late o
  | takeNext => exact tracks.takeNext
  | drain => exact tracks.drain

theorem Tracks.run (tracks : Tracks s) (events : List Event) : Tracks (s.run events) := by
  induction events generalizing s with
  | nil => exact tracks
  | cons e rest ih => exact ih (tracks.next e)

-- Once the running fetch has answered and all answers are taken in, nothing is awaited.
theorem Tracks.awaited?_drain (tracks : Tracks s) (result : Fetched) :
    ((s.answer result).app.drain).view.awaited? = none := by
  have drained := (tracks.answer result).drain
  rw [Option.eq_none_iff_forall_ne_some]
  intro ticket awaited
  obtain ⟨handle, loading⟩ := View.eq_loading_of_awaited? awaited
  obtain ⟨-, running | ⟨o, here, -⟩⟩ := drained.running_or_arrived loading
  · rw [App.loader_drain] at running
    cases (running_answer s result).symm.trans running
  · rw [App.loader_drain] at here
    cases here

-- A chosen evaluation is requested, and what the fetch finds is shown.
theorem Tracks.choose (tracks : Tracks s) {index : Nat} {handle : String}
    (listed : s.app.evaluations[index]? = some handle) :
    let t := s.next (.app (.choose index))
    t.asked = some ⟨s.app.loader.count + 1, handle⟩ ∧
      t.app.view = .loading handle (s.app.loader.count + 1) ∧
      ∀ result, ((t.answer result).app.drain).view = View.ofResult handle result := by
  have chosen : s.app.respond (.choose index) = { s.app with marked := some index }.load handle := by
    simp only [App.respond, App.choose, listed]
  have requested : s.next (.app (.choose index)) =
      ⟨{ s.app with marked := some index }.load handle,
        some ⟨s.app.loader.count + 1, handle⟩, none⟩ := by
    rw [Session.next, chosen]
    exact advance_of_request rfl
  rw [requested]
  refine ⟨rfl, rfl, fun result => ?_⟩
  -- Whatever waits already answers earlier requests.
  have earlier : ∀ o ∈ s.app.loader.arrived, o.ticket ≠ s.app.loader.count + 1 :=
    fun o member => Nat.ne_of_lt (Nat.lt_succ_of_le (tracks.issued o member))
  exact App.view_drain_of_last (o := ⟨s.app.loader.count + 1, handle, result⟩) rfl rfl earlier

/-- A view that waits does so for the last request, whose fetch still runs or whose answer has arrived. A view that
shows or reports something has it from that answer, and other answers change nothing. -/
theorem view_follows_last_request (controller : Controller α) (preferences : Preferences)
    (sidebarWidth : Nat) (layoutId : String) (ratio : Float32) (events : List Event) :
    let s := run ⟨App.start controller preferences sidebarWidth layoutId ratio, none, none⟩ events
    (∀ handle ticket, s.app.view = .loading handle ticket →
      s.app.loader.latest? = some ticket ∧ s.asked = some ⟨ticket, handle⟩ ∧
        (s.app.loader.running = some ⟨ticket, handle⟩ ∨
          ∃ o ∈ s.app.loader.arrived,
            o.ticket = ticket ∧ o.handle = handle ∧ s.answered = some o)) ∧
      (∀ result, ((s.answer result).app.drain).view.awaited? = none) ∧
      (s.app.view ≠ .empty → s.app.view.awaited? = none →
        ∃ o, s.answered = some o ∧ s.asked = some ⟨o.ticket, o.handle⟩ ∧
          s.app.loader.latest? = some o.ticket ∧
          s.app.view.unselected = View.ofResult o.handle o.result) ∧
      (∀ o, s.app.view.awaited? ≠ some o.ticket ∨ s.app.loader.latest? ≠ some o.ticket →
        s.app.apply o = s.app) ∧
      ∀ index handle, s.app.evaluations[index]? = some handle →
        let t := s.next (.app (.choose index))
        t.asked = some ⟨s.app.loader.count + 1, handle⟩ ∧
          t.app.view = .loading handle (s.app.loader.count + 1) ∧
          ∀ result, ((t.answer result).app.drain).view = View.ofResult handle result := by
  intro s
  have tracks : Tracks s := (tracks_start controller preferences sidebarWidth layoutId ratio).run events
  refine ⟨fun handle ticket loading => ?_, tracks.awaited?_drain, fun other settled => ?_,
    fun o stale => App.apply_eq_self ?_, fun _ _ => tracks.choose⟩
  · obtain ⟨asked, fetched⟩ := tracks.running_or_arrived loading
    exact ⟨tracks.latest_of_asked asked, asked, fetched⟩
  · obtain ⟨o, answered, shows⟩ := tracks.exists_answer other settled
    have asked := tracks.answers o answered
    exact ⟨o, answered, asked, tracks.latest_of_asked asked, shows⟩
  · obtain not_awaited | not_latest := stale
    · exact not_awaited
    · intro awaited
      obtain ⟨handle, loading⟩ := View.eq_loading_of_awaited? awaited
      obtain ⟨asked, -⟩ := tracks.running_or_arrived loading
      exact not_latest (tracks.latest_of_asked asked)

end

end Session

end Waterfall
