import Mathlib
import Waterfall.Proofs.FirstFree

set_option autoImplicit false

namespace Waterfall

namespace Ids

theorem fresh_notMem (ids : Ids) (base : String) : ids.fresh base ∉ ids :=
  (firstFree_fresh ids base).notMem

def Claimed (ids : Ids) (new : List String) (after : Ids) : Prop :=
  after = new.reverse ++ ids ∧ (ids.Nodup → after.Nodup)

theorem Claimed.nil (ids : Ids) : Claimed ids [] ids :=
  ⟨rfl, id⟩

theorem Claimed.append {ids mid after : Ids} {new later : List String}
    (first : Claimed ids new mid) (second : Claimed mid later after) :
    Claimed ids (new ++ later) after := by
  obtain ⟨rfl, keeps⟩ := first
  obtain ⟨rfl, keeps_later⟩ := second
  exact ⟨by simp, fun nodup => keeps_later (keeps nodup)⟩

theorem claimed_claim (ids : Ids) (recorded : Option String) (fallback : String) :
    Claimed ids [(ids.claim recorded fallback).1] (ids.claim recorded fallback).2 :=
  ⟨rfl, fun nodup => List.nodup_cons.2 ⟨fresh_notMem _ _, nodup⟩⟩

theorem claimed_claimEach (block : String) (count index : Nat) (ids : Ids) :
    Claimed ids (claimEach block count index ids).1 (claimEach block count index ids).2 := by
  induction count generalizing index ids with
  | zero => exact .nil ids
  | succ count ih => exact (claimed_claim ids none _).append (ih (index + 1) _)

theorem length_claimEach (block : String) (count index : Nat) (ids : Ids) :
    (claimEach block count index ids).1.length = count := by
  induction count generalizing index ids with
  | zero => rfl
  | succ count ih => simp [claimEach, ih]

end Ids

namespace PhaseIds

-- In the order in which the spans are listed.
def all (ids : PhaseIds) : List String :=
  ids.phase :: ((ids.signals.elim [] fun own => own.1 :: own.2) ++ ids.evaluation.toList)

structure Fits (ids : PhaseIds) (p : Phase) : Prop where
  signals : Option.Rel (fun own b => own.2.length = b.signals.length) ids.signals p.signals
  evaluation : ids.evaluation.isSome = p.evaluation.isSome

theorem claimed_claimSignals (phase : String) (ids : Ids) (block : Option SignalBlock) :
    Ids.Claimed ids ((claimSignals phase ids block).1.elim [] fun own => own.1 :: own.2)
      (claimSignals phase ids block).2 := by
  cases block with
  | none => exact .nil ids
  | some block => exact (Ids.claimed_claim ids _ _).append (Ids.claimed_claimEach _ _ _ _)

theorem claimed_claimEvaluation (phase : String) (ids : Ids) (evaluation : Option Evaluation) :
    Ids.Claimed ids (claimEvaluation phase ids evaluation).1.toList
      (claimEvaluation phase ids evaluation).2 := by
  cases evaluation with
  | none => exact .nil ids
  | some evaluation => exact Ids.claimed_claim ids _ _

theorem claimed_claim (root : String) (index : Nat) (p : Phase) (ids : Ids) :
    Ids.Claimed ids (claim root index p ids).1.all (claim root index p ids).2 :=
  (Ids.claimed_claim ids _ _).append
    ((claimed_claimSignals _ _ p.signals).append (claimed_claimEvaluation _ _ p.evaluation))

theorem claimed_claimAll (root : String) (index : Nat) (phases : List Phase) (ids : Ids) :
    ∃ after, Ids.Claimed ids ((claimAll root index phases ids).flatMap all) after := by
  induction phases generalizing index ids with
  | nil => exact ⟨ids, .nil ids⟩
  | cons p rest ih =>
    obtain ⟨after, claimed⟩ := ih (index + 1) (claim root index p ids).2
    exact ⟨after, (claimed_claim root index p ids).append claimed⟩

-- Phases that claim alike one by one claim alike together.
theorem claimAll_map {f : Phase → Phase}
    (alike : ∀ root index p ids, claim root index (f p) ids = claim root index p ids)
    (root : String) (index : Nat) (phases : List Phase) (ids : Ids) :
    claimAll root index (phases.map f) ids = claimAll root index phases ids := by
  induction phases generalizing index ids with
  | nil => rfl
  | cons p rest ih => rw [List.map_cons, claimAll, claimAll, alike, ih]

theorem fits_claim (root : String) (index : Nat) (p : Phase) (ids : Ids) :
    (claim root index p ids).1.Fits p := by
  constructor
  · cases block : p.signals with
    | none => simp [claim, claimSignals, block]
    | some block => simp [claim, claimSignals, block, Ids.length_claimEach]
  · cases evaluation : p.evaluation <;> simp [claim, claimEvaluation, evaluation]

theorem fits_claimAll (root : String) (index : Nat) (phases : List Phase) (ids : Ids) :
    List.Forall₂ Fits (claimAll root index phases ids) phases := by
  induction phases generalizing index ids with
  | nil => exact .nil
  | cons p rest ih => exact .cons (fits_claim root index p ids) (ih (index + 1) _)

end PhaseIds

namespace DocumentIds

def all (ids : DocumentIds) : List String :=
  ids.root :: (ids.enrich.toList ++ ids.phases.flatMap PhaseIds.all)

theorem claimed_claimEnrich (root : String) (ids : Ids) (e : Option Enrichment) :
    Ids.Claimed ids (claimEnrich root ids e).1.toList (claimEnrich root ids e).2 := by
  cases e with
  | none => exact .nil ids
  | some e => exact Ids.claimed_claim ids _ _

theorem isSome_enrich (d : Document) : (ofDocument d).enrich.isSome = d.enrich.isSome := by
  cases e : d.enrich <;> simp [ofDocument, claimEnrich, e]

theorem fits_phases (d : Document) : List.Forall₂ PhaseIds.Fits (ofDocument d).phases d.phases :=
  PhaseIds.fits_claimAll _ _ _ _

theorem all_nodup (d : Document) : (ofDocument d).all.Nodup := by
  obtain ⟨after, claimed⟩ := PhaseIds.claimed_claimAll (ofDocument d).root 0 d.phases
    (claimEnrich (ofDocument d).root (Ids.claim [] d.spanId (rootFallback d)).2 d.enrich).2
  have everything : Ids.Claimed [] (ofDocument d).all after :=
    (Ids.claimed_claim [] _ _).append ((claimed_claimEnrich _ _ d.enrich).append claimed)
  have nodup := everything.2 List.nodup_nil
  rwa [everything.1, List.append_nil, List.nodup_reverse] at nodup

end DocumentIds

end Waterfall
