import Waterfall.Document.Basic
import Waterfall.Text.Blank

set_option autoImplicit false

namespace Waterfall

abbrev Ids := List String

namespace Ids

def numbered (base : String) (n : Nat) : String :=
  base ++ "#" ++ toString n

-- The id itself, or with the least number from two on that makes it new. One of the first
-- `ids.length + 1` numbers does.
def fresh (ids : Ids) (base : String) : String :=
  if base ∈ ids then
    let candidates := (List.range (ids.length + 1)).map fun k => numbered base (k + 2)
    (candidates.find? (· ∉ ids)).getD base
  else base

def preferred (recorded : Option String) (fallback : String) : String :=
  match recorded.map trim with
  | some id => if id = "" then fallback else id
  | none => fallback

def claim (ids : Ids) (recorded : Option String) (fallback : String) : String × Ids :=
  let id := ids.fresh (preferred recorded fallback)
  (id, id :: ids)

def claimEach (block : String) : Nat → Nat → Ids → List String × Ids
  | 0, _, ids => ([], ids)
  | count + 1, index, ids =>
    let first := ids.claim none (block ++ ":signal:" ++ toString index)
    let rest := claimEach block count (index + 1) first.2
    (first.1 :: rest.1, rest.2)

end Ids

structure PhaseIds where
  phase : String
  signals : Option (String × List String)
  evaluation : Option String

namespace PhaseIds

def claimSignals (phase : String) (ids : Ids) : Option SignalBlock → Option (String × List String) × Ids
  | none => (none, ids)
  | some block =>
    let own := ids.claim block.spanId (phase ++ ":signals")
    let each := Ids.claimEach own.1 block.signals.length 0 own.2
    (some (own.1, each.1), each.2)

def claimEvaluation (phase : String) (ids : Ids) : Option Evaluation → Option String × Ids
  | none => (none, ids)
  | some _ =>
    let own := ids.claim none (phase ++ ":evaluation")
    (some own.1, own.2)

def claim (root : String) (index : Nat) (p : Phase) (ids : Ids) : PhaseIds × Ids :=
  let own := ids.claim p.spanId (root ++ ":phase:" ++ toString index)
  let signals := claimSignals own.1 own.2 p.signals
  let evaluation := claimEvaluation own.1 signals.2 p.evaluation
  (⟨own.1, signals.1, evaluation.1⟩, evaluation.2)

def claimAll (root : String) : Nat → List Phase → Ids → List PhaseIds
  | _, [], _ => []
  | index, p :: rest, ids =>
    let own := claim root index p ids
    own.1 :: claimAll root (index + 1) rest own.2

end PhaseIds

structure DocumentIds where
  root : String
  enrich : Option String
  phases : List PhaseIds

def DocumentIds.rootFallback (d : Document) : String :=
  match d.traceId with
  | some id => if id = "" then "root" else id ++ ":root"
  | none => "root"

def DocumentIds.claimEnrich (root : String) (ids : Ids) : Option Enrichment → Option String × Ids
  | none => (none, ids)
  | some e =>
    let own := ids.claim e.spanId (root ++ ":enrich")
    (some own.1, own.2)

-- Ids are claimed in the order in which the spans are listed.
def DocumentIds.ofDocument (d : Document) : DocumentIds :=
  let root := Ids.claim [] d.spanId (rootFallback d)
  let enrich := claimEnrich root.1 root.2 d.enrich
  ⟨root.1, enrich.1, PhaseIds.claimAll root.1 0 d.phases enrich.2⟩

end Waterfall
