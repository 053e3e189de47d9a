import Waterfall.Text.Blank
import Waterfall.Document.Basic

set_option autoImplicit false

namespace Waterfall

inductive Status where
  | ok
  | warning
  | error
  deriving DecidableEq, Inhabited

namespace Status

def rank : Status → Nat
  | .ok => 0
  | .warning => 1
  | .error => 2

def worst (a b : Status) : Status :=
  if a.rank ≤ b.rank then b else a

def worstOf (statuses : List Status) : Status :=
  statuses.foldl worst .ok

def name : Status → String
  | .ok => "ok"
  | .warning => "warning"
  | .error => "error"

def ofName? : String → Option Status
  | "ok" => some .ok
  | "warning" => some .warning
  | "error" => some .error
  | _ => none

@[simp] theorem rank_worst (a b : Status) : (worst a b).rank = max a.rank b.rank := by
  cases a <;> cases b <;> rfl

end Status

namespace Decision

def sameWord (a b : String) : Bool :=
  a.toList.map Char.toLower = b.toList.map Char.toLower

def classifyWord (word : String) : Status :=
  if ["block", "halt", "deny"].any (sameWord word) then .error
  else if sameWord word "ask" then .warning
  else .ok

def classify : Option String → Status
  | none => .ok
  | some decision => classifyWord (trim decision)

def keys : List String := ["type", "decision", "finalDecisionType", "final_decision_type"]

def words : List String := ["allow", "ask", "block", "halt", "deny", "modify"]

def tag? : List (String × Json) → Option String
  | [(key, _)] => if words.any (sameWord key) then some key else none
  | _ => none

mutual

def ofJson? : Json → Option String
  | .string s => some s
  | .object fields =>
    match keys.findSome? fun key => Json.lookup key (ofFields fields) with
    | some found => found
    | none => tag? fields
  | _ => none

def ofFields : List (String × Json) → List (String × Option String)
  | [] => []
  | (key, .string s) :: rest => (key, some s) :: ofFields rest
  | (key, .object fields) :: rest => (key, ofJson? (.object fields)) :: ofFields rest
  | _ :: rest => ofFields rest

end

end Decision

def Evaluation.decision? (e : Evaluation) : Option String :=
  match e.finalDecisionType with
  | some type => some type
  | none => e.finalDecision.bind Decision.ofJson?

def Evaluation.status (e : Evaluation) : Status :=
  Decision.classify e.decision?

end Waterfall
