import AgentMsg.Responses
import Mathlib.Data.List.Perm.Subperm

/-!
# Browsing both directions

`browse --all` is served by the transcript, whose recipient filter is exact and whose limit
takes the oldest rows.  So it shows the most recent rows that plain `browse` would choose
from both directions only when the limit is not reached and no broadcast is missed.
-/

namespace AgentMsg

/-! ## The last elements of a sorted list -/

section Recent

variable {α : Type} {key : α → Int} {all some : List α}

end Recent

/-! ## The command -/

namespace Store

/-- The rows of both directions that the filters of plain `browse` choose. -/
def chosen (store : Store) (fromFilter toFilter : Option String) : List (Int × MsgRow) :=
  store.messages.rows.filter fun row =>
    admits fromFilter row.2.sender && (admits toFilter row.2.recipient || row.2.recipient == "*")

/-- Those that the filters of the transcript choose. -/
def logged (store : Store) (fromFilter toFilter : Option String) : List (Int × MsgRow) :=
  store.messages.rows.filter fun row =>
    admits fromFilter row.2.sender && admits toFilter row.2.recipient

end Store

section Command

variable {P : Platform} {identity : Identity} {draw : Draw} {nowSeq : Int} {inputs : Nat → Input}
  (succeeds : ∀ index, (inputs index).Succeeds) (world : World) (limit : Int)
  (fromFilter toFilter : Option String) (mine : Bool)

include succeeds

end Command

/-! ## When all is more -/

namespace Store

variable (store : Store) (fromFilter toFilter : Option String)

end Store

end AgentMsg
