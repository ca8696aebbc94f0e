/-!
# Order by priority

Items run in descending order of their priorities, and items of equal priority in the order in which
they came.  Both zeros are the same priority.
-/

namespace Gateware

/-- Puts an item in front of all items that have at most its priority. -/
def insertByPriority {α : Type} (priority : α → Float) (item : α) : List α → List α
  | [] => [item]
  | other :: rest =>
    if priority item < priority other then other :: insertByPriority priority item rest
    else item :: other :: rest

/-- The items in descending order of priority; equal ones stay in order. -/
def orderByPriority {α : Type} (priority : α → Float) : List α → List α
  | [] => []
  | item :: rest => insertByPriority priority item (orderByPriority priority rest)

end Gateware
