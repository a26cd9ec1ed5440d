import SoundScenes.Json.Tagged
import SoundScenes.Json.Writer

/-!
# Terminations

How a search ends: by itself, at the cap on scenes, or at a budget. What it has found until then is
kept in every case.
-/

namespace SoundScenes

/-- How a search ended. -/
inductive Termination where
  /-- Every place of the tree has been tried. -/
  | treeExhausted
  /-- The cap on scenes was reached. -/
  | sceneCap (scenes : Nat)
  /-- The budget of steps was spent. -/
  | stepBudget (steps : Nat)
  /-- The budget of time was spent. -/
  | timeBudget (milliseconds : Nat)
  deriving DecidableEq, Repr

namespace Termination

/-- Whether the search was cut off by a budget. -/
def byBudget : Termination → Bool
  | stepBudget _ | timeBudget _ => true
  | treeExhausted | sceneCap _ => false

/-- A termination in words. -/
def phrase : Termination → String
  | treeExhausted => "search tree exhausted"
  | sceneCap n => "scene cap of " ++ toString n ++ " reached"
  | stepBudget n => "step budget of " ++ toString n ++ " exceeded"
  | timeBudget n => "time budget of " ++ toString n ++ "ms exceeded"

/-- The document of a termination. -/
def toJson : Termination → Json
  | treeExhausted => .object [("reason", .string "tree_exhausted")]
  | sceneCap n => .object [("reason", .string "scene_cap_reached"), ("max_scenes", .nat n)]
  | stepBudget n => .object [("reason", .string "step_budget_exceeded"), ("step_budget", .nat n)]
  | timeBudget n =>
    .object [("reason", .string "time_budget_exceeded"), ("time_budget_ms", .nat n)]

/-- How a termination is read. -/
def layout : Tagged Termination where
  name := "Termination"
  tag := "reason"
  cases := [
    ("tree_exhausted", .bare treeExhausted),
    ("scene_cap_reached", .holding "SceneCapReached" "max_scenes" fun room d =>
      (Reader.size room d).map sceneCap),
    ("step_budget_exceeded", .holding "StepBudgetExceeded" "step_budget" fun room d =>
      (Reader.word64 room d).map stepBudget),
    ("time_budget_exceeded", .holding "TimeBudgetExceeded" "time_budget_ms" fun room d =>
      (Reader.word64 room d).map timeBudget)]

end Termination

end SoundScenes
