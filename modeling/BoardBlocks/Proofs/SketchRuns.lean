/-
# Sketches under any changes

A sketch is put together by fragments and statements, in any order and number.  The body of a stage
then holds the statements that were pushed to it, in order and without the blank ones, whatever was
contributed in between.
-/

import BoardBlocks.Proofs.SketchViews

namespace BoardBlocks
namespace Sketch

/-- What can be done to a sketch. -/
inductive Change where
  | contribute (x : Section) (key fragment : String)
  | push (stage : Stage) (code : String)
deriving DecidableEq, Repr

/-- The sketch after a change. -/
def change (s : Sketch) : Change → Sketch
  | .contribute x key fragment => s.contribute x key fragment
  | .push stage code => s.push stage code

/-- The sketch after changes in order. -/
def changeAll (s : Sketch) (changes : List Change) : Sketch :=
  changes.foldl change s

/-- The code that a change pushes to a stage. -/
def Change.code? (stage : Stage) : Change → Option String
  | .push other code => if other = stage then some code else none
  | .contribute .. => none

/-- The codes that changes push to a stage, in order. -/
def codesFor (stage : Stage) (changes : List Change) : List String :=
  changes.filterMap (Change.code? stage)

theorem target_change (s : Sketch) (change : Change) : (s.change change).target = s.target := by
  cases change with
  | contribute x key fragment => exact target_contribute s x key fragment
  | push stage code => exact target_push s stage code

@[simp] theorem target_changeAll (s : Sketch) (changes : List Change) :
    (s.changeAll changes).target = s.target := by
  induction changes generalizing s with
  | nil => rfl
  | cons c changes ih => exact (ih _).trans (target_change s c)

/-- A change adds its statement, if it has one for the stage, at the end. -/
theorem body_change (s : Sketch) (change : Change) (stage : Stage) :
    (s.change change).body stage =
      s.body stage ++ Snippet.statements s.target (change.code? stage).toList := by
  cases change with
  | contribute x key fragment =>
    rw [Sketch.change, body_contribute]
    exact (List.append_nil _).symm
  | push other code =>
    rw [Sketch.change, body_push, Change.code?]
    split <;> rfl

/-- **The body of a stage holds what was pushed to it.** -/
theorem body_changeAll (s : Sketch) (changes : List Change) (stage : Stage) :
    (s.changeAll changes).body stage =
      s.body stage ++ Snippet.statements s.target (codesFor stage changes) := by
  induction changes generalizing s with
  | nil => exact (List.append_nil _).symm
  | cons c changes ih =>
    have hcodes : codesFor stage (c :: changes) = (c.code? stage).toList ++ codesFor stage changes := by
      rw [codesFor, List.filterMap_cons]
      cases c.code? stage <;> rfl
    rw [changeAll, List.foldl_cons, ← changeAll, ih, body_change, target_change, hcodes,
      List.append_assoc]
    simp only [Snippet.statements, List.map_append, List.filter_append]

end Sketch
end BoardBlocks
