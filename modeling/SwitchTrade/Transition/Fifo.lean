import Mathlib.Logic.Relation
import Mathlib.Data.List.Basic

/-!
# First in, first out

What entered a queue, what waits in it and what left it. A queue is faithful when the three
lists agree: nothing was reordered, doubled or skipped. `Moves` are the ways such a queue may
change; an element may go past the queue only while nothing waits in it.
-/

namespace Transition

variable {α : Type*}

structure Fifo (α : Type*) where
  entered : List α
  waiting : List α
  left : List α

namespace Fifo

/-- What entered is what left, and behind it what waits. -/
def Faithful (f : Fifo α) : Prop := f.entered = f.left ++ f.waiting

inductive Move : Fifo α → Fifo α → Prop
  | enter (f : Fifo α) (x : α) :
      Move f { f with entered := f.entered ++ [x], waiting := f.waiting ++ [x] }
  | leave {f : Fifo α} {x : α} {rest : List α} (head : f.waiting = x :: rest) :
      Move f { f with waiting := rest, left := f.left ++ [x] }
  | pass {f : Fifo α} (x : α) (empty : f.waiting = []) :
      Move f { f with entered := f.entered ++ [x], left := f.left ++ [x] }

def Moves : Fifo α → Fifo α → Prop := Relation.ReflTransGen Move

variable {f g h : Fifo α}

theorem Moves.refl (f : Fifo α) : Moves f f := Relation.ReflTransGen.refl

theorem Moves.trans (hfg : Moves f g) (hgh : Moves g h) : Moves f h :=
  Relation.ReflTransGen.trans hfg hgh

theorem Move.moves (hfg : Move f g) : Moves f g := Relation.ReflTransGen.single hfg

theorem Move.faithful (hfg : Move f g) (hf : f.Faithful) : g.Faithful := by
  cases hfg with
  | enter x =>
    show f.entered ++ [x] = f.left ++ (f.waiting ++ [x])
    rw [hf, List.append_assoc]
  | leave head =>
    rename_i x rest
    show f.entered = f.left ++ [x] ++ rest
    rw [hf, head, List.append_assoc, List.singleton_append]
  | pass x empty =>
    show f.entered ++ [x] = f.left ++ [x] ++ f.waiting
    rw [hf, empty, List.append_nil, List.append_nil]

theorem Moves.faithful (hfg : Moves f g) (hf : f.Faithful) : g.Faithful := by
  induction hfg with
  | refl => exact hf
  | tail _ hlast ih => exact hlast.faithful ih

/-- What left a faithful queue is a beginning of what entered it. -/
theorem Faithful.left_prefix (hf : f.Faithful) : f.left <+: f.entered := by
  rw [hf]
  exact List.prefix_append _ _

end Fifo

end Transition
