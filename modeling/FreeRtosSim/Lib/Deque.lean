import Mathlib.Data.List.Basic

/-!
# A bounded double-ended queue

What can happen to a queue of at most `cap` items: one is added at either end
while there is room, a queue for one item has it replaced, the front one is
removed or looked at. A history is the events of a run in their order. As
long as items are only added at the back, what was taken out and what is still
there is exactly what was put in, in the same order.
-/

namespace FreeRtosSim

inductive DequeEvent (α : Type*) where
  | pushBack (x : α)
  | pushFront (x : α)
  | replace (x : α)
  | popFront (x : α)
  | front (x : α)

/-- One event, and the items before and after it. -/
inductive DequeStep {α : Type*} (cap : Nat) :
    List α → DequeEvent α → List α → Prop
  | pushBack {xs : List α} {x : α} : xs.length < cap →
      DequeStep cap xs (.pushBack x) (xs ++ [x])
  | pushFront {xs : List α} {x : α} : xs.length < cap →
      DequeStep cap xs (.pushFront x) (x :: xs)
  | replace {xs : List α} {x : α} : cap = 1 → DequeStep cap xs (.replace x) [x]
  | popFront {xs : List α} {x : α} : DequeStep cap (x :: xs) (.popFront x) xs
  | front {xs : List α} {x : α} : DequeStep cap (x :: xs) (.front x) (x :: xs)

/-- A history that leads from no items to `xs`. -/
inductive DequeHistory {α : Type*} (cap : Nat) :
    List (DequeEvent α) → List α → Prop
  | nil : DequeHistory cap [] []
  | snoc {es : List (DequeEvent α)} {e : DequeEvent α} {xs ys : List α} :
      DequeHistory cap es xs → DequeStep cap xs e ys →
      DequeHistory cap (es ++ [e]) ys

namespace DequeEvent

variable {α : Type*}

/-- The item an event puts in. -/
def pushed : DequeEvent α → Option α
  | .pushBack x | .pushFront x | .replace x => some x
  | .popFront _ | .front _ => none

/-- The item an event takes out. -/
def popped : DequeEvent α → Option α
  | .popFront x => some x
  | _ => none

/-- The event is not one that puts an item anywhere but at the back. -/
def AtBack : DequeEvent α → Prop
  | .pushFront _ | .replace _ => False
  | _ => True

end DequeEvent

variable {α : Type*} {cap : Nat} {es : List (DequeEvent α)} {xs : List α}

theorem DequeStep.length_le {e : DequeEvent α} {ys : List α}
    (h : DequeStep cap xs e ys) (hle : xs.length ≤ cap) : ys.length ≤ cap := by
  cases h with
  | pushBack hlt =>
      rw [List.length_append, List.length_singleton]
      exact hlt
  | pushFront hlt => exact hlt
  | replace hone =>
      rw [hone]
      exact Nat.le_refl 1
  | popFront => exact Nat.le_of_succ_le hle
  | front => exact hle

theorem DequeHistory.length_le (h : DequeHistory cap es xs) :
    xs.length ≤ cap := by
  induction h with
  | nil => exact Nat.zero_le _
  | snoc _ hstep ih => exact hstep.length_le ih

/-- First in, first out. -/
theorem DequeHistory.fifo (h : DequeHistory cap es xs)
    (hback : ∀ e ∈ es, e.AtBack) :
    es.filterMap DequeEvent.pushed = es.filterMap DequeEvent.popped ++ xs := by
  induction h with
  | nil => rfl
  | @snoc es e xs ys _ hstep ih =>
      have ih := ih fun e he => hback e (List.mem_append_left _ he)
      have he := hback e (List.mem_append_right _ (List.mem_singleton_self e))
      rw [List.filterMap_append, List.filterMap_append, ih]
      cases hstep with
      | pushBack hlt => simp [DequeEvent.pushed, DequeEvent.popped]
      | pushFront hlt => exact he.elim
      | replace hone => exact he.elim
      | popFront => simp [DequeEvent.pushed, DequeEvent.popped]
      | front =>
          show _ ++ [] = (_ ++ []) ++ _
          rw [List.append_nil, List.append_nil]

end FreeRtosSim
