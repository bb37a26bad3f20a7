import Mathlib.Data.List.Basic

/-!
# The history of a lock

A lock has an owner or none. It is taken when it has none and given back by
its owner; `LockHistory` are the histories in which nothing else happens, the
newest event first, with the owner they lead to. In such a history nobody takes
the lock before the one who took it last has given it back.
-/

namespace FreeRtosSim

variable {α : Type}

inductive LockEvent (α : Type) where
  | take (x : α)
  | give (x : α)
deriving DecidableEq, Repr

inductive LockHistory : List (LockEvent α) → Option α → Prop
  | nil : LockHistory [] none
  | take {es : List (LockEvent α)} {x : α} :
      LockHistory es none → LockHistory (.take x :: es) (some x)
  | give {es : List (LockEvent α)} {x : α} :
      LockHistory es (some x) → LockHistory (.give x :: es) none

namespace LockHistory

variable {o : Option α} {es : List (LockEvent α)} {x y : α}

/-- What has happened since does not matter. -/
theorem tail {new : List (LockEvent α)} (h : LockHistory (new ++ es) o) :
    ∃ o, LockHistory es o := by
  induction new generalizing o with
  | nil => exact ⟨o, h⟩
  | cons e new ih =>
      cases h with
      | take h => exact ih h
      | give h => exact ih h

/-- Who took the lock last has it until he gives it back. -/
theorem owner {new : List (LockEvent α)}
    (h : LockHistory (new ++ .take x :: es) o) :
    o = some x ∨ .give x ∈ new := by
  induction new generalizing o with
  | nil =>
      cases h with
      | take h => exact Or.inl rfl
  | cons e new ih =>
      cases h with
      | take h =>
          exact Or.inr (List.mem_cons_of_mem _ ((ih h).resolve_left (by simp)))
      | @give _ z h =>
          rcases ih h with hz | hmem
          · exact Or.inr (Option.some.inj hz ▸ List.mem_cons_self ..)
          · exact Or.inr (List.mem_cons_of_mem _ hmem)

/-- Between two takes the first taker gives the lock back. -/
theorem exclusive {new between : List (LockEvent α)}
    (h : LockHistory (new ++ .take y :: (between ++ .take x :: es)) o) :
    .give x ∈ between := by
  obtain ⟨o', h'⟩ := h.tail
  cases h' with
  | take h' => exact h'.owner.resolve_left (by simp)

end LockHistory

end FreeRtosSim
