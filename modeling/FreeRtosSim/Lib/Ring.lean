import Mathlib.Data.List.Range
import Mathlib.Data.Nat.ModEq
import Mathlib.Logic.Function.Basic

/-!
# A circular buffer

A buffer of `n` cells used in a circle. `window buf n r k` is what a reader
sees who starts at position `r` and takes `k` cells; `copy` writes a piece
that does not pass the end, `put` one that may. Writing behind the window
extends it, taking from the front moves it, and nothing that stays out of the
window changes it: the window is a queue.
-/

namespace FreeRtosSim

variable {α : Type*} {buf : Nat → α} {n r k m : Nat} {xs : List α}

/-- The `k` cells from position `r` on. -/
def window (buf : Nat → α) (n r k : Nat) : List α :=
  (List.range k).map fun i => buf ((r + i) % n)

/-- `xs` written from cell `w` on, without passing the end. -/
def copy (buf : Nat → α) (w : Nat) (xs : List α) : Nat → α := fun a =>
  if w ≤ a then (xs[a - w]?).getD (buf a) else buf a

/-- `xs` written from position `w` on, round the circle. -/
def put (buf : Nat → α) (n w : Nat) : List α → Nat → α
  | [] => buf
  | x :: xs => put (Function.update buf (w % n) x) n (w + 1) xs

@[simp] theorem window_zero : window buf n r 0 = [] := rfl

@[simp] theorem length_window : (window buf n r k).length = k := by
  simp [window]

theorem window_mod (buf : Nat → α) (n r k : Nat) :
    window buf n (r % n) k = window buf n r k := by
  simp only [window, Nat.mod_add_mod]

/-- One more cell at the back. -/
theorem window_snoc (buf : Nat → α) (n r k : Nat) :
    window buf n r (k + 1) = window buf n r k ++ [buf ((r + k) % n)] := by
  simp only [window, List.range_succ, List.map_append, List.map_cons,
    List.map_nil]

theorem window_append (buf : Nat → α) (n r k m : Nat) :
    window buf n r (k + m) = window buf n r k ++ window buf n (r + k) m := by
  induction m with
  | zero => simp
  | succ m ih =>
      rw [← Nat.add_assoc, window_snoc, ih, window_snoc, List.append_assoc,
        Nat.add_assoc]

/-- The first cell apart. -/
theorem window_cons (buf : Nat → α) (n r k : Nat) :
    window buf n r (k + 1) = buf (r % n) :: window buf n (r + 1) k := by
  rw [Nat.add_comm k 1, window_append, window_snoc]
  rfl

theorem take_window (h : m ≤ k) :
    (window buf n r k).take m = window buf n r m := by
  obtain ⟨d, rfl⟩ := Nat.exists_eq_add_of_le h
  rw [window_append, List.take_left' length_window]

theorem drop_window (h : m ≤ k) :
    (window buf n r k).drop m = window buf n (r + m) (k - m) := by
  obtain ⟨d, rfl⟩ := Nat.exists_eq_add_of_le h
  rw [window_append, List.drop_left' length_window, Nat.add_sub_cancel_left]

/-- The next position, with the test for the end. -/
theorem succ_mod_eq {a : Nat} (hn : 0 < n) :
    (if a % n + 1 ≥ n then 0 else a % n + 1) = (a + 1) % n := by
  have hlt := Nat.mod_lt a hn
  rw [← Nat.mod_add_mod]
  split
  · rw [show a % n + 1 = n by omega, Nat.mod_self]
  · rw [Nat.mod_eq_of_lt (show a % n + 1 < n by omega)]

/-- The position before, with the test for the start. -/
theorem pred_mod_eq (hr : r < n) :
    ((if (r : Int) - 1 < 0 then n - 1 else r - 1) + 1) % n = r := by
  split
  · rw [show n - 1 + 1 = n by omega, Nat.mod_self]
    omega
  · rw [show r - 1 + 1 = r by omega, Nat.mod_eq_of_lt hr]

/-- A position some cells on, with the test for the end. -/
theorem add_mod_eq (hr : r < n) (hk : k ≤ n) :
    (if r + k ≥ n then r + k - n else r + k) = (r + k) % n := by
  split
  · rw [Nat.mod_eq_sub_mod (by omega), Nat.mod_eq_of_lt (by omega)]
  · exact (Nat.mod_eq_of_lt (by omega)).symm

/-- How far it is from `r` to the position `k` cells on. -/
theorem sub_mod_eq (hr : r < n) (hk : k < n) :
    let d := n + (r + k) % n - r
    (if d ≥ n then d - n else d) = k := by
  intro d
  have hd : d = if r + k < n then n + k else k := by
    have hcell := add_mod_eq hr (Nat.le_of_lt hk)
    split at hcell <;> split <;> omega
  rw [hd]
  split <;> split <;> omega

/-- A piece of the buffer that does not pass the end. -/
def piece (buf : Nat → α) (r k : Nat) : List α :=
  (List.range k).map fun i => buf (r + i)

@[simp] theorem length_piece : (piece buf r k).length = k := by simp [piece]

theorem window_eq_piece (h : r + k ≤ n) : window buf n r k = piece buf r k := by
  refine List.map_congr_left fun i hi => ?_
  have hlt := List.mem_range.mp hi
  rw [Nat.mod_eq_of_lt (by omega)]

/-- A window that passes the end is two pieces. -/
theorem window_eq_pieces (hr : r < n) (h : n < r + k) (hk : k ≤ n) :
    window buf n r k = piece buf r (n - r) ++ piece buf 0 (k - (n - r)) := by
  have hsplit := window_append buf n r (n - r) (k - (n - r))
  have hend : window buf n r (n - r) = piece buf r (n - r) :=
    window_eq_piece (by omega)
  have hstart : window buf n n (k - (n - r)) = piece buf 0 (k - (n - r)) := by
    rw [← window_mod, Nat.mod_self]
    exact window_eq_piece (by omega)
  rw [Nat.add_sub_cancel' (show n - r ≤ k by omega),
    Nat.add_sub_cancel' (Nat.le_of_lt hr), hend, hstart] at hsplit
  exact hsplit

/-! ## Writing -/

/-- Positions less than `n` apart are different cells. -/
theorem cell_ne {a b : Nat} (hlt : a < b) (hle : b < a + n) :
    a % n ≠ b % n := by
  intro heq
  have hdvd : n ∣ b - a := (Nat.modEq_iff_dvd' (Nat.le_of_lt hlt)).mp heq
  have := Nat.le_of_dvd (by omega) hdvd
  omega

theorem window_congr {buf' : Nat → α}
    (h : ∀ i < k, buf ((r + i) % n) = buf' ((r + i) % n)) :
    window buf n r k = window buf' n r k :=
  List.map_congr_left fun i hi => h i (List.mem_range.mp hi)

/-- A cell outside the window. -/
theorem window_update_of_lt {w : Nat} (x : α) (hw : r + k ≤ w)
    (hn : w < r + n) :
    window (Function.update buf (w % n) x) n r k = window buf n r k := by
  refine window_congr fun i hi => ?_
  rw [Function.update_of_ne]
  exact cell_ne (by omega) (by omega)

/-- The cell right behind the window. -/
theorem window_update_snoc (buf : Nat → α) (x : α) (h : k < n) :
    window (Function.update buf ((r + k) % n) x) n r (k + 1) =
      window buf n r k ++ [x] := by
  rw [window_snoc, window_update_of_lt x (Nat.le_refl _) (by omega),
    Function.update_self]

/-- The cell right in front of the window. -/
theorem window_update_cons (buf : Nat → α) (x : α) (h : k < n) :
    window (Function.update buf (r % n) x) n r (k + 1) =
      x :: window buf n (r + 1) k := by
  rw [window_cons, Function.update_self]
  congr 1
  refine window_congr fun i hi => ?_
  rw [Function.update_of_ne]
  exact (cell_ne (by omega) (by omega)).symm

/-- Writing behind the window. -/
theorem window_put (buf : Nat → α) (xs : List α) (h : k + xs.length ≤ n) :
    window (put buf n (r + k) xs) n r (k + xs.length) =
      window buf n r k ++ xs := by
  induction xs generalizing buf k with
  | nil => simp [put]
  | cons x xs ih =>
      rw [List.length_cons] at h
      have hnext := ih (k := k + 1)
        (Function.update buf ((r + k) % n) x) (by omega)
      rw [window_update_snoc buf x (by omega), List.append_assoc] at hnext
      rw [put, List.length_cons, Nat.add_comm xs.length 1, ← Nat.add_assoc]
      exact hnext

theorem copy_nil (buf : Nat → α) (w : Nat) : copy buf w [] = buf := by
  funext a
  simp [copy]

theorem copy_cons (buf : Nat → α) (w : Nat) (x : α) (xs : List α) :
    copy buf w (x :: xs) = copy (Function.update buf w x) (w + 1) xs := by
  funext a
  simp only [copy]
  rcases Nat.lt_trichotomy a w with hlt | rfl | hgt
  · rw [if_neg (by omega), if_neg (by omega),
      Function.update_of_ne (Nat.ne_of_lt hlt)]
  · simp
  · obtain ⟨d, rfl⟩ := Nat.exists_eq_add_of_lt hgt
    rw [if_pos (by omega), if_pos (by omega),
      Function.update_of_ne (by omega), Nat.add_sub_add_right,
      show w + d + 1 - w = (w + d - w) + 1 by omega, List.getElem?_cons_succ]

/-- A piece that does not pass the end. -/
theorem put_eq_copy {w : Nat} (h : w + xs.length ≤ n) :
    put buf n w xs = copy buf w xs := by
  induction xs generalizing buf w with
  | nil => rw [put, copy_nil]
  | cons x xs ih =>
      rw [List.length_cons] at h
      rw [put, copy_cons, Nat.mod_eq_of_lt (by omega), ih (by omega)]

theorem put_append (buf : Nat → α) (n w : Nat) (xs ys : List α) :
    put buf n w (xs ++ ys) = put (put buf n w xs) n (w + xs.length) ys := by
  induction xs generalizing buf w with
  | nil => rfl
  | cons x xs ih =>
      rw [List.cons_append, put, ih, put, List.length_cons,
        Nat.add_comm xs.length 1, ← Nat.add_assoc]

theorem put_mod (buf : Nat → α) (n w : Nat) (xs : List α) :
    put buf n (w % n) xs = put buf n w xs := by
  induction xs generalizing buf w with
  | nil => rfl
  | cons x xs ih =>
      rw [put, put, Nat.mod_mod, ← ih _ (w + 1), ← Nat.mod_add_mod, ih]

/-- A piece that passes the end is two pieces. -/
theorem put_eq_copies {w : Nat} (hw : w < n) (h : n < w + xs.length)
    (hlen : xs.length ≤ n) :
    put buf n w xs =
      copy (copy buf w (xs.take (n - w))) 0 (xs.drop (n - w)) := by
  have htake : (xs.take (n - w)).length = n - w := by
    rw [List.length_take]
    omega
  have hdrop : (xs.drop (n - w)).length = xs.length - (n - w) :=
    List.length_drop
  have hsplit := put_append buf n w (xs.take (n - w)) (xs.drop (n - w))
  rw [List.take_append_drop] at hsplit
  have hend : put buf n w (xs.take (n - w)) = copy buf w (xs.take (n - w)) :=
    put_eq_copy (by omega)
  rw [hsplit, htake, Nat.add_sub_cancel' (Nat.le_of_lt hw), ← put_mod _ n n,
    Nat.mod_self, put_eq_copy (by omega), hend]

end FreeRtosSim
