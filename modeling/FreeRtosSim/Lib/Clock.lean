import Mathlib.Tactic.Common

/-!
# A clock that wraps

A counter of the numbers below `M` that starts again at zero. `sub M v now`
is how far the clock is from showing `v`: what subtracting two readings gives
in the arithmetic of the counter. It goes down by one with each tick, so a
reading noted down `n < M` ticks ahead is shown after exactly `n` ticks,
whether or not the clock wraps in between.

`T % M` is what the clock shows at the time `T` of a clock that never wraps.
-/

namespace FreeRtosSim.Clock

variable {M v now n T T' : Nat}

/-- The clock `n` ticks later. -/
def add (M now n : Nat) : Nat := (now + n) % M

/-- The ticks until the clock shows `v`. -/
def sub (M v now : Nat) : Nat := (v + (M - now)) % M

theorem add_lt (hM : 0 < M) : add M now n < M := Nat.mod_lt _ hM

theorem add_of_lt (h : now + n < M) : add M now n = now + n := Nat.mod_eq_of_lt h

theorem add_add {m : Nat} : add M (add M now n) m = add M now (n + m) := by
  rw [add, add, add, Nat.mod_add_mod, Nat.add_assoc]

/-- The clock wraps at most once in `n < M` ticks. -/
theorem add_of_le (hnow : now < M) (hn : n < M) (h : M ≤ now + n) :
    add M now n = now + n - M := by
  rw [add, Nat.mod_eq_sub_mod h, Nat.mod_eq_of_lt (by omega)]

theorem sub_lt (hM : 0 < M) : sub M v now < M := Nat.mod_lt _ hM

theorem sub_of_le (hv : v < M) (h : now ≤ v) : sub M v now = v - now := by
  rw [sub, show v + (M - now) = v - now + M by omega, Nat.add_mod_right,
    Nat.mod_eq_of_lt (by omega)]

/-- A reading that lies behind is shown after the clock has wrapped. -/
theorem sub_of_lt (hnow : now < M) (h : v < now) : sub M v now = v + M - now := by
  rw [sub, show v + (M - now) = v + M - now by omega, Nat.mod_eq_of_lt (by omega)]

theorem sub_eq_zero (hv : v < M) (hnow : now < M) : sub M v now = 0 ↔ v = now := by
  rcases Nat.lt_or_ge v now with h | h
  · rw [sub_of_lt hnow h]
    omega
  · rw [sub_of_le hv h]
    omega

/-- The reading noted down `n` ticks ahead. -/
theorem sub_add (hnow : now < M) (hn : n < M) : sub M (add M now n) now = n := by
  rcases Nat.lt_or_ge (now + n) M with h | h
  · rw [add_of_lt h, sub_of_le h (Nat.le_add_right now n)]
    omega
  · rw [add_of_le hnow hn h, sub_of_lt hnow (by omega)]
    omega

/-- The difference leads back to the reading. -/
theorem add_sub (hv : v < M) (hnow : now < M) : add M now (sub M v now) = v := by
  rcases Nat.lt_or_ge v now with h | h
  · rw [sub_of_lt hnow h, add_of_le hnow (by omega) (by omega)]
    omega
  · rw [sub_of_le hv h, add_of_lt (by omega)]
    omega

/-- One tick less to go. -/
theorem sub_tick (hv : v < M) (hnow : now < M) (h : sub M v now ≠ 0) :
    sub M v (add M now 1) + 1 = sub M v now := by
  have hne : v ≠ now := fun he => h ((sub_eq_zero hv hnow).mpr he)
  rcases Nat.lt_or_ge (now + 1) M with hlt | hge
  · rw [add_of_lt hlt]
    rcases Nat.lt_or_ge v now with hb | hb
    · rw [sub_of_lt hnow hb, sub_of_lt hlt (by omega)]
      omega
    · rw [sub_of_le hv hb, sub_of_le hv (by omega)]
      omega
  · have hlast : now + 1 = M := by omega
    rw [add, hlast, Nat.mod_self, sub_of_le hv (Nat.zero_le v), sub_of_lt hnow (by omega)]
    omega

/-- The difference of two readings is the time between them. -/
theorem sub_mod (hM : 0 < M) (h : T ≤ T') (hlt : T' - T < M) :
    sub M (T' % M) (T % M) = T' - T := by
  have hT : T' = T + (T' - T) := by omega
  have hadd : T' % M = add M (T % M) (T' - T) := by
    rw [add, Nat.mod_add_mod, ← hT]
  rw [hadd, sub_add (Nat.mod_lt _ hM) hlt]

theorem add_mod : add M (T % M) n = (T + n) % M := Nat.mod_add_mod T M n

/-- Whether the time `P + n` is still ahead, told from three readings: that of
`P`, that of `P + n`, and the present one. -/
theorem ahead_iff {P : Nat} (hM : 0 < M) (hPT : P ≤ T) (hT : T < P + M) (hn : n < M) :
    (if T % M < P % M then
      (P + n) % M < P % M ∧ (P + n) % M > T % M
    else (P + n) % M < P % M ∨ (P + n) % M > T % M) ↔ T < P + n := by
  have hp := Nat.mod_lt P hM
  have hnow : T % M = add M (P % M) (T - P) := by
    rw [add_mod, show P + (T - P) = T by omega]
  have hwake : (P + n) % M = add M (P % M) n := add_mod.symm
  rw [hnow, hwake]
  generalize P % M = p at hp
  rcases Nat.lt_or_ge (p + n) M with hlt | hge
  · rw [add_of_lt hlt]
    rcases Nat.lt_or_ge (p + (T - P)) M with hlt' | hge'
    · rw [add_of_lt hlt', if_neg (by omega)]
      omega
    · rw [add_of_le hp (by omega) hge', if_pos (by omega)]
      omega
  · rw [add_of_le hp hn hge]
    rcases Nat.lt_or_ge (p + (T - P)) M with hlt' | hge'
    · rw [add_of_lt hlt', if_neg (by omega)]
      omega
    · rw [add_of_le hp (by omega) hge', if_pos (by omega)]
      omega

/-- In less than one turn a clock that shows no less has not wrapped. -/
theorem div_eq_of_mod_le {T' : Nat} (hM : 0 < M) (hle : T ≤ T') (hlt : T' < T + M)
    (hmod : T % M ≤ T' % M) : T' / M = T / M := by
  have h₁ := Nat.div_add_mod T M
  have h₂ := Nat.div_add_mod T' M
  have hm := Nat.mod_lt T hM
  have hm' := Nat.mod_lt T' hM
  refine Nat.le_antisymm ?_ ?_
  · refine Nat.le_of_lt_succ (Nat.lt_of_mul_lt_mul_left (a := M) ?_)
    rw [Nat.mul_succ]
    omega
  · exact Nat.div_le_div_right hle

/-- The wraps are counted where the clock shows zero. -/
theorem succ_div :
    (T + 1) / M = if (T + 1) % M = 0 then T / M + 1 else T / M := by
  rw [Nat.succ_div]
  simp only [Nat.dvd_iff_mod_eq_zero]
  split <;> rfl

end FreeRtosSim.Clock
