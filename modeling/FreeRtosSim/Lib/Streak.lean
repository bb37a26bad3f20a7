import Mathlib.Data.Nat.Count

/-!
# Histories of met and missed periods

A history is a row of bits, one for each period. `streak row k` is how many
periods directly before period `k` were met without a gap. A constraint of
skip factor `s` asks every miss to come after a streak of at least `s - 1`;
the two counting lemmas say what that does to the number of misses, from
above when all misses respect it, from below when a period may be required
only while the streak counter is short of `s - 1`.
-/

namespace FreeRtosSim

/-- Periods met in a row directly before period `k`. -/
def streak (row : Nat → Bool) : Nat → Nat
  | 0 => 0
  | k + 1 => if row k = true then streak row k + 1 else 0

@[simp] theorem streak_zero (row : Nat → Bool) : streak row 0 = 0 := rfl

theorem streak_succ_of_met {row : Nat → Bool} {k : Nat} (h : row k = true) :
    streak row (k + 1) = streak row k + 1 := by rw [streak, if_pos h]

theorem streak_succ_of_missed {row : Nat → Bool} {k : Nat}
    (h : row k = false) : streak row (k + 1) = 0 := by
  rw [streak, if_neg (by simp [h])]

theorem streak_congr {row row' : Nat → Bool} {k : Nat}
    (h : ∀ j < k, row j = row' j) : streak row k = streak row' k := by
  induction k with
  | zero => rfl
  | succ k ih =>
      rw [streak, streak, h k (Nat.lt_succ_self k),
        ih fun j hj => h j (Nat.lt_succ_of_lt hj)]

theorem streak_le (row : Nat → Bool) (k : Nat) : streak row k ≤ k := by
  induction k with
  | zero => exact Nat.le_refl 0
  | succ k ih =>
      rw [streak]
      split
      · exact Nat.succ_le_succ ih
      · exact Nat.zero_le _

/-- A streak of at least `n` is `n` met periods directly before. -/
theorem le_streak_iff {row : Nat → Bool} {n k : Nat} : n ≤ streak row k ↔
    n ≤ k ∧ ∀ m, k - n ≤ m → m < k → row m = true := by
  induction k generalizing n with
  | zero =>
      rw [streak_zero]
      exact ⟨fun h => ⟨h, fun m _ hm => absurd hm (Nat.not_lt_zero m)⟩, And.left⟩
  | succ k ih =>
      cases n with
      | zero =>
          refine ⟨fun _ => ⟨Nat.zero_le _, fun m hlo hhi => ?_⟩, fun _ => Nat.zero_le _⟩
          omega
      | succ n =>
          cases hk : row k with
          | false =>
              rw [streak_succ_of_missed hk]
              refine ⟨fun h => absurd h (Nat.not_succ_le_zero n), fun ⟨_, h⟩ => ?_⟩
              have hmet := h k (by omega) (Nat.lt_succ_self k)
              exact Bool.noConfusion (hk.symm.trans hmet)
          | true =>
              rw [streak_succ_of_met hk, Nat.succ_le_succ_iff, ih,
                Nat.succ_le_succ_iff, Nat.succ_sub_succ]
              refine and_congr_right fun _ => ⟨fun h m hlo hhi => ?_,
                fun h m hlo hhi => h m hlo (Nat.lt_succ_of_lt hhi)⟩
              rcases Nat.lt_succ_iff_lt_or_eq.mp hhi with hlt | rfl
              · exact h m hlo hlt
              · exact hk

/-- When exactly the periods whose streak reaches `s - 1` are missed, the
streak counts the periods modulo `s`. -/
theorem streak_eq_mod {row : Nat → Bool} {s k : Nat} (hs : 0 < s)
    (h : ∀ m < k, (row m = false ↔ s ≤ streak row m + 1)) :
    streak row k = k % s := by
  induction k with
  | zero => rw [streak_zero, Nat.zero_mod]
  | succ k ih =>
      have hprev := ih fun m hm => h m (Nat.lt_succ_of_lt hm)
      have hk := h k (Nat.lt_succ_self k)
      have hlt := Nat.mod_lt k hs
      rw [hprev] at hk
      cases hrow : row k with
      | true =>
          have hnot : ¬ s ≤ k % s + 1 := fun hc =>
            Bool.noConfusion (hrow.symm.trans (hk.mpr hc))
          rw [streak_succ_of_met hrow, hprev, ← Nat.mod_add_mod,
            Nat.mod_eq_of_lt (show k % s + 1 < s by omega)]
      | false =>
          have hfull : k % s + 1 = s := by
            have := hk.mp hrow
            omega
          rw [streak_succ_of_missed hrow, ← Nat.mod_add_mod, hfull, Nat.mod_self]

/-- Behind the closest miss everything was met. -/
theorem streak_of_closest {row : Nat → Bool} {j k : Nat} (hj : j < k)
    (hmiss : row j = false) (hmet : ∀ m < k, j < m → row m = true) :
    streak row k + (j + 1) = k := by
  induction k with
  | zero => exact absurd hj (Nat.not_lt_zero j)
  | succ k ih =>
      rcases Nat.lt_succ_iff_lt_or_eq.mp hj with hlt | rfl
      · have hk := hmet k (Nat.lt_succ_self k) hlt
        have hprev := ih hlt fun m hm => hmet m (Nat.lt_succ_of_lt hm)
        rw [streak_succ_of_met hk]
        omega
      · rw [streak_succ_of_missed hmiss, Nat.zero_add]

/-- The streak is shorter than the history exactly if there is a closest
miss. -/
theorem streak_lt_iff {row : Nat → Bool} {k : Nat} : streak row k < k ↔
    ∃ j < k, row j = false ∧ ∀ m < k, j < m → row m = true := by
  constructor
  · intro h
    induction k with
    | zero => exact absurd h (Nat.not_lt_zero _)
    | succ k ih =>
        cases hk : row k with
        | false =>
            refine ⟨k, Nat.lt_succ_self k, hk, fun m hm hkm => ?_⟩
            omega
        | true =>
            rw [streak_succ_of_met hk] at h
            obtain ⟨j, hj, hmiss, hmet⟩ := ih (Nat.lt_of_succ_lt_succ h)
            refine ⟨j, Nat.lt_succ_of_lt hj, hmiss, fun m hm hjm => ?_⟩
            rcases Nat.lt_succ_iff_lt_or_eq.mp hm with hlt | rfl
            · exact hmet m hlt hjm
            · exact hk
  · rintro ⟨j, hj, hmiss, hmet⟩
    have hlen := streak_of_closest hj hmiss hmet
    omega

theorem count_congr {p q : Nat → Prop} [DecidablePred p] [DecidablePred q] {n : Nat}
    (h : ∀ k < n, p k ↔ q k) : Nat.count p n = Nat.count q n :=
  Nat.le_antisymm (Nat.count_mono_left fun k hk => (h k hk).mp)
    (Nat.count_mono_left fun k hk => (h k hk).mpr)

/-- Missed periods among the first `N`. -/
def missCount (row : Nat → Bool) (N : Nat) : Nat :=
  Nat.count (fun k => row k = false) N

/-- Met periods among the first `N`. -/
def metCount (row : Nat → Bool) (N : Nat) : Nat :=
  Nat.count (fun k => row k = true) N

theorem metCount_add_missCount (row : Nat → Bool) (N : Nat) :
    metCount row N + missCount row N = N := by
  induction N with
  | zero => rfl
  | succ N ih =>
      unfold metCount missCount at ih ⊢
      rw [Nat.count_succ, Nat.count_succ]
      cases row N <;> simp <;> omega

/-- When every miss follows `s - 1` met periods, misses are at least `s`
apart, and the current streak has not been used up yet. -/
theorem missCount_mul_add_streak_le {row : Nat → Bool} {s N : Nat}
    (h : ∀ k < N, row k = false → s ≤ streak row k + 1) :
    missCount row N * s + streak row N ≤ N := by
  induction N with
  | zero => simp [missCount]
  | succ N ih =>
      have ih := ih fun k hk => h k (Nat.lt_succ_of_lt hk)
      unfold missCount at ih ⊢
      rw [Nat.count_succ]
      cases hN : row N with
      | true =>
          rw [streak_succ_of_met hN]
          simp only [reduceCtorEq, if_false, Nat.add_zero]
          omega
      | false =>
          have := h N (Nat.lt_succ_self N) hN
          rw [streak_succ_of_missed hN]
          simp only [if_true, Nat.add_mul, Nat.one_mul]
          omega

theorem missCount_le_div {row : Nat → Bool} {s N : Nat} (hs : 0 < s)
    (h : ∀ k < N, row k = false → s ≤ streak row k + 1) :
    missCount row N ≤ N / s := by
  rw [Nat.le_div_iff_mul_le hs]
  exact Nat.le_trans (Nat.le_add_right _ _) (missCount_mul_add_streak_le h)

/-- When exactly the periods after `s - 1` met ones are missed, every `s`-th
period is. A counter that wraps at `m` will do, as it never gets to `s`. -/
theorem missCount_eq_div {row : Nat → Bool} {s m N : Nat} (hs : 0 < s)
    (hsm : s < m) (h : ∀ k < N, (row k = false ↔ s ≤ streak row k % m + 1)) :
    missCount row N = N / s := by
  have hinv : missCount row N * s + streak row N = N ∧ streak row N < s := by
    induction N with
    | zero => exact ⟨by simp [missCount], hs⟩
    | succ N ih =>
        obtain ⟨hsum, hlt⟩ := ih fun k hk => h k (Nat.lt_succ_of_lt hk)
        have hN := h N (Nat.lt_succ_self N)
        rw [Nat.mod_eq_of_lt (Nat.lt_trans hlt hsm)] at hN
        unfold missCount at hsum ⊢
        rw [Nat.count_succ]
        cases hrow : row N with
        | true =>
            have hnot : ¬ s ≤ streak row N + 1 := fun hc =>
              Bool.noConfusion (hrow.symm.trans (hN.mpr hc))
            rw [streak_succ_of_met hrow]
            simp only [reduceCtorEq, if_false, Nat.add_zero]
            omega
        | false =>
            have := hN.mp hrow
            rw [streak_succ_of_missed hrow]
            simp only [if_true, Nat.add_mul, Nat.one_mul]
            omega
  obtain ⟨hsum, hlt⟩ := hinv
  symm
  rw [Nat.div_eq_iff hs]
  omega

/-! ## Required periods

A counter `c` that a required period advances by one, where a period is
required only while the counter is below `s - 1`: no `s` periods in a row
are all required, whatever the counter does elsewhere. -/

section Required

variable {Q : Nat → Prop} {c : Nat → Nat} {s a b : Nat}

theorem counter_ge_of_required
    (hstep : ∀ k, a ≤ k → k + 1 < b → Q k → c (k + 1) = c k + 1) :
    ∀ j, a + j < b → (∀ i < j, Q (a + i)) → j ≤ c (a + j) := by
  intro j
  induction j with
  | zero => intro _ _; exact Nat.zero_le _
  | succ j ih =>
      intro hj hall
      have hprev := ih (by omega) fun i hi => hall i (by omega)
      have hnext := hstep (a + j) (by omega) (by omega) (hall j (by omega))
      rw [show a + (j + 1) = a + j + 1 by omega, hnext]
      omega

theorem exists_not_required (hs : 0 < s)
    (hreq : ∀ k, a ≤ k → k < b → Q k → c k + 1 < s)
    (hstep : ∀ k, a ≤ k → k + 1 < b → Q k → c (k + 1) = c k + 1)
    (hlen : a + s ≤ b) : ∃ i < s, ¬ Q (a + i) := by
  by_contra hcon
  have hall : ∀ i < s, Q (a + i) := by
    intro i hi
    by_contra hi'
    exact hcon ⟨i, hi, hi'⟩
  have hge := counter_ge_of_required hstep (s - 1) (by omega)
    fun i hi => hall i (by omega)
  have hlt := hreq (a + (s - 1)) (by omega) (by omega) (hall (s - 1) (by omega))
  omega

/-- Of `m` periods in a row at least `m / s` are not required. -/
theorem count_required_add_div_le [DecidablePred Q] (hs : 0 < s) :
    ∀ m a, a + m ≤ b →
      (∀ k, a ≤ k → k < b → Q k → c k + 1 < s) →
      (∀ k, a ≤ k → k + 1 < b → Q k → c (k + 1) = c k + 1) →
      Nat.count (fun i => Q (a + i)) m + m / s ≤ m := by
  intro m
  induction m using Nat.strong_induction_on with
  | _ m ih =>
      intro a hm hreq hstep
      rcases Nat.lt_or_ge m s with hlt | hge
      · rw [Nat.div_eq_of_lt hlt]
        simpa using Nat.count_le _
      · obtain ⟨i, hi, hnot⟩ := exists_not_required hs hreq hstep
          (show a + s ≤ b by omega)
        have hrest := ih (m - s) (by omega) (a + s) (by omega)
          (fun k hk => hreq k (by omega)) (fun k hk => hstep k (by omega))
        have hfirst : Nat.count (fun i => Q (a + i)) s < s := by
          rw [Nat.count_eq_card_filter_range]
          calc ((Finset.range s).filter fun i => Q (a + i)).card
              < (Finset.range s).card := by
                apply Finset.card_lt_card
                rw [Finset.filter_ssubset]
                exact ⟨i, Finset.mem_range.mpr hi, hnot⟩
            _ = s := Finset.card_range s
        have hsplit : Nat.count (fun i => Q (a + i)) m =
            Nat.count (fun i => Q (a + i)) s +
              Nat.count (fun i => Q (a + s + i)) (m - s) := by
          conv_lhs => rw [show m = s + (m - s) by omega, Nat.count_add]
          simp only [Nat.add_assoc]
        have hdiv : m / s = (m - s) / s + 1 := by
          conv_lhs => rw [show m = m - s + s by omega]
          exact Nat.add_div_right _ hs
        omega

end Required

end FreeRtosSim
