import FreeRtosSim.Proofs.Load
import FreeRtosSim.Proofs.Generated

/-!
# When the first loop can end

The utilisations always add up to the requested load, and each has to be below
0.7. So `n` tasks can only carry a load below `0.7 * n`; below it equal shares
pass the test. `main` checks how many arguments it was given and nothing else.
-/

namespace FreeRtosSim

open Finset

namespace Generator

section Shares

variable {K : Type*} [Field K] [CharZero K] {factor : Nat → K} {pow : K → K → K}
  {U : K} {g : Generator K} {i k : Nat}

/-- The factors that share the load out evenly. -/
def EvenFactors (pow : K → K → K) (n : Nat) (factor : Nat → K) : Prop :=
  ∀ k, k + 1 < n → pow (factor k) (1 / (((n : Int) - ((k + 1 : Nat) : Int) : Int) : K)) =
    ((n : K) - (k + 1)) / ((n : K) - k)

/-- With them every round leaves as much as the tasks still to come need. -/
theorem sampled_even (hf : EvenFactors pow g.sim.taskCnt factor) (h0 : g.drawn = 0)
    (hk : k < g.sim.taskCnt) :
    (sampled factor pow U g k).1 = U * ((g.sim.taskCnt : K) - k) / g.sim.taskCnt ∧
    ∀ i < k, (sampled factor pow U g k).2.u i = U / g.sim.taskCnt := by
  have hn : (g.sim.taskCnt : K) ≠ 0 := by
    have : g.sim.taskCnt ≠ 0 := by omega
    exact_mod_cast this
  induction k with
  | zero =>
      refine ⟨?_, fun i hi => absurd hi (Nat.not_lt_zero i)⟩
      rw [sampled]
      simp
      field_simp
  | succ k ih =>
      obtain ⟨hrest, hold⟩ := ih (by omega)
      have hleft : ((g.sim.taskCnt : K) - k) ≠ 0 := by
        have : ((g.sim.taskCnt : Int) - k : Int) ≠ 0 := by omega
        exact_mod_cast this
      have hnext : (sampled factor pow U g (k + 1)).1 =
          U * ((g.sim.taskCnt : K) - (k + 1 : Nat)) / g.sim.taskCnt := by
        rw [sampled_succ, factorStep, sampled_sim, sampled_drawn, h0, Nat.zero_add]
        dsimp only
        rw [hf k hk, hrest]
        push_cast
        field_simp
      have hpiece : (sampled factor pow U g (k + 1)).2.u k =
          (sampled factor pow U g k).1 - (sampled factor pow U g (k + 1)).1 := by
        rw [sampled_succ]
        simp [factorStep]
      refine ⟨hnext, fun i hi => ?_⟩
      rcases Nat.lt_succ_iff_lt_or_eq.mp hi with hlt | rfl
      · rw [sampled_u_succ hlt]
        exact hold i hlt
      · rw [hpiece, hnext, hrest]
        push_cast
        field_simp
        ring

theorem sampleUtilization_even (hf : EvenFactors pow g.sim.taskCnt factor)
    (h0 : g.drawn = 0) (hi : i < g.sim.taskCnt) :
    (sampleUtilization factor pow U g).u i = U / g.sim.taskCnt := by
  obtain ⟨hrest, hold⟩ := sampled_even (U := U) (k := g.sim.taskCnt - 1) hf h0 (by omega)
  rw [sampleUtilization_u]
  by_cases hlast : i = g.sim.taskCnt - 1
  · have hone : ((g.sim.taskCnt : K) - (g.sim.taskCnt - 1 : Nat)) = 1 := by
      rw [Nat.cast_sub (by omega)]
      push_cast
      ring
    rw [hlast, Function.update_self, hrest, hone, mul_one]
  · rw [Function.update_of_ne hlast]
    exact hold i (by omega)

end Shares

section Choice

variable {K : Type*} [Field K] [LinearOrder K] [IsStrictOrderedRing K] {pow : K → K → K}
  {g : Generator K} {n fuel : Nat}

omit [IsStrictOrderedRing K] in
theorem checkUtilization_iff : g.checkUtilization = 1 ↔
    ∀ i < g.sim.taskCnt, g.u i < 7 / 10 := by
  rw [checkUtilization]
  split
  · next h =>
      obtain ⟨i, hi, hge⟩ := List.any_eq_true.mp h
      rw [List.mem_range] at hi
      rw [decide_eq_true_eq] at hge
      exact iff_of_false (by simp) fun hall => absurd (hall i hi) (not_lt.mpr hge)
  · next h =>
      refine iff_of_true rfl fun i hi => ?_
      by_contra hge
      refine h (List.any_eq_true.mpr ⟨i, List.mem_range.mpr hi, ?_⟩)
      simpa using hge

/-- What the first loop returns carries the whole load below 0.7 a task. -/
theorem chooseUtilization_lt {factor : Nat → K} {U : K} (hn : 1 ≤ n)
    (h : chooseUtilization factor pow fuel U n = some g) : U < 7 / 10 * n := by
  obtain ⟨g₀, hcnt, rfl, htest⟩ := loopUntil_body (I := fun g : Generator K =>
    g.sim.taskCnt = n) (fun s hs => by rw [sampleUtilization_sim]; exact hs) rfl h
  rw [decide_eq_true_eq, checkUtilization_iff, sampleUtilization_sim, hcnt] at htest
  have hsum := sampleUtilization_sum factor pow U g₀ (by omega)
  rw [hcnt] at hsum
  calc U = ∑ i ∈ range n, (sampleUtilization factor pow U g₀).u i := hsum.symm
    _ < ∑ _i ∈ range n, (7 / 10 : K) := by
        refine sum_lt_sum_of_nonempty ⟨0, mem_range.mpr hn⟩ fun i hi => ?_
        exact htest i (mem_range.mp hi)
    _ = 7 / 10 * n := by rw [sum_const, card_range, nsmul_eq_mul, mul_comm]

theorem exists_evenFactors (hpow : PowOnto pow) (n : Nat) :
    ∃ factor, FactorsInUnit factor ∧ EvenFactors pow n factor := by
  have hround : ∀ k, ∃ x : K, (0 ≤ x ∧ x ≤ 1) ∧ (k + 1 < n →
      pow x (1 / (((n : Int) - ((k + 1 : Nat) : Int) : Int) : K)) =
        ((n : K) - (k + 1)) / ((n : K) - k)) := by
    intro k
    by_cases hk : k + 1 < n
    · have hlt : ((k + 1 : Nat) : K) < n := by exact_mod_cast hk
      push_cast at hlt
      have hpos : (0 : K) < (n : K) - k := by linarith
      obtain ⟨he, he'⟩ := exponent_mem (K := K) hk
      obtain ⟨x, hx, hx', heq⟩ := hpow (((n : K) - (k + 1)) / ((n : K) - k)) _
        (div_nonneg (by linarith) hpos.le) ((div_le_one hpos).mpr (by linarith)) he he'
      exact ⟨x, ⟨hx, hx'⟩, fun _ => heq⟩
    · exact ⟨0, ⟨le_refl 0, zero_le_one⟩, fun hk' => absurd hk' hk⟩
  choose factor hunit heven using hround
  exact ⟨factor, hunit, heven⟩

/-- For the load `k` percent and `n` tasks some factors end the first loop
exactly if `k` is below 70 percent a task. -/
theorem choice_possible_iff (pow : K → K → K) (hpow : PowOnto pow) (k n : Nat)
    (hn : 1 ≤ n) :
    (∃ factor : Nat → K, FactorsInUnit factor ∧ ∃ fuel g,
      chooseUtilization factor pow fuel (utilizationArg k) n = some g) ↔ k < 70 * n := by
  constructor
  · rintro ⟨factor, -, fuel, g, h⟩
    have hlt := chooseUtilization_lt hn h
    rw [utilizationArg, div_lt_iff₀ (by norm_num)] at hlt
    have hcast : (k : K) < ((70 * n : Nat) : K) := by
      push_cast
      linarith
    exact_mod_cast hcast
  · intro hk
    obtain ⟨factor, hunit, heven⟩ := exists_evenFactors hpow n
    refine ⟨factor, hunit, 1, sampleUtilization factor pow (utilizationArg k) (zeroed n), ?_⟩
    rw [chooseUtilization, loopUntil, if_pos]
    rw [decide_eq_true_eq, checkUtilization_iff, sampleUtilization_sim]
    intro i hi
    rw [sampleUtilization_even heven rfl hi, utilizationArg]
    have hpos : (0 : K) < n := by exact_mod_cast hn
    have hcast : (k : K) < ((70 * n : Nat) : K) := by exact_mod_cast hk
    push_cast at hcast
    show (k : K) / 100 / (n : K) < 7 / 10
    rw [div_div, div_lt_iff₀ (by positivity)]
    linarith

end Choice

theorem choice_possible_two : ∃ factor : Nat → ℚ, FactorsInUnit factor ∧ ∃ fuel g,
    chooseUtilization factor (fun x _ => x) fuel (utilizationArg 120) 2 = some g :=
  (choice_possible_iff (fun x _ => x) (fun y _ h h' _ _ => ⟨y, h, h', rfl⟩) 120 2
    (by decide)).mpr (by decide)

/-- `posix_demo 70 1 file` never gets out of the first loop. -/
theorem choice_impossible : ¬ ∃ factor : Nat → ℚ, FactorsInUnit factor ∧ ∃ fuel g,
    chooseUtilization factor (fun x _ => x) fuel (utilizationArg 70) 1 = some g := by
  rintro ⟨factor, -, fuel, g, h⟩
  have hlt := chooseUtilization_lt (Nat.le_refl 1) h
  norm_num [utilizationArg] at hlt

end Generator

end FreeRtosSim
