import FreeRtosSim.Proofs.Broken

/-!
# What a violation is

The comment at `readWeaklyHardConstraint` says it: constraint 0 is for a task
that must meet all its deadlines, constraint `s` allows one miss in every `s`
periods, so two misses less than `s` periods apart are one too many. The scan
of `countWeaklyHardBroken` counts these for every `s ≥ 1`; for a task of
constraint 0 its test compares with `-1` and never succeeds.
-/

namespace FreeRtosSim

variable {s j : Nat} {row : Nat → Bool} {sim : Simulator} {i : Nat}

/-- Period `j` is missed and violates the constraint `s`. -/
def violates (s : Nat) (row : Nat → Bool) (j : Nat) : Prop :=
  row j = false ∧ (s = 0 ∨ ∃ j' < j, row j' = false ∧
    (∀ m < j, j' < m → row m = true) ∧ j - j' < s)

instance (s : Nat) (row : Nat → Bool) (j : Nat) : Decidable (violates s row j) :=
  inferInstanceAs (Decidable (_ ∧ (_ ∨ _)))

/-- For a task that may miss, the scan minds what violates. -/
theorem violates_iff_minded (hs : s ≠ 0) :
    violates s row j ↔ row j = false ∧ minded s row j := by
  refine and_congr_right fun _ => ?_
  constructor
  · rintro (h0 | ⟨j', hj, hmiss, hmet, hclose⟩)
    · exact absurd h0 hs
    · have hlen := streak_of_closest hj hmiss hmet
      exact ⟨hs, by omega, by omega⟩
  · rintro ⟨-, hlt, hshort⟩
    obtain ⟨j', hj, hmiss, hmet⟩ := streak_lt_iff.mp hlt
    have hlen := streak_of_closest hj hmiss hmet
    exact Or.inr ⟨j', hj, hmiss, hmet, by omega⟩

/-- The scan finds the violations unless a hard task has missed. -/
theorem countBroken_eq_iff (e : PeriodicTask) :
    Simulator.countBroken e =
      Nat.count (violates e.weaklyHardConstraint e.report) e.numOfPeriods ↔
    e.weaklyHardConstraint ≠ 0 ∨ ∀ j < e.numOfPeriods, e.report j = true := by
  rw [Simulator.countBroken, foldl_countBrokenStep]
  by_cases hs : e.weaklyHardConstraint = 0
  · have hnone : Nat.count (fun k => e.report k = false ∧
        minded e.weaklyHardConstraint e.report k) e.numOfPeriods = 0 :=
      Nat.count_iff_forall_not.mpr fun k _ hk => hk.2.1 hs
    have hall : Nat.count (violates e.weaklyHardConstraint e.report) e.numOfPeriods =
        Nat.count (fun k => e.report k = false) e.numOfPeriods :=
      count_congr fun k _ => and_iff_left (Or.inl hs)
    dsimp only
    rw [hnone, hall, eq_comm, Nat.count_iff_forall_not]
    simp [hs]
  · have hsame : Nat.count (fun k => e.report k = false ∧
        minded e.weaklyHardConstraint e.report k) e.numOfPeriods =
        Nat.count (violates e.weaklyHardConstraint e.report) e.numOfPeriods :=
      count_congr fun k _ => (violates_iff_minded hs).symm
    simp [hs, hsame]

/-- What `countWeaklyHardBroken` stores for a task is the number of its
violations exactly if the task may miss or has not missed. -/
theorem weaklyHardBroken_exact_iff (sim : Simulator) {i : Nat} (hi : i < sim.taskCnt) :
    (sim.countWeaklyHardBroken.taskSet i).weaklyHardBroken =
      Nat.count (violates (sim.taskSet i).weaklyHardConstraint (sim.taskSet i).report)
        (sim.taskSet i).numOfPeriods ↔
    (sim.taskSet i).weaklyHardConstraint ≠ 0 ∨
      ∀ j < (sim.taskSet i).numOfPeriods, (sim.taskSet i).report j = true := by
  have hstored : (sim.countWeaklyHardBroken.taskSet i).weaklyHardBroken =
      Simulator.countBroken (sim.taskSet i) := by
    rw [Simulator.countWeaklyHardBroken, Simulator.forEachTask_eq]
    simp only [if_pos hi]
  rw [hstored]
  exact countBroken_eq_iff (sim.taskSet i)

theorem weaklyHardBroken_exact_twoTasks :
    ((twoTasks .bwp).simulator.countWeaklyHardBroken.taskSet 1).weaklyHardBroken =
      Nat.count (violates 2 fun _ => false) 2 :=
  (weaklyHardBroken_exact_iff (twoTasks .bwp).simulator (show 1 < 2 by decide)).mpr
    (Or.inl (by decide))

/-- The hard task misses its only deadline and nothing is counted. -/
theorem hard_miss_not_counted :
    (hardTask.simulator.taskSet 0).weaklyHardConstraint = 0 ∧
    (hardTask.simulator.taskSet 0).numOfPeriods = 1 ∧
    (hardTask.simulator.taskSet 0).report 0 = false ∧
    (hardTask.simulator.countWeaklyHardBroken.taskSet 0).weaklyHardBroken = 0 ∧
    Nat.count (violates (hardTask.simulator.taskSet 0).weaklyHardConstraint
      (hardTask.simulator.taskSet 0).report)
      (hardTask.simulator.taskSet 0).numOfPeriods = 1 := by
  decide

end FreeRtosSim
