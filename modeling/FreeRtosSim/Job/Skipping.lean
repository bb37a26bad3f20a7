import FreeRtosSim.Job.Tally

/-!
# Which jobs RTO leaves out

RTO leaves a job out when the streak before it has reached `skip - 1`, and
leaving it out ends the streak. So the streak never gets longer than that,
the eight bits of the counter are always enough, and a job is left out
exactly behind `skip - 1` completed ones.
-/

namespace FreeRtosSim

variable {p : JobParams} {charged : Nat → Bool} {t T k m : Nat}

/-- An entry of a period that is over is the tick that completed its job. -/
theorem rowAt_done_iff {alg : Algorithm} (hm : lastTick p m ≤ T) :
    rowAt alg p charged T m = true ↔
      ∃ u, u / p.period = m ∧ doneIn alg p charged u := by
  rw [← jobAt_succ_report, jobAt_report_iff]
  refine exists_congr fun u => ⟨And.right, fun h => ⟨?_, h⟩⟩
  have hhi := (period_bounds p u).2
  rw [h.1, ← lastTick_succ] at hhi
  omega

theorem lastTick_le_of_lt (hmk : m < k) (hk : k * p.period ≤ T) :
    lastTick p m ≤ T := by
  have hlast := lastTick_succ p m
  have hmul := Nat.mul_le_mul_right p.period (show m + 1 ≤ k from hmk)
  omega

section Rto

variable (hs : p.skip ≠ 0)

include hs

/-- The streak of a task that owes nothing is used up by the next job. -/
theorem streak_lt_skip (hk : k * p.period ≤ T) :
    streak (rowAt .rto p charged T) k < p.skip := by
  induction k with
  | zero => exact Nat.pos_of_ne_zero hs
  | succ k ih =>
      have hmul : (k + 1) * p.period = k * p.period + p.period :=
        Nat.succ_mul k p.period
      have hshort := ih (by omega)
      have hlt := p.skip_lt
      cases hrow : rowAt .rto p charged T k with
      | false =>
          rw [streak_succ_of_missed hrow]
          exact Nat.pos_of_ne_zero hs
      | true =>
          have hr : (jobAt .rto p charged (k * p.period)).ready = true := by
            by_contra hw
            rw [rowAt_of_skipped (by simpa using hw)
              (lastTick_le_of_lt (Nat.lt_succ_self k) hk)] at hrow
            exact Bool.noConfusion hrow
          have hnot := (released_iff .rto p charged (show _ ≤ T by omega)).mp hr
          rw [Nat.mod_eq_of_lt (Nat.lt_trans hshort hlt)] at hnot
          have hless : ¬ p.skip ≤ streak (rowAt .rto p charged T) k + 1 :=
            fun hc => hnot ⟨rfl, hs, hc⟩
          rw [streak_succ_of_met hrow]
          omega

/-- A job is left out exactly behind a full streak. -/
theorem leftOut_iff_streak (hk : k * p.period ≤ T) :
    (jobAt .rto p charged (k * p.period)).ready = false ↔
      p.skip ≤ streak (rowAt .rto p charged T) k + 1 := by
  have hshort : streak (rowAt .rto p charged T) k < p.skip :=
    streak_lt_skip hs hk
  have hiff := released_iff .rto p charged hk
  rw [Nat.mod_eq_of_lt (Nat.lt_trans hshort p.skip_lt)] at hiff
  rw [← Bool.not_eq_true, hiff, not_not]
  exact ⟨fun h => h.2.2, fun h => ⟨rfl, hs, h⟩⟩

/-- A job is left out exactly if the `skip - 1` jobs before it were all
completed. -/
theorem leftOut_iff_done :
    (jobAt .rto p charged (k * p.period)).ready = false ↔
      p.skip - 1 ≤ k ∧ ∀ m, k - (p.skip - 1) ≤ m → m < k →
        ∃ u, u / p.period = m ∧ doneIn .rto p charged u := by
  have hle := Nat.le_refl (k * p.period)
  rw [leftOut_iff_streak hs hle, ← Nat.sub_le_iff_le_add, le_streak_iff]
  refine and_congr_right fun _ => forall_congr' fun m => ?_
  refine forall_congr' fun _ => forall_congr' fun hm => ?_
  exact rowAt_done_iff (lastTick_le_of_lt hm hle)

/-- Two jobs that are left out are at least `skip` jobs apart. -/
theorem leftOut_apart (hmk : m < k)
    (hm : (jobAt .rto p charged (m * p.period)).ready = false)
    (hk : (jobAt .rto p charged (k * p.period)).ready = false) :
    m + p.skip ≤ k := by
  have hle := Nat.le_refl (k * p.period)
  have hmiss := rowAt_of_skipped hm (lastTick_le_of_lt hmk hle)
  rw [leftOut_iff_streak hs hle, ← Nat.sub_le_iff_le_add, le_streak_iff] at hk
  obtain ⟨hlen, hmet⟩ := hk
  by_contra hnear
  rw [hmet m (by omega) hmk] at hmiss
  exact Bool.noConfusion hmiss

/-- As long as no job is late, every `skip`-th job is left out. -/
theorem leftOut_iff_mod
    (hlate : ∀ u, u / p.period < k → ¬ lateIn .rto p charged u) :
    (jobAt .rto p charged (k * p.period)).ready = false ↔
      k % p.skip = p.skip - 1 := by
  have hpos := Nat.pos_of_ne_zero hs
  have hle := Nat.le_refl (k * p.period)
  have hmiss : ∀ m < k, (rowAt .rto p charged (k * p.period) m = false ↔
      p.skip ≤ streak (rowAt .rto p charged (k * p.period)) m + 1) := by
    intro m hm
    have hmul := Nat.mul_le_mul_right p.period (Nat.le_of_lt hm)
    rw [rowAt_eq_false_iff .rto p charged (lastTick_le_of_lt hm hle),
      leftOut_iff_streak hs hmul]
    refine ⟨fun h => h.resolve_right ?_, Or.inl⟩
    rintro ⟨v, -, rfl, hv⟩
    exact hlate v hm hv
  rw [leftOut_iff_streak hs hle, streak_eq_mod hpos hmiss]
  have := Nat.mod_lt k hpos
  omega

end Rto

end FreeRtosSim
