import FreeRtosSim.Job.History

/-!
# The ticks charged inside one period

A ready job of period `k` has `duration` ticks minus those charged to it in
the period still to do. So the entry of the period says exactly whether the
job got all its ticks: it is set by the tick that completes the job, and a
job that was dropped or left out fell short. Nothing here depends on who
chose the ticks, only on a tick being charged to a task that is ready.
-/

namespace FreeRtosSim

variable {alg : Algorithm} {p : JobParams} {charged : Nat → Bool} {t k : Nat}

/-- Among the first `n` ticks of period `k`, those charged to the task. -/
def chargesIn (p : JobParams) (charged : Nat → Bool) (k n : Nat) : Nat :=
  Nat.count (fun v => charged (k * p.period + v) = true) n

theorem chargesIn_succ (p : JobParams) (charged : Nat → Bool) (t : Nat) :
    chargesIn p charged (t / p.period) (t % p.period + 1) =
      chargesIn p charged (t / p.period) (t % p.period) +
        if charged t = true then 1 else 0 := by
  have ht : t / p.period * p.period + t % p.period = t := Nat.div_add_mod' t _
  rw [chargesIn, Nat.count_succ, ht]
  rfl

/-- The charges of period `k` so far, `c` of them, and what they mean. -/
structure Charges (p : JobParams) (k c : Nat) (j : Job) : Prop where
  left : j.ready = true → j.remaining + c = p.duration
  ended : j.ready = false → c ≤ p.duration ∧
    (j.report k = true ↔ c = p.duration)

theorem Charges.le {c : Nat} {j : Job} (h : Charges p k c j) :
    c ≤ p.duration := by
  cases hr : j.ready with
  | false => exact (h.ended hr).1
  | true =>
      have := h.left hr
      omega

theorem charges_release {j : Job} (hreport : j.report k = false) :
    Charges p k 0 (j.release alg p t) := by
  have hd := p.duration_pos
  refine ⟨fun _ => ?_, fun _ => ⟨Nat.zero_le _, ?_⟩⟩
  · rw [(Job.release_remaining alg p t j).1]
    rfl
  · rw [Job.release_report, hreport]
    refine iff_of_false Bool.false_ne_true (by omega)

/-- The accounting of a tick charged only to a ready task. -/
theorem Charges.account {c : Nat} {j : Job} {b : Bool}
    (hf : Job.Fits p k t j) (h : Charges p k c j)
    (hb : b = true → j.ready = true) :
    Charges p k (c + if b = true then 1 else 0) (j.account p b) := by
  cases b with
  | false =>
      rw [Job.account_idle (by simp), if_neg Bool.false_ne_true]
      exact h
  | true =>
      have hr := hb rfl
      have hleft := h.left hr
      have hpos := hf.remaining_pos hr
      rw [Job.account_charged hr, if_pos rfl]
      by_cases hdone : j.remaining - 1 = 0
      · rw [Job.charge_done hdone, hf.start_div]
        refine ⟨fun hc => absurd hc (by simp), fun _ => ⟨by omega, ?_⟩⟩
        exact iff_of_true (Function.update_self _ _ _) (by omega)
      · rw [Job.charge_more hdone]
        refine ⟨fun _ => ?_, fun hc => absurd (hc.symm.trans hr) (by simp)⟩
        show j.remaining - 1 + (c + 1) = p.duration
        omega

theorem Charges.cull {c u : Nat} {j : Job} (h : Charges p k c j)
    (hpos : j.ready = true → 1 ≤ j.remaining)
    (hnow : j.ready = true → j.report k = false) :
    Charges p k c (j.cull p u) := by
  by_cases hlate : j.ready = true ∧ j.late p u
  · rw [Job.cull_dropped hlate]
    have hleft := h.left hlate.1
    have := hpos hlate.1
    refine ⟨fun hc => absurd hc (by simp [Job.drop]), fun _ => ⟨by omega, ?_⟩⟩
    show j.report k = true ↔ c = p.duration
    rw [hnow hlate.1]
    exact iff_of_false Bool.false_ne_true (by omega)
  · rw [Job.cull_kept hlate]
    exact h

section Run

variable (hb : ∀ u, charged u = true → (jobAt alg p charged u).ready = true)

include hb

theorem charges_jobAt (t : Nat) :
    Charges p (t / p.period) (chargesIn p charged (t / p.period) (t % p.period))
      (jobAt alg p charged t) := by
  induction t with
  | zero =>
      rw [Nat.zero_mod, Nat.zero_div]
      exact charges_release (j := Job.blank) rfl
  | succ t ih =>
      have hfit := fits_jobAt alg p charged t
      have hacc := Charges.account hfit ih (hb t)
      rw [← chargesIn_succ] at hacc
      obtain ⟨-, hpos, -, hlater, hnow⟩ := hfit.account (charged t)
      have hcull := hacc.cull (u := t + 1) hpos hnow
      rw [jobAt_succ]
      by_cases hp : (t + 1) % p.period = 0
      · -- a new period: nothing is charged to it yet
        have hdvd := Nat.dvd_of_mod_eq_zero hp
        have hdiv := Nat.succ_div_of_dvd hdvd
        have hwait : (culled alg p charged t).ready = false := by
          refine (fits_culled alg p charged t).waiting_at_end ?_
          rw [← hdiv, Nat.div_mul_cancel hdvd]
        rw [Job.wake_released hwait hp, hp]
        refine charges_release ?_
        rw [culled, Job.cull_report, hdiv]
        exact hlater _ (Nat.lt_succ_self _)
      · have hdiv := div_succ_of_not_dvd p hp
        have hmod : (t + 1) % p.period = t % p.period + 1 := by
          have hold := Nat.div_add_mod' t p.period
          have hnew := Nat.div_add_mod' (t + 1) p.period
          rw [hdiv] at hnew
          omega
        rw [Job.wake_kept hp, hdiv, hmod]
        exact hcull

theorem charges_accounted (t : Nat) :
    Charges p (t / p.period)
      (chargesIn p charged (t / p.period) (t % p.period + 1))
      (accounted alg p charged t) := by
  have hacc := Charges.account (fits_jobAt alg p charged t)
    (charges_jobAt hb t) (hb t)
  rwa [← chargesIn_succ] at hacc

/-- The entry of a period that is over says whether the job got all its
ticks, and it never gets more. -/
theorem rowAt_iff_charges {T : Nat} (hT : lastTick p k ≤ T) :
    (rowAt alg p charged T k = true ↔
      chargesIn p charged k p.period = p.duration) ∧
    chargesIn p charged k p.period ≤ p.duration := by
  have h := charges_accounted hb (lastTick p k)
  have hmod : lastTick p k % p.period + 1 = p.period := by
    have hlast := lastTick_succ p k
    have hmul := Nat.div_add_mod' (lastTick p k) p.period
    rw [lastTick_div] at hmul
    rw [Nat.succ_mul] at hlast
    omega
  rw [lastTick_div, hmod] at h
  refine ⟨?_, h.le⟩
  rw [rowAt_lastTick hT]
  cases hr : (accounted alg p charged (lastTick p k)).ready with
  | false => exact (h.ended hr).2
  | true =>
      have hleft := h.left hr
      obtain ⟨-, hpos, -, -, hnow⟩ :=
        (fits_jobAt alg p charged (lastTick p k)).account
          (charged (lastTick p k))
      rw [lastTick_div] at hnow
      have : 1 ≤ (accounted alg p charged (lastTick p k)).remaining := hpos hr
      rw [rowAt, accounted, hnow hr]
      exact iff_of_false Bool.false_ne_true (by omega)

end Run

end FreeRtosSim
