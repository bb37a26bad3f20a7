import FreeRtosSim.Proofs.Order
import FreeRtosSim.Proofs.Lifetime

/-!
# The dispatch law

With the ready list in order, the head the context switch takes is the most
urgent job. What is left to see is what the keys mean: under EDF and RTO the
key is the absolute deadline; under BWP bits 31 to 63 are set in every key
and bit 30 in the keys of the jobs that may be missed, so that as long as
deadlines stay below `2 ^ 30` keys compare by colour first and by deadline
second.
-/

namespace FreeRtosSim

variable {sys : ClosedSystem} {t : Nat} {st : State} {i j c : TaskHandle}

/-- `start_time + xTaskPeriod`. -/
def State.deadline (st : State) (i : TaskHandle) : Nat :=
  (st.tcb i).startTime + (st.tcb i).xTaskPeriod

/-- The job may not be missed. -/
def State.isRed (st : State) (i : TaskHandle) : Prop :=
  (st.tcb i).weaklyHardConstraint = 0 ∨
    ((st.tcb i).previousDeadlineMet : Int) <
      ((st.tcb i).weaklyHardConstraint : Int) - 1

/-- The job of `i` is more urgent than the job of `j`. -/
def State.precedes (alg : Algorithm) (st : State) (i j : TaskHandle) : Prop :=
  match alg with
  | .edf => st.deadline i < st.deadline j
  | .rto => st.deadline i < st.deadline j
  | .bwp => st.isRed i ∧ ¬ st.isRed j ∨
      (st.isRed i ↔ st.isRed j) ∧ st.deadline i < st.deadline j

/-! ## What keys mean -/

theorem or_bit31 {d : Nat} (h : d < 2 ^ 31) : d ||| bit31 = d + bit31 := by
  have hshift : bit31 = (2 ^ 33 - 1) <<< 31 := by decide
  rw [hshift, Nat.or_comm, ← Nat.shiftLeft_add_eq_or_of_lt h, Nat.add_comm]

theorem or_bit31_bit30 {d : Nat} (h : d < 2 ^ 30) :
    d ||| bit31 ||| bit30 = d + bit31 + bit30 := by
  have hshift : bit31 ||| bit30 = (2 ^ 34 - 1) <<< 30 := by decide
  have hsum : (2 ^ 34 - 1) <<< 30 = bit31 + bit30 := by decide
  rw [Nat.or_assoc, hshift, Nat.or_comm, ← Nat.shiftLeft_add_eq_or_of_lt h, hsum]
  omega

theorem isRed_iff (h : Shape sys t st) (hi : i < sys.taskCnt) :
    st.isRed i ↔ (st.job i).red (sys.params i) := by
  have hm : (st.job i).met = (st.tcb i).previousDeadlineMet := rfl
  rw [State.isRed, Job.red, Job.owes, (h.static i hi).skip, hm]
  exact or_congr_right (by omega)

theorem deadline_eq (h : Shape sys t st) (hi : i < sys.taskCnt) :
    st.deadline i = (st.job i).start + (sys.params i).period := by
  rw [State.deadline, (h.static i hi).period]
  rfl

theorem key_plain (h : Shape sys t st) (hi : i ∈ st.items (.ready 1))
    (halg : sys.alg ≠ .bwp) : st.key i = st.deadline i := by
  rw [State.key, h.key i hi, deadline_eq h (h.lt_of_ready hi)]
  generalize sys.alg = alg at *
  cases alg with
  | edf => rfl
  | rto => rfl
  | bwp => exact absurd rfl halg

theorem key_bwp (h : Shape sys t st) (hi : i ∈ st.items (.ready 1))
    (halg : sys.alg = .bwp) (hd : st.deadline i < 2 ^ 30) :
    (st.isRed i → st.key i = st.deadline i + bit31) ∧
    (¬ st.isRed i → st.key i = st.deadline i + bit31 + bit30) := by
  have hlt := h.lt_of_ready hi
  have hred := isRed_iff h hlt
  have hkey := h.key i hi
  simp only [readyKey, halg, ← deadline_eq h hlt] at hkey
  rw [State.key, hkey]
  constructor
  · intro hr
    rw [if_pos (hred.mp hr)]
    exact or_bit31 (by omega)
  · intro hr
    rw [if_neg fun hc => hr (hred.mpr hc)]
    exact or_bit31_bit30 hd

/-- Keys compare as the jobs' urgency does. -/
theorem key_lt_iff (h : Shape sys t st) (hi : i ∈ st.items (.ready 1))
    (hj : j ∈ st.items (.ready 1))
    (hd : sys.alg = .bwp →
      ∀ x ∈ st.items (.ready 1), st.deadline x < 2 ^ 30) :
    st.key i < st.key j ↔ st.precedes sys.alg i j := by
  by_cases halg : sys.alg = .bwp
  · have hdi := hd halg i hi
    have hdj := hd halg j hj
    obtain ⟨hir, hin⟩ := key_bwp h hi halg hdi
    obtain ⟨hjr, hjn⟩ := key_bwp h hj halg hdj
    have hb : bit30 = 2 ^ 30 := rfl
    simp only [State.precedes, halg]
    by_cases hri : st.isRed i
    · by_cases hrj : st.isRed j
      · rw [hir hri, hjr hrj]
        simp only [hri, hrj, not_true, and_false, false_or, true_and]
        omega
      · rw [hir hri, hjn hrj]
        simp only [hri, hrj, not_false_iff, and_self, true_or, iff_true]
        omega
    · by_cases hrj : st.isRed j
      · rw [hin hri, hjr hrj]
        refine iff_of_false (by omega) ?_
        rintro (⟨hr, -⟩ | ⟨hr, -⟩)
        · exact hri hr
        · exact hri (hr.mpr hrj)
      · rw [hin hri, hjn hrj]
        simp only [hri, hrj, false_and, iff_self, true_and, false_or]
        omega
  · rw [key_plain h hi halg, key_plain h hj halg]
    unfold State.precedes
    generalize sys.alg = alg at *
    cases alg with
    | edf => exact Iff.rfl
    | rto => exact Iff.rfl
    | bwp => exact absurd rfl halg

/-! ## The task the switch picks -/

theorem InOrder.head (h : InOrder sys t st) (hne : st.items (.ready 1) ≠ []) :
    ∃ c ∈ st.items (.ready 1), st.pxCurrentTCB = some c ∧
      ∀ i ∈ st.items (.ready 1), i ≠ c →
        st.key c ≤ st.key i ∧
        (st.key c = st.key i → sys.readyFirst st c i) := by
  obtain ⟨c, l, hl⟩ := List.exists_cons_of_ne_nil hne
  have hord := h.ordered
  rw [State.Ordered, hl] at hord
  refine ⟨c, by simp [hl], ?_, fun i hi hic => ?_⟩
  · rw [h.current, headOrIdle, hl]
    rfl
  · rw [hl, List.mem_cons] at hi
    exact (List.pairwise_cons.mp hord).1 i (hi.resolve_left hic)

theorem InOrder.best_of_current (h : InOrder sys t st)
    (hc : st.pxCurrentTCB = some c) (hne : st.items (.ready 1) ≠ []) :
    c ∈ st.items (.ready 1) ∧ ∀ i ∈ st.items (.ready 1), i ≠ c →
      st.key c ≤ st.key i ∧ (st.key c = st.key i → sys.readyFirst st c i) := by
  obtain ⟨c', hmem, hcur, hbest⟩ := h.head hne
  cases hc.symm.trans hcur
  exact ⟨hmem, hbest⟩

/-- A job that is there before and after a tick keeps its key. -/
theorem TickStates.key_kept {st₁ st₂ st₃ : State}
    (h : TickStates sys t st st₁ st₂ st₃) (hi : i ∈ st₂.items (.ready 1)) :
    st₃.key i = st.key i := by
  have hlt := h.killed.shape.lt_of_ready hi
  have hr := (h.killed.mem_ready_iff hlt).mp hi
  have hwake : sys.jobAt i (t + 1) = sys.culledAt i t := by
    rw [sys.jobAt_succ, Job.wake, if_neg]
    rw [hr]
    exact fun hc => Bool.noConfusion hc.1
  rw [← (h.same_job hi).2.1, State.key, State.key,
    h.woken.shape.key i (h.woken_start hi).1, h.killed.shape.key i hi,
    h.woken.job i hlt, h.killed.job i hlt, hwake]

/-- The running job of tick `t` still exists at the end of tick `t + 1` but
does not run: the job that runs instead is more urgent. -/
theorem TickStates.displaced {st₁ st₂ st₃ st' : State}
    (h : TickStates sys t st st₁ st₂ st₃) (ho : InOrder sys t st)
    (ho' : InOrder sys (t + 1) st') (hw : st' = switched sys st₃)
    (ht : t < sys.hiperperiod) {c c' : TaskHandle}
    (hc : st.pxCurrentTCB = some c) (hc' : st'.pxCurrentTCB = some c')
    (hne : c' ≠ c) (hready : c ∈ st'.items (.ready 1))
    (hsame : (st'.tcb c).startTime = (st.tcb c).startTime) :
    st'.key c' < st'.key c := by
  obtain ⟨hmem, hbest⟩ := ho'.best_of_current hc' (List.ne_nil_of_mem hready)
  obtain ⟨hle, htie⟩ := hbest c hready (Ne.symm hne)
  have hlt := ho'.shape.lt_of_ready hready
  have hmem₃ : c' ∈ st₃.items (.ready 1) := by rwa [hw] at hmem
  have hready₃ : c ∈ st₃.items (.ready 1) := by rwa [hw] at hready
  have hstart : (st₃.tcb c).startTime = (st.tcb c).startTime := by
    rwa [hw] at hsame
  have hbound := (h.follows.shape.bounds c hlt).start_le
  have hold : c ∈ st₂.items (.ready 1) := by
    by_contra hnew
    have := h.woken_new hready₃ hnew
    omega
  -- a tie would say that `c'` was ready before `c`, which ran
  refine Nat.lt_of_le_of_ne hle fun he => ?_
  have hfirst : sys.readyFirst st₃ c' c := by
    have hfirst := htie he
    rwa [hw] at hfirst
  by_cases hold' : c' ∈ st₂.items (.ready 1)
  · obtain ⟨hst, -, -⟩ := h.same_job hold
    obtain ⟨hst', -, hs'⟩ := h.same_job hold'
    obtain ⟨-, hbest⟩ := ho.best_of_current hc (List.ne_nil_of_mem hst)
    have hkey : st.key c = st.key c' := by
      rw [hw] at he
      rw [← h.key_kept hold, ← h.key_kept hold']
      exact he.symm
    have hback : sys.readyFirst st c' c := by
      refine (readyFirst_congr ?_ hstart).mp hfirst
      rw [(h.woken_start hold').2.1, hs']
    exact readyFirst_asymm (by omega) ((hbest c' hst' hne).2 hkey) hback
  · have hnew := h.woken_new hmem₃ hold'
    rcases hfirst with hlater | ⟨hequal, -⟩ <;> omega

/-- `c` is the task to run: most urgent, and first among its equals. -/
structure Dispatched (sys : ClosedSystem) (st : State) (c : TaskHandle) :
    Prop where
  ready : c ∈ st.items (.ready 1)
  least : sys.alg ≠ .bwp →
    ∀ i ∈ st.items (.ready 1), st.deadline c ≤ st.deadline i
  redFirst : sys.alg = .bwp →
    (∃ i ∈ st.items (.ready 1), st.isRed i) → st.isRed c
  leastOfColour : sys.alg = .bwp → ∀ i ∈ st.items (.ready 1),
    (st.isRed i ↔ st.isRed c) → st.deadline c ≤ st.deadline i
  first : ∀ i ∈ st.items (.ready 1), i ≠ c →
    ¬ st.precedes sys.alg c i → sys.readyFirst st c i

theorem InOrder.dispatched (h : InOrder sys t st)
    (hd : sys.alg = .bwp →
      ∀ i ∈ st.items (.ready 1), st.deadline i < 2 ^ 30)
    (hne : st.items (.ready 1) ≠ []) :
    ∃ c, st.pxCurrentTCB = some c ∧ Dispatched sys st c := by
  obtain ⟨c, hc, hcur, hbest⟩ := h.head hne
  have hnot : ∀ i ∈ st.items (.ready 1), ¬ st.precedes sys.alg i c := by
    intro i hi hp
    rw [← key_lt_iff h.shape hi hc hd] at hp
    by_cases hic : i = c
    · subst hic
      exact Nat.lt_irrefl _ hp
    · exact absurd (hbest i hi hic).1 (Nat.not_le.mpr hp)
  refine ⟨c, hcur, hc, fun halg i hi => ?_, fun halg hex => ?_,
    fun halg i hi hcol => ?_, fun i hi hic hp => ?_⟩
  · have := hnot i hi
    unfold State.precedes at this
    generalize sys.alg = alg at *
    cases alg with
    | edf => exact Nat.not_lt.mp this
    | rto => exact Nat.not_lt.mp this
    | bwp => exact absurd rfl halg
  · obtain ⟨i, hi, hr⟩ := hex
    by_contra hcr
    have := hnot i hi
    simp only [State.precedes, halg] at this
    exact this (Or.inl ⟨hr, hcr⟩)
  · have := hnot i hi
    simp only [State.precedes, halg] at this
    exact Nat.not_lt.mp fun hlt => this (Or.inr ⟨hcol, hlt⟩)
  · rw [← key_lt_iff h.shape hc hi hd] at hp
    obtain ⟨hle, htie⟩ := hbest i hi hic
    exact htie (Nat.le_antisymm hle (Nat.not_lt.mp hp))

theorem switch_selects (h : Shape sys t st) :
    ∃ p, selectTopPriority st st.uxTopReadyPriority = .ok p ∧
      st.items (.ready p) ≠ [] := by
  refine ⟨_, selectTopPriority_eq h _, ?_⟩
  split
  · next hc => exact hc.1
  · rw [h.idleList]
    exact List.cons_ne_nil _ _

/-- The dispatch law, at every tick before the exit. -/
theorem dispatch_law (sys : ClosedSystem)
    (hd : ∀ t < sys.hiperperiod, ∀ st, sys.run t = .ok st →
      ∀ i ∈ st.items (.ready 1), st.deadline i < 2 ^ 30) :
    (∀ t < sys.hiperperiod, ∃ st, sys.run t = .ok st ∧
      (st.items (.ready 1) ≠ [] →
        ∃ c, st.pxCurrentTCB = some c ∧ Dispatched sys st c)) ∧
    (∀ t, t + 1 < sys.hiperperiod → ∃ st st₃ st', sys.run t = .ok st ∧
      sys.afterWake t = .ok st₃ ∧ sys.run (t + 1) = .ok st' ∧
      (∃ p, selectTopPriority st₃ st₃.uxTopReadyPriority = .ok p ∧
        st₃.items (.ready p) ≠ []) ∧
      ∀ c c', st.pxCurrentTCB = some c → st'.pxCurrentTCB = some c' → c' ≠ c →
        c ∈ st'.items (.ready 1) →
        (st'.tcb c).startTime = (st.tcb c).startTime →
        st'.precedes sys.alg c' c) := by
  constructor
  · intro t ht
    obtain ⟨st, hrun, h⟩ := run_inOrder sys ht
    exact ⟨st, hrun, h.dispatched fun _ => hd t ht st hrun⟩
  · intro t ht
    obtain ⟨st, hrun, ho⟩ := run_inOrder sys (show t < sys.hiperperiod by omega)
    obtain ⟨st₁, st₂, st₃, h⟩ := tick_states_of_run (by omega) hrun
    obtain ⟨st', hrun', ho'⟩ := run_inOrder sys ht
    have hw : st' = switched sys st₃ := by
      have hnext := h.run_succ ht
      rw [hrun', vTaskSwitchContext_eq h.woken.shape] at hnext
      cases hnext
      rfl
    refine ⟨st, st₃, st', hrun, h.afterWake, hrun', switch_selects h.woken.shape,
      fun c c' hc hc' hne hready hsame => ?_⟩
    have hlt := h.displaced ho ho' hw (by omega) hc hc' hne hready hsame
    obtain ⟨hmem, -⟩ := ho'.best_of_current hc' (List.ne_nil_of_mem hready)
    exact (key_lt_iff ho'.shape hmem hready fun _ => hd _ ht st' hrun').mp hlt

/-- Every absolute deadline of the run is at most the hyperperiod. -/
theorem deadline_le_hiperperiod (ht : t < sys.hiperperiod)
    (hrun : sys.run t = .ok st) (hi : i ∈ st.items (.ready 1)) :
    st.deadline i ≤ sys.hiperperiod := by
  have h := follows_of_run ht hrun
  have hlt := h.shape.lt_of_ready hi
  rw [deadline_eq h.shape hlt, h.job i hlt, (sys.fitsAt i t).start_eq]
  exact sys.due_le hlt ht

theorem dispatch_law_twoTasks :
    (∀ t < 4, ∃ st, (twoTasks .bwp).run t = .ok st ∧
      (st.items (.ready 1) ≠ [] →
        ∃ c, st.pxCurrentTCB = some c ∧ Dispatched (twoTasks .bwp) st c)) ∧
    (∀ t, t + 1 < 4 → ∃ st st₃ st', (twoTasks .bwp).run t = .ok st ∧
      (twoTasks .bwp).afterWake t = .ok st₃ ∧
      (twoTasks .bwp).run (t + 1) = .ok st' ∧
      (∃ p, selectTopPriority st₃ st₃.uxTopReadyPriority = .ok p ∧
        st₃.items (.ready p) ≠ []) ∧
      ∀ c c', st.pxCurrentTCB = some c → st'.pxCurrentTCB = some c' → c' ≠ c →
        c ∈ st'.items (.ready 1) →
        (st'.tcb c).startTime = (st.tcb c).startTime →
        st'.precedes .bwp c' c) :=
  dispatch_law (twoTasks .bwp) fun _ ht _ hrun _ hi =>
    Nat.lt_of_le_of_lt (deadline_le_hiperperiod ht hrun hi) (by decide)

end FreeRtosSim
