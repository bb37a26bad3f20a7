import FreeRtosSim.Proofs.Ranked

/-!
# Deadlines above priority 1

At priority 1 a job that has become hopeless is taken out of the ready list,
so its task is there to be released at the next multiple of its period. Above
that nothing takes it out. A run is as it should be up to a tick exactly when,
in every tick before, the jobs above priority 1 that had no slack left were
running: what `Proofs.Slack` says of one block is carried along the run, and a
job that fails the condition is found hopeless in its ready list a tick later.
-/

namespace FreeRtosSim

variable {sys : PrioritySystem} {st st₁ : State} {t i : Nat}

/-- Between two ticks, with every task where it should be. -/
structure Faultless (sys : PrioritySystem) (t : Nat) (st : State) : Prop extends
    Ongoing sys t st where
  tasks : ∀ i < sys.taskCnt, Standing (sys.task i) t (st.block i)

theorem PrioritySystem.mem_allTasks (sys : PrioritySystem) (hi : i < sys.taskCnt) :
    i ∈ sys.allTasks :=
  List.mem_cons_of_mem _ (List.mem_cons_of_mem _ (mem_createdTasks.mpr hi))

theorem Ongoing.mem_ready (h : Ongoing sys t st) (hi : i < sys.taskCnt) {p : Nat} :
    i ∈ st.items (.ready p) ↔ (st.block i).pxContainer = some (.ready p) :=
  (h.linked.linked _ (by simp) i).trans (and_iff_right (sys.mem_allTasks hi))

theorem hopeless_iff_block (hp : 0 < (st.block i).uxPriority) :
    hopeless st i = true ↔ isHopeless st.xTickCount (st.block i) := by
  rw [hopeless, isHopeless, decide_eq_true_iff]
  exact (and_iff_right hp).symm

theorem Standing.priority_pos {p : PriorityTask} {b : TCB} (h : Standing p t b) :
    0 < b.uxPriority := by
  rw [h.priority]
  exact p.priority_pos

/-! ## What the condition is good for -/

theorem Faultless.enforcedIn (h : Faultless sys t st) (ht : t < 2 ^ 31) :
    sys.EnforcedIn t st where
  feasible i hi p hr := by
    have hs := h.tasks i hi
    rw [← Bool.not_eq_true, hopeless_iff_block hs.priority_pos, h.tick]
    exact hs.feasible ht ⟨p, (h.mem_ready hi).mp hr⟩
  released i hi hdue := by
    obtain ⟨hrem, hstart, hc⟩ := (h.tasks i hi).released ht hdue
    exact ⟨hrem, hstart, (h.mem_ready hi).mpr hc⟩

/-- A tick in which the jobs without slack run. -/
theorem Faultless.next (h : Faultless sys t st) (ht : (t : Int) + 1 < sys.sim.hiperperiod)
    (hslack : sys.LastSlackRuns st) :
    ∃ st', vPortSystemTickHandler sys.alg st = .ok st' ∧ Faultless sys (t + 1) st' := by
  have hlt := sys.hiperperiod_lt
  obtain ⟨st', hok, hnext, hblock⟩ := h.toOngoing.next ht
  refine ⟨st', hok, { hnext with tasks := fun i hi => ?_ }⟩
  have hs := h.tasks i hi
  have hcharged : Charged (sys.task i) (t + 1) (if st.pxCurrentTCB = some i then
      chargeBlock (t + 1) (st.block i) else st.block i) := by
    split
    · next hc => exact hs.charge (by omega) (h.running i hc)
    · next hc =>
        refine hs.passedBy fun hp hr hper heq => hc ?_
        refine hslack i hi _ hp ((h.mem_ready hi).mpr hr) ?_ ?_
        · exact (show (st.tcb i).xTaskPeriod = _ from hs.period) ▸ hper
        · rw [h.tick, show (st.tcb i).xTaskPeriod = _ from hs.period]
          exact heq
  rw [hblock i (sys.mem_allTasks hi), tickBlock]
  exact (hcharged.reap (by omega)).rouse sys.not_rto

theorem run_succ {st : State} (h : sys.run t = .ok st) :
    sys.run (t + 1) = vPortSystemTickHandler sys.alg st := by
  rw [PrioritySystem.run, h]
  rfl

/-- The run, as long as they do. -/
theorem run_faultless (sys : PrioritySystem) :
    ∀ t : Nat, (t : Int) < sys.sim.hiperperiod →
      (∀ u < t, ∀ st, sys.run u = .ok st → sys.LastSlackRuns st) →
      ∃ st, sys.run t = .ok st ∧ Faultless sys t st := by
  intro t
  induction t with
  | zero =>
      intro _ _
      obtain ⟨st, hok, hgoing, htasks⟩ := run_zero_ongoing sys
      exact ⟨st, hok, { hgoing with tasks := htasks }⟩
  | succ t ih =>
      intro ht hslack
      rw [Int.natCast_succ] at ht
      obtain ⟨st, hok, h⟩ := ih (by omega) fun u hu =>
        hslack u (Nat.lt_succ_of_lt hu)
      obtain ⟨st', hok', h'⟩ := h.next ht (hslack t (Nat.lt_succ_self t) st hok)
      exact ⟨st', (run_succ hok).trans hok', h'⟩

/-! ## What fails without it -/

/-- A job without slack that does not run stays where it is and is hopeless
when the tick has been counted. -/
theorem Faultless.slack_runs (h : Faultless sys t st) (hok : sys.run t = .ok st)
    (ht : (t : Int) + 1 < sys.sim.hiperperiod) (he : sys.Enforced (t + 1)) :
    sys.LastSlackRuns st := by
  intro i hi p hp hr hper heq
  by_contra hcur
  have hlt := sys.hiperperiod_lt
  obtain ⟨st', hok', hnext, hblock⟩ := h.toOngoing.next ht
  have hs := h.tasks i hi
  have hc := (h.mem_ready hi).mp hr
  have hsame : st'.block i = st.block i := by
    have hone : some (ListId.ready p) ≠ some (.ready 1) := by
      simpa using Nat.ne_of_gt hp
    rw [hblock i (sys.mem_allTasks hi), tickBlock, if_neg hcur, reapBlock,
      if_neg (by rw [hc]; exact hone), rouseBlock, if_neg (by rw [hc]; simp)]
  obtain ⟨st'', hok'', henf⟩ := he
  have hst : st'' = st' := by
    rw [run_succ hok, hok', Except.ok.injEq] at hok''
    exact hok''.symm
  subst hst
  have hfine := henf.feasible i hi p ((hnext.mem_ready hi).mpr (by rw [hsame]; exact hc))
  rw [← Bool.not_eq_true, hopeless_iff_block (by rw [hsame]; exact hs.priority_pos), hnext.tick,
    hsame] at hfine
  obtain ⟨hj, -⟩ := hs.working ⟨p, hc⟩
  have hbegun := hj.begun
  have hlate : Working (sys.task i) (t + 1) 1 (st.block i) :=
    { hj with
      begun := by omega
      inTime := fun hm => by
        have := hj.inTime hm
        omega }
  rw [hlate.isHopeless_iff hs.toSuits (by omega) (Nat.le_refl 1)] at hfine
  have hperiod : (st.tcb i).xTaskPeriod = (sys.task i).period := hs.period
  rw [hperiod] at hper heq
  rw [h.tick] at heq
  refine hfine ⟨hper, ?_⟩
  show (st.tcb i).startTime + (sys.task i).period < t + 1 + (st.tcb i).xRemainingTicks
  omega

/-- Up to any tick before the end of the run. -/
theorem deadlines_enforced_iff (sys : PrioritySystem) {T : Nat}
    (hT : (T : Int) < sys.sim.hiperperiod) :
    (∀ t ≤ T, sys.Enforced t) ↔
      ∀ t < T, ∀ st, sys.run t = .ok st → sys.LastSlackRuns st := by
  have hlt := sys.hiperperiod_lt
  constructor
  · intro he t
    -- the ticks before put the run in order up to this one
    induction t using Nat.strong_induction_on with
    | _ t ih =>
        intro ht st hok
        obtain ⟨st', hok', h⟩ := run_faultless sys t (by omega) fun u hu =>
          ih u hu (Nat.lt_trans hu ht)
        rw [hok', Except.ok.injEq] at hok
        subst hok
        exact h.slack_runs hok' (by omega) (he (t + 1) ht)
  · intro hslack t ht
    obtain ⟨st, hok, h⟩ := run_faultless sys t (by omega) fun u hu =>
      hslack u (Nat.lt_of_lt_of_le hu ht)
    exact ⟨st, hok, h.enforcedIn (by omega)⟩

/-- After the first tick the second task has no slack left, and it is the one
that runs. -/
theorem deadlines_enforced_pair :
    (pairAtTwo false).Enforced 0 ∧ (pairAtTwo false).Enforced 1 ∧ (pairAtTwo false).Enforced 2 := by
  have hrun : ∀ u < 2, ((pairAtTwo false).run u).toOption.map (fun s =>
      (List.range 2).all fun j => s.xTickCount + (s.tcb j).xRemainingTicks ≠
        (s.tcb j).startTime + (s.tcb j).xTaskPeriod ∨ s.pxCurrentTCB = some j) =
      some true := by
    intro u hu
    obtain rfl | rfl : u = 0 ∨ u = 1 := by omega
    · rfl
    · rfl
  have hall : ∀ t ≤ 2, (pairAtTwo false).Enforced t := by
    refine (deadlines_enforced_iff (pairAtTwo false) (by decide)).mpr ?_
    intro t ht st hok i hi p _ _ _ heq
    have hcheck := hrun t ht
    rw [hok] at hcheck
    have hi' := List.all_eq_true.mp (Option.some_inj.mp hcheck) i (List.mem_range.mpr hi)
    exact (of_decide_eq_true hi').resolve_left (not_not.mpr heq)
  exact ⟨hall 0 (by omega), hall 1 (by omega), hall 2 (by omega)⟩

/-- The second task is hopeless after the first tick and stays ready; when the
third period begins no task has a new job. -/
theorem full_pair_not_enforced : ∃ st₁ st₄,
    (pairAtTwo true).run 1 = .ok st₁ ∧ 1 ∈ st₁.items (.ready 2) ∧ hopeless st₁ 1 = true ∧
    (pairAtTwo true).run 4 = .ok st₄ ∧ st₄.items (.ready 2) = [1, 0] ∧
    (st₄.tcb 0).startTime = 2 ∧ (st₄.tcb 1).startTime = 0 ∧
    ¬ (pairAtTwo true).Enforced 1 ∧ ¬ (pairAtTwo true).Enforced 4 := by
  have hone : ((pairAtTwo true).run 1).toOption.map (fun s =>
      (s.items (.ready 2), hopeless s 1)) = some ([0, 1], true) := by rfl
  have hfour : ((pairAtTwo true).run 4).toOption.map (fun s =>
      (s.items (.ready 2), (s.tcb 0).startTime, (s.tcb 1).startTime)) =
      some ([1, 0], 2, 0) := by rfl
  obtain ⟨st₁, hopt₁, heq₁⟩ := Option.map_eq_some_iff.mp hone
  obtain ⟨st₄, hopt₄, heq₄⟩ := Option.map_eq_some_iff.mp hfour
  simp only [Prod.mk.injEq] at heq₁ heq₄
  obtain ⟨hready₁, hlate⟩ := heq₁
  obtain ⟨hready₄, hzero, hother⟩ := heq₄
  have hok₁ := ok_of_toOption hopt₁
  have hok₄ := ok_of_toOption hopt₄
  have hmem : 1 ∈ st₁.items (.ready 2) := by
    rw [hready₁]
    simp
  refine ⟨st₁, st₄, hok₁, hmem, hlate, hok₄, hready₄, hzero, hother, ?_, ?_⟩
  · rintro ⟨st, hok, he⟩
    rw [hok₁, Except.ok.injEq] at hok
    subst hok
    have hfine := he.feasible 1 (Nat.lt_succ_self 1) 2 hmem
    rw [hlate] at hfine
    exact Bool.noConfusion hfine
  · rintro ⟨st, hok, he⟩
    rw [hok₄, Except.ok.injEq] at hok
    subst hok
    have hstart := (he.released 0 (Nat.zero_lt_succ 1) rfl).start
    rw [hzero] at hstart
    exact absurd hstart (by omega)

end FreeRtosSim
