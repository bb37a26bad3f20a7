import FreeRtosSim.Proofs.Advance
import FreeRtosSim.Sim.Ledger

/-!
# No job is credited twice

The accounting credits whatever runs with no ticks left before its deadline,
so a task that still runs after its job is done is credited again. In a run
in which that does not happen to a task, every increment of its counter is
for another job, and for one that has run out of ticks since the counter was
last reset.
-/

namespace FreeRtosSim

variable {created new : List TaskHandle} {alg : Algorithm} {st st₁ st₂ : State}
  {x : TaskHandle} {heap : TaskHandle → TCB} {sim : Simulator}
  {hist : List (System × Call)} {s : System} {c : Call} {a : Account} {b : TCB}

/-- The job has ticks left, or its deadline is over. -/
def Unpaid (tick : Nat) (b : TCB) : Prop :=
  b.xTaskPeriod ≠ 0 → b.weaklyHardConstraint ≠ 0 → b.xRemainingTicks = 0 →
    tickSub tick b.startTime > b.xTaskPeriod

/-- The tick that begins in `st` is not charged to a job of `x` that is done in
time. -/
def RunsUnpaid (x : TaskHandle) (st : State) : Prop :=
  st.pxCurrentTCB = some x → Unpaid (tickAdd st.xTickCount 1) (st.tcb x)

instance (x : TaskHandle) (st : State) : Decidable (RunsUnpaid x st) := by
  unfold RunsUnpaid Unpaid
  infer_instance

theorem Unpaid.core {tick : Nat} {b b' : TCB} (h : Unpaid tick b)
    (hc : b'.core = b.core) : Unpaid tick b' := by
  have hread : ∀ b : TCB, Unpaid tick b ↔ Unpaid tick b.core := fun _ => Iff.rfl
  rw [hread, hc, ← hread]
  exact h

/-! ## The account and the block -/

/-- The account agrees with the block it is about. -/
structure Account.Fits (a : Account) (b : TCB) : Prop where
  once : a.credited.Nodup
  begun : ∀ j ∈ a.credited, 1 ≤ j ∧ j ≤ a.jobs
  current : b.xRemainingTicks ≠ 0 → a.jobs ∉ a.credited
  jobs : 1 ≤ a.jobs
  since : a.since.Sublist a.credited
  finished : a.since ⊆ a.finished
  met : b.previousDeadlineMet = a.since.length % 2 ^ 8

/-- It is about the counter and the ticks left only. -/
theorem Account.Fits.congr {b' : TCB} (h : a.Fits b)
    (hr : b'.xRemainingTicks = b.xRemainingTicks)
    (hm : b'.previousDeadlineMet = b.previousDeadlineMet) : a.Fits b' :=
  { h with
    current := fun hne => h.current (hr ▸ hne)
    met := hm.trans h.met }

theorem Account.Fits.core {b' : TCB} (h : a.Fits b) (hc : b'.core = b.core) :
    a.Fits b' :=
  h.congr (congrArg TCB.xRemainingTicks hc : b'.core.xRemainingTicks = _)
    (congrArg TCB.previousDeadlineMet hc : b'.core.previousDeadlineMet = _)

theorem Account.opened_fits (h : b.previousDeadlineMet = 0) :
    Account.opened.Fits b where
  once := List.nodup_nil
  begun _ hj := absurd hj List.not_mem_nil
  current _ := List.not_mem_nil
  jobs := Nat.le_refl 1
  since := List.Sublist.refl _
  finished _ hj := absurd hj List.not_mem_nil
  met := h

theorem Account.Fits.reset {b' : TCB} (h : a.Fits b)
    (hr : b'.xRemainingTicks = b.xRemainingTicks)
    (hm : b'.previousDeadlineMet = 0) : a.reset.Fits b' :=
  { h with
    current := fun hne => h.current (hr ▸ hne)
    since := List.nil_sublist _
    finished := fun _ hj => absurd hj List.not_mem_nil
    met := hm }

/-- A new job has not been credited. -/
theorem Account.Fits.begin {b' : TCB} (h : a.Fits b)
    (hm : b'.previousDeadlineMet = b.previousDeadlineMet) : a.begin.Fits b' :=
  { h with
    begun := fun j hj => ⟨(h.begun j hj).1, Nat.le_succ_of_le (h.begun j hj).2⟩
    current := fun _ hj => Nat.not_succ_le_self _ (h.begun _ hj).2
    jobs := Nat.le_succ_of_le h.jobs
    met := hm.trans h.met }

theorem Account.Fits.finish (h : a.Fits b) : a.finish.Fits b :=
  { h with finished := fun _ hj => List.mem_cons_of_mem _ (h.finished hj) }

/-- The job at hand ran out of ticks and is credited for it. -/
theorem Account.Fits.credit {b' : TCB} (h : a.Fits b) (hb : b.xRemainingTicks ≠ 0)
    (hb' : b'.xRemainingTicks = 0)
    (hm : b'.previousDeadlineMet = (b.previousDeadlineMet + 1) % 2 ^ 8) :
    a.finish.credit.Fits b' where
  once := List.nodup_cons.mpr ⟨h.current hb, h.once⟩
  begun j hj := by
    rcases List.mem_cons.mp hj with rfl | hj
    · exact ⟨h.jobs, Nat.le_refl _⟩
    · exact h.begun j hj
  current hne := absurd hb' hne
  jobs := h.jobs
  since := h.since.cons_cons a.jobs
  finished := List.cons_subset_cons _ h.finished
  met := by
    have hlen : a.finish.credit.since.length = a.since.length + 1 := rfl
    rw [hm, h.met, hlen]
    omega

/-! ## The parts of a tick -/

theorem completeBlock_remaining (tick : Nat) (b : TCB) :
    (completeBlock tick b).xRemainingTicks = b.xRemainingTicks := by
  rw [completeBlock]
  split
  · rfl
  · rfl

/-- The counter goes up for a job in time of a task with a constraint. -/
theorem completeBlock_met (tick : Nat) (b : TCB) :
    (completeBlock tick b).previousDeadlineMet =
      if tickSub tick b.startTime ≤ b.xTaskPeriod ∧ b.weaklyHardConstraint ≠ 0 then
        (b.previousDeadlineMet + 1) % 2 ^ 8
      else b.previousDeadlineMet := by
  by_cases hin : tickSub tick b.startTime ≤ b.xTaskPeriod
  · by_cases hc : b.weaklyHardConstraint = 0 <;> simp [completeBlock, hin, hc]
  · simp [completeBlock, hin]

/-- Nothing happened that the account records. -/
theorem Account.charge_idle {b' : TCB}
    (hr : b'.xRemainingTicks = 0 → b.xRemainingTicks = 0)
    (hm : b'.previousDeadlineMet = b.previousDeadlineMet) :
    a.charge b b' = a := by
  have hno : ¬ (b.xRemainingTicks > 0 ∧ b'.xRemainingTicks = 0) := fun h =>
    Nat.pos_iff_ne_zero.mp h.1 (hr h.2)
  simp only [Account.charge, if_neg hno, hm, ne_eq, not_true_eq_false, if_false]

theorem Account.Fits.charge (h : a.Fits b) {tick : Nat}
    (hlate : Unpaid tick b) :
    (a.charge b (chargeBlock tick b)).Fits (chargeBlock tick b) := by
  have hlt : b.previousDeadlineMet < 2 ^ 8 := by
    rw [h.met]
    exact Nat.mod_lt _ (by decide)
  rw [chargeBlock]
  by_cases hp : b.xTaskPeriod ≠ 0
  · rw [if_pos hp]
    dsimp only
    by_cases hz : b.xRemainingTicks - 1 = 0
    · rw [if_pos hz]
      have hrem := completeBlock_remaining tick
        { b with xRemainingTicks := b.xRemainingTicks - 1 }
      have hmet := completeBlock_met tick
        { b with xRemainingTicks := b.xRemainingTicks - 1 }
      generalize completeBlock tick
        { b with xRemainingTicks := b.xRemainingTicks - 1 } = b' at hrem hmet ⊢
      dsimp only at hrem hmet
      by_cases hr : b.xRemainingTicks = 0
      · -- the job was done before: it is late, or the task has no constraint
        have hm : b'.previousDeadlineMet = b.previousDeadlineMet := by
          rw [hmet, if_neg]
          rintro ⟨hin, hc⟩
          exact absurd hin (Nat.not_le.mpr (hlate hp hc hr))
        rw [Account.charge_idle (fun _ => hr) hm]
        exact h.congr (by omega) hm
      · have hz' : b'.xRemainingTicks = 0 := hrem.trans hz
        have hdone : b.xRemainingTicks > 0 ∧ b'.xRemainingTicks = 0 :=
          ⟨Nat.pos_of_ne_zero hr, hz'⟩
        rw [Account.charge, if_pos hdone]
        split at hmet
        · rw [if_pos (by omega)]
          exact h.credit hr hz' hmet
        · rw [if_neg fun hne => hne hmet]
          exact { h.finish with
            current := fun hne => absurd hz' hne
            met := hmet.trans h.met }
    · have hidle : a.charge b { b with xRemainingTicks := b.xRemainingTicks - 1 } = a :=
        Account.charge_idle (fun hz' => absurd hz' hz) rfl
      rw [if_neg hz, hidle]
      exact { h with current := fun _ => h.current (by omega) }
  · rw [if_neg hp, Account.charge_idle id rfl]
    exact h

theorem Account.Fits.block (h : a.Fits (st.tcb x)) : a.Fits (st.block x) :=
  h.congr rfl rfl

theorem Account.Fits.of_block (h : a.Fits (st.block x)) : a.Fits (st.tcb x) :=
  h.congr rfl rfl

theorem Account.Fits.chargeCurrent (h : a.Fits (st.tcb x))
    (hl : WellLinked created st)
    (hlate : st.pxCurrentTCB = some x → Unpaid st.xTickCount (st.tcb x)) :
    (a.charge (st.tcb x) ((FreeRtosSim.chargeCurrent st).tcb x)).Fits
      ((FreeRtosSim.chargeCurrent st).tcb x) := by
  obtain ⟨-, -, hb⟩ := chargeCurrent_pass hl
  have hx := hb x
  have hread : a.charge (st.tcb x) ((FreeRtosSim.chargeCurrent st).tcb x) =
      a.charge (st.block x) ((FreeRtosSim.chargeCurrent st).block x) := rfl
  rw [hread]
  refine Account.Fits.of_block ?_
  rw [hx]
  split
  · next hc => exact h.block.charge (hlate hc)
  · rw [Account.charge_idle id rfl]
    exact h.block

theorem Account.Fits.killTasks (h : a.Fits (st.tcb x))
    (hl : WellLinked created st) :
    (a.kill x st).Fits ((FreeRtosSim.killTasks st).tcb x) := by
  obtain ⟨-, -, hb⟩ := killTasks_pass hl
  refine Account.Fits.of_block ?_
  rw [hb x, Account.kill]
  by_cases hin : x ∈ st.items (.ready 1)
  · rw [if_pos hin, killBlock]
    by_cases hk : isHopeless st.xTickCount (st.block x)
    · have hk' : x ∈ st.items (.ready 1) ∧ (st.tcb x).uxPriority > 0 ∧
          hopeless st x = true := ⟨hin, hk.1, decide_eq_true hk.2⟩
      rw [if_pos hk, if_pos hk']
      exact h.block.reset rfl rfl
    · rw [if_neg hk, if_neg fun h' => hk ⟨h'.2.1, of_decide_eq_true h'.2.2⟩]
      exact h.block
  · rw [if_neg hin, if_neg fun h' => hin h'.1]
    exact h.block

theorem Account.Fits.wakeTasks (h : a.Fits (st.tcb x)) (alg : Algorithm)
    (hl : WellLinked created st) :
    (a.wake alg x st).Fits ((FreeRtosSim.wakeTasks alg st).tcb x) := by
  obtain ⟨-, -, hb⟩ := wakeTasks_pass hl alg
  refine Account.Fits.of_block ?_
  rw [hb x, Account.wake]
  by_cases hin : x ∈ st.items .wait
  · rw [if_pos hin, wakeBlock]
    by_cases hd : isDue st.xTickCount (st.block x)
    · have hd' : x ∈ st.items .wait ∧ (st.tcb x).uxPriority > 0 ∧
          st.xTickCount % (st.tcb x).xTaskPeriod = 0 := ⟨hin, hd⟩
      rw [if_pos hd, if_pos hd']
      by_cases hpass : passedOver alg (st.block x)
      · have hpass' : alg = .rto ∧ (st.tcb x).weaklyHardConstraint ≠ 0 ∧
            ((st.tcb x).previousDeadlineMet : Int) ≥
              ((st.tcb x).weaklyHardConstraint : Int) - 1 := hpass
        rw [if_pos hpass, if_pos hpass']
        have hbegun : a.begin.Fits { st.block x with
            xRemainingTicks := (st.block x).xTaskDuration } := h.begin rfl
        exact hbegun.reset rfl rfl
      · have hpass' : ¬ (alg = .rto ∧ (st.tcb x).weaklyHardConstraint ≠ 0 ∧
            ((st.tcb x).previousDeadlineMet : Int) ≥
              ((st.tcb x).weaklyHardConstraint : Int) - 1) := hpass
        rw [if_neg hpass, if_neg hpass']
        exact h.begin rfl
    · rw [if_neg hd, if_neg fun h' => hd h'.2]
      exact h.block
  · rw [if_neg hin, if_neg fun h' => hin h'.1]
    exact h.block

theorem Account.Fits.tick (h : a.Fits (st.tcb x)) (ht : Ticking created st)
    (hc : RunsUnpaid x st) :
    (∃ b, (a.tick alg x st).Fits b) ∧
    ∀ sw st', xTaskIncrementTick alg st = .ok (sw, st') →
      (a.tick alg x st).Fits (st'.tcb x) := by
  rw [Account.tick]
  cases hpro : tickPrologue alg st with
  | error e =>
      refine ⟨⟨_, h⟩, fun sw st' hok => ?_⟩
      obtain ⟨st₂, hk, -⟩ := xTaskIncrementTick_ok ht.suspended hok
      rw [killEntry, hpro] at hk
      exact absurd hk (by simp)
  | ok r =>
      obtain ⟨sw₁, st₁⟩ := r
      have hp := tickPrologue_ok ht.linked ht.nonePending hpro
      have hcore := hp.core x
      have hlate : st₁.pxCurrentTCB = some x → Unpaid st₁.xTickCount (st₁.tcb x) := by
        rw [hp.current, hp.tick]
        exact fun hcur => (hc hcur).core hcore
      have h₁ := (h.core hcore).chargeCurrent hp.linked hlate
      obtain ⟨hl₁, -, -⟩ := chargeCurrent_pass hp.linked
      have h₂ := h₁.killTasks hl₁
      obtain ⟨hl₂, -, -⟩ := killTasks_pass hl₁
      have h₃ := h₂.wakeTasks alg hl₂
      by_cases hexit : atHiperPeriod (FreeRtosSim.chargeCurrent st₁)
      · dsimp only
        rw [if_pos hexit]
        refine ⟨⟨_, h₁⟩, fun sw st' hok => ?_⟩
        obtain ⟨st₂, hk, -⟩ := xTaskIncrementTick_ok ht.suspended hok
        rw [killEntry, hpro] at hk
        exact absurd hk (by simp [hexit])
      · dsimp only
        rw [if_neg hexit]
        refine ⟨⟨_, h₃⟩, fun sw st' hok => ?_⟩
        obtain ⟨st₂, hk, heq⟩ := xTaskIncrementTick_ok ht.suspended hok
        rw [killEntry, hpro] at hk
        dsimp only at hk
        rw [if_neg hexit, Option.some.injEq] at hk
        rw [heq, ← hk]
        exact h₃

/-! ## Runs -/

theorem Account.Fits.advance {l : List State} (h : a.Fits (st.tcb x))
    (hx : x ∉ new) (ha : Advance alg created new st l st₁)
    (hc : ∀ e ∈ l, RunsUnpaid x e) : (a.ticks alg x l).Fits (st₁.tcb x) := by
  induction ha with
  | refl => exact h
  | carry _ hcar ih => exact (ih hc).core (hcar.core x hx)
  | @tick l sw e st' _ ht hok ih =>
      have he := ih fun e he => hc e (List.mem_append_left _ he)
      have hlast := hc e (List.mem_append_right _ (List.mem_singleton_self e))
      rw [Account.ticks, List.foldl_append]
      exact (he.tick ht hlast).2 sw st' hok

/-- The block of a new periodic task. -/
theorem newPeriodic_met (h : Settled s.created s.kernel) (hal : c.Allowed s)
    (hx : x ∈ c.newPeriodic) (hok : c.exec alg s.kernel = .ok st) :
    (st.tcb x).previousDeadlineMet = 0 := by
  cases c with
  | createPeriodic y id p period duration constraint =>
      rw [List.mem_singleton.mp hx]
      have he := create_enrolled h.linked h.number hal.1 hok
      have hcore := congrArg TCB.previousDeadlineMet (he.core y)
      simpa [TCB.core] using hcore
  | _ => exact absurd hx List.not_mem_nil

/-- The account of a periodic task agrees with its block throughout a run. -/
theorem Run.account_fits (h : Run alg heap sim hist s) (hx : x ∈ periodicTasks hist)
    (hc : ∀ e ∈ hist, ∀ t ∈ e.2.ticks alg e.1.kernel, RunsUnpaid x t) :
    x ∈ s.created ∧ (account alg x hist).Fits (s.kernel.tcb x) := by
  induction h with
  | boot => exact absurd hx List.not_mem_nil
  | @call hist s c st hrun hal hok ih =>
      obtain ⟨hlast, hbefore⟩ := List.forall_mem_cons.mp hc
      rw [account, Account.call]
      by_cases hnew : x ∈ c.newPeriodic
      · rw [if_pos hnew]
        refine ⟨mem_createdAfter.mpr (Or.inl hnew), Account.opened_fits ?_⟩
        exact newPeriodic_met hrun.settled hal hnew hok
      · rw [if_neg hnew]
        rw [periodicTasks, List.flatMap_cons, List.mem_append] at hx
        obtain ⟨hxc, hfits⟩ := ih (hx.resolve_left hnew) hbefore
        refine ⟨mem_createdAfter.mpr (Or.inr (Or.inr hxc)), ?_⟩
        exact hfits.advance hnew ((exec_advance hrun.settled hal).2 st hok) hlast

/-- So do the ticks of a call that has begun. -/
theorem Account.Fits.pending {l : List State} (h : a.Fits (s.kernel.tcb x))
    (hs : Settled s.created s.kernel) (hx : x ∈ s.created) (hal : c.Allowed s)
    (hl : l <+: c.ticks alg s.kernel) (hc : ∀ e ∈ l, RunsUnpaid x e) :
    ∃ b, (a.ticks alg x l).Fits b := by
  obtain ⟨rest, hrest⟩ := hl
  rcases List.eq_nil_or_concat l with rfl | ⟨l₁, e, rfl⟩
  · exact ⟨_, h⟩
  · rw [List.concat_eq_append] at hrest hc ⊢
    rw [List.append_assoc] at hrest
    obtain ⟨hadv, htick⟩ := (exec_advance hs hal).1 l₁ e rest hrest.symm
    have hnew : x ∉ c.newPeriodic := fun hnew => newPeriodic_fresh hal hnew hx
    have he := h.advance hnew hadv fun t ht => hc t (List.mem_append_left _ ht)
    have hlast := hc e (List.mem_append_right _ (List.mem_singleton_self e))
    rw [Account.ticks, List.foldl_append]
    exact (he.tick htick hlast).1

/-- As many increments as the account has jobs, each for another one. -/
theorem Account.Fits.since_le (h : a.Fits b) :
    a.since.length ≤ a.finished.toFinset.card ∧ a.since.length ≤ a.jobs := by
  have hnd : a.since.Nodup := h.since.nodup h.once
  have hcard : a.since.toFinset.card = a.since.length := List.toFinset_card_of_nodup hnd
  refine ⟨hcard ▸ Finset.card_le_card fun j hj => ?_, ?_⟩
  · exact List.mem_toFinset.mpr (h.finished (List.mem_toFinset.mp hj))
  · have hsub : a.since.toFinset ⊆ Finset.Icc 1 a.jobs := fun j hj =>
      Finset.mem_Icc.mpr (h.begun j (h.since.subset (List.mem_toFinset.mp hj)))
    have hle := Finset.card_le_card hsub
    rw [hcard, Nat.card_Icc] at hle
    omega

/-- If no tick of a run was charged to a job of `x` that was done in time, each
job raised the counter once at most, and the counter has gone up by no more
than the number of jobs that ran out of ticks since it was reset; the ticks of
a call that is under way included. -/
theorem credited_once {l : List State} (h : Run alg heap sim hist s)
    (hx : x ∈ periodicTasks hist) (hal : c.Allowed s)
    (hl : l <+: c.ticks alg s.kernel)
    (hhist : ∀ e ∈ hist, ∀ t ∈ e.2.ticks alg e.1.kernel, RunsUnpaid x t)
    (hpend : ∀ t ∈ l, RunsUnpaid x t) :
    (∀ j, ((account alg x hist).ticks alg x l).credited.count j ≤ 1) ∧
    ((account alg x hist).ticks alg x l).since.length ≤
      ((account alg x hist).ticks alg x l).finished.toFinset.card ∧
    ((account alg x hist).jobs < 2 ^ 8 →
      (s.kernel.tcb x).previousDeadlineMet = (account alg x hist).since.length) := by
  obtain ⟨hxc, hfits⟩ := h.account_fits hx hhist
  obtain ⟨b, hb⟩ := hfits.pending h.settled hxc hal hl hpend
  refine ⟨fun j => List.nodup_iff_count_le_one.mp hb.once j, hb.since_le.1, fun hlt => ?_⟩
  rw [hfits.met, Nat.mod_eq_of_lt (Nat.lt_of_le_of_lt hfits.since_le.2 hlt)]

/-- A task completes two jobs; the tick that begins the second period is under
way. -/
theorem credited_once_running : ∃ hist s,
    sampleRun .edf [.createPeriodic 0 0 1 2 1 3, .startScheduler 1 2,
      .placeOnEventList portMaxDelay, .yield, .tick, .tick] = some (hist, s) ∧
    (∀ j, ((account .edf 0 hist).ticks .edf 0 [s.kernel]).credited.count j ≤ 1) ∧
    ((account .edf 0 hist).ticks .edf 0 [s.kernel]).since.length ≤
      ((account .edf 0 hist).ticks .edf 0 [s.kernel]).finished.toFinset.card ∧
    ((account .edf 0 hist).jobs < 2 ^ 8 →
      (s.kernel.tcb 0).previousDeadlineMet = (account .edf 0 hist).since.length) := by
  have hrun : (sampleRun .edf [.createPeriodic 0 0 1 2 1 3, .startScheduler 1 2,
      .placeOnEventList portMaxDelay, .yield, .tick, .tick]).map (fun r =>
        (decide (0 ∈ periodicTasks r.1), r.2.kernel.uxSchedulerSuspended,
          decide (∀ e ∈ r.1, ∀ t ∈ e.2.ticks .edf e.1.kernel, RunsUnpaid 0 t),
          decide (RunsUnpaid 0 r.2.kernel))) = some (true, 0, true, true) := by rfl
  obtain ⟨⟨hist, s⟩, hs, heq⟩ := Option.map_eq_some_iff.mp hrun
  simp only [Prod.mk.injEq, decide_eq_true_eq] at heq
  obtain ⟨hx, hz, hhist, hnow⟩ := heq
  refine ⟨hist, s, hs, credited_once (c := .tick) (sampleRun_run hs) hx trivial ?_ hhist ?_⟩
  · rw [show Call.tick.ticks .edf s.kernel = [s.kernel] from if_pos hz]
  · intro t ht
    rw [List.mem_singleton.mp ht]
    exact hnow

/-- The replay of two ticks charges the second to a job that the first has
completed. -/
theorem job_credited_twice : ∃ hist s,
    Run .edf (fun _ => zeroTcb) hardTask.simulator hist s ∧
    hist.map Prod.snd = [.resumeAll, .tick, .tick, .suspendAll, .yield,
      .placeOnEventList portMaxDelay, .startScheduler 1 2,
      .createPeriodic 0 0 1 3 1 1] ∧
    0 ∈ periodicTasks hist ∧ account .edf 0 hist = ⟨1, [1, 1], [1, 1], [1]⟩ ∧
    (s.kernel.tcb 0).previousDeadlineMet = 2 := by
  have hrun : (sampleRun .edf [.createPeriodic 0 0 1 3 1 1, .startScheduler 1 2,
      .placeOnEventList portMaxDelay, .yield, .suspendAll, .tick, .tick,
      .resumeAll]).map (fun r =>
        (r.1.map Prod.snd, decide (0 ∈ periodicTasks r.1), account .edf 0 r.1,
          (r.2.kernel.tcb 0).previousDeadlineMet)) =
      some ([.resumeAll, .tick, .tick, .suspendAll, .yield,
        .placeOnEventList portMaxDelay, .startScheduler 1 2,
        .createPeriodic 0 0 1 3 1 1], true, ⟨1, [1, 1], [1, 1], [1]⟩, 2) := by rfl
  obtain ⟨⟨hist, s⟩, hs, heq⟩ := Option.map_eq_some_iff.mp hrun
  simp only [Prod.mk.injEq, decide_eq_true_eq] at heq
  obtain ⟨hcalls, hx, hacc, hmet⟩ := heq
  exact ⟨hist, s, sampleRun_run hs, hcalls, hx, hacc, hmet⟩

end FreeRtosSim
