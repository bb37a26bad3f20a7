import FreeRtosSim.Kernel.Timeout
import FreeRtosSim.Proofs.Punctual

/-!
# No drift, and no late time-out

A task that waits with `xTaskDelayUntil` wakes at the times it asked for,
however long it ran in between and whether or not the tick count wrapped, and
a call that waits in a loop gives up at the first check at which its time is
over, however often it was woken for nothing.

The absolute time `T` counts the ticks without wrapping: the tick count is
`T % 2 ^ 64` and the number of overflows `T / 2 ^ 64`.
-/

namespace FreeRtosSim

variable {created : List TaskHandle} {alg : Algorithm} {st st₁ : State}
  {x : TaskHandle} {n T P inc : Nat} {s s' : System} {c : Call}
  {heap : TaskHandle → TCB} {sim : Simulator} {hist later : List (System × Call)}

/-! ## `xTaskDelayUntil` -/

/-- The two readings show the wake time ahead exactly if it is. -/
theorem shouldDelay_iff (hP : P ≤ T) (hT : T < P + 2 ^ 64) (hinc : inc < 2 ^ 64) :
    shouldDelay (P % 2 ^ 64) ((P + inc) % 2 ^ 64) (T % 2 ^ 64) = true ↔ T < P + inc := by
  rw [← Clock.ahead_iff (Nat.two_pow_pos 64) hP hT hinc, shouldDelay]
  split <;> simp only [decide_eq_true_eq]

theorem ticksToWait (hP : P ≤ T) (hinc : inc < 2 ^ 64) (hT : T < P + inc) :
    tickSub ((P + inc) % 2 ^ 64) (T % 2 ^ 64) = P + inc - T := by
  rw [tickSub_eq, Clock.sub_mod (Nat.two_pow_pos 64) (Nat.le_of_lt hT) (by omega)]

section DelayUntil

variable {b : Bool} {w : Nat}
  (hok : xTaskDelayUntil alg (P % 2 ^ 64) inc st = .ok (b, w, st₁))
  (htick : st.xTickCount = T % 2 ^ 64) (hP : P ≤ T) (hT : T < P + 2 ^ 64)
  (hinc : inc < 2 ^ 64)

include hok htick hP hT hinc

/-- It is `vTaskDelay` of what is left of the increment, or no delay at all. -/
theorem xTaskDelayUntil_ok :
    w = (P + inc) % 2 ^ 64 ∧ b = decide (T < P + inc) ∧
    (T < P + inc → vTaskDelay alg (P + inc - T) st = .ok st₁) ∧
    (P + inc ≤ T → vTaskDelayYield alg (vTaskSuspendAll st) = .ok st₁) := by
  have hw : tickAdd (P % 2 ^ 64) inc = (P + inc) % 2 ^ 64 := Clock.add_mod
  have hshould := shouldDelay_iff hP hT hinc
  rw [xTaskDelayUntil] at hok
  simp only [configAssert] at hok
  split at hok
  · split at hok
    · next hz =>
        have htick' : (vTaskSuspendAll st).xTickCount = T % 2 ^ 64 := htick
        simp only [bind, Except.bind, hw, htick'] at hok
        by_cases hlt : T < P + inc
        · rw [hshould.mpr hlt, if_pos rfl, ticksToWait hP hinc hlt] at hok
          have hdelay : vTaskDelay alg (P + inc - T) st = vTaskDelayYield alg
              (prvAddCurrentTaskToDelayedList (P + inc - T) false (vTaskSuspendAll st)) := by
            rw [vTaskDelay, if_pos (by omega)]
            simp only [vTaskDelayBlock, configAssert, hz, if_true, bind, Except.bind, pure,
              Except.pure]
          rw [hdelay]
          split at hok
          · exact absurd hok (by simp)
          · next hend =>
              cases hok
              exact ⟨rfl, (decide_eq_true hlt).symm, fun _ => hend, fun hge => by omega⟩
        · have hno : shouldDelay (P % 2 ^ 64) ((P + inc) % 2 ^ 64) (T % 2 ^ 64) = false :=
            Bool.eq_false_iff.mpr fun hs => hlt (hshould.mp hs)
          rw [hno, if_neg (by simp)] at hok
          split at hok
          · exact absurd hok (by simp)
          · next hend =>
              cases hok
              exact ⟨rfl, (decide_eq_false hlt).symm, fun h => absurd h hlt, fun _ => hend⟩
    · exact absurd hok (by simp [bind, Except.bind])
  · exact absurd hok (by simp [bind, Except.bind])

end DelayUntil

/-- From the call `c` on the tick count has gone up by the ticks processed. -/
theorem Run.clock (hrun : s.kernel.xSchedulerRunning = true) :
    ∀ {later : List (System × Call)} {s' : System},
      Run alg heap sim (later ++ (s, c) :: hist) s' →
      (∀ e ∈ later ++ (s, c) :: hist, e.2.Timely e.1) →
      s'.kernel.xSchedulerRunning = true ∧ s'.kernel.xTickCount =
        Clock.add (2 ^ 64) s.kernel.xTickCount
          (runTicks alg (later ++ [(s, c)])).length := by
  intro later
  induction later with
  | nil =>
      intro s' h ht
      cases h with
      | @call _ _ _ st hbefore hal hok =>
          have hcl := hbefore.clocked fun e he => ht e (List.mem_cons_of_mem _ he)
          have hp := (exec_passage alg hbefore.settled hcl hal
            (ht (s, c) (List.mem_cons_self ..))).2 st hok
          exact hp.clock hrun hcl.tick_lt
  | cons e later ih =>
      intro s' h ht
      rw [List.cons_append] at h ht
      cases h with
      | @call _ s₂ c₂ st hbefore hal hok =>
          obtain ⟨hrun₂, htick₂⟩ := ih hbefore fun a ha => ht a (List.mem_cons_of_mem _ ha)
          have hcl := hbefore.clocked fun a ha => ht a (List.mem_cons_of_mem _ ha)
          have hp := (exec_passage alg hbefore.settled hcl hal
            (ht (s₂, c₂) (List.mem_cons_self ..))).2 st hok
          obtain ⟨hrun', htick'⟩ := hp.clock hrun₂ hcl.tick_lt
          refine ⟨hrun', htick'.trans ?_⟩
          rw [htick₂, Clock.add_add, List.cons_append, runTicks, List.length_append]

/-- With `xTaskDelayUntil` a task whose last wake time was `P` wakes at
`P + inc`, if that is still ahead, whatever happens meanwhile; the wake time
that the next call is given is `P + inc` in either case. -/
theorem delay_until_exact {b : Bool} {w : Nat} (h : Run alg heap sim hist s)
    (ht : ∀ e ∈ hist, e.2.Timely e.1) (hrun : s.kernel.xSchedulerRunning = true)
    (hcur : s.kernel.pxCurrentTCB = some x) (hord : (s.kernel.tcb x).xTaskPeriod = 0)
    (hok : xTaskDelayUntil alg (P % 2 ^ 64) inc s.kernel = .ok (b, w, st))
    (htick : s.kernel.xTickCount = T % 2 ^ 64) (hP : P ≤ T) (hT : T < P + 2 ^ 64)
    (hinc : inc < portMaxDelay) :
    w = (P + inc) % 2 ^ 64 ∧ (b = true ↔ T < P + inc) ∧
    (b = true →
      Run alg heap sim ((s, .delay (P + inc - T)) :: hist) ⟨st, s.created⟩ ∧
      ∀ later s', Run alg heap sim (later ++ (s, .delay (P + inc - T)) :: hist) s' →
        (∀ e ∈ later, e.2.Timely e.1) →
        (∀ e ∈ later, ¬ e.2.Rouses x ∧ ¬ e.2.Blocks e.1 x) →
        ∃ T', s'.kernel.xTickCount = T' % 2 ^ 64 ∧
          T' = T + (runTicks alg (later ++ [(s, .delay (P + inc - T))])).length ∧
          Countdown x (P + inc - T') s'.kernel) ∧
    (b = false → Run alg heap sim
      ((⟨vTaskSuspendAll s.kernel, s.created⟩, .delayYield) :: (s, .suspendAll) :: hist)
      ⟨st, s.created⟩) := by
  obtain ⟨hw, hb, hdelay, hyield⟩ := xTaskDelayUntil_ok hok htick hP hT
    (Nat.lt_of_lt_of_le hinc (Nat.sub_le ..))
  have hiff : b = true ↔ T < P + inc := by rw [hb, decide_eq_true_eq]
  refine ⟨hw, hiff, fun htrue => ?_, fun hfalse => ?_⟩
  · have hlt := hiff.mp htrue
    have hblock : (Call.delay (P + inc - T)).blocksFor = some (P + inc - T) :=
      if_pos (by omega)
    refine ⟨h.call trivial (hdelay hlt), fun later s' hlater htime hleave => ?_⟩
    have hall : ∀ e ∈ later ++ (s, .delay (P + inc - T)) :: hist, e.2.Timely e.1 := by
      intro e he
      rcases List.mem_append.mp he with he | he
      · exact htime e he
      · rcases List.mem_cons.mp he with rfl | he
        · intro n hn
          have hn' : P + inc - T = n := Option.some_inj.mp (hblock.symm.trans hn)
          exact ⟨hrun, by omega, by omega⟩
        · exact ht e he
    obtain ⟨-, hend, -⟩ := Run.slept hblock (by omega) hcur hord hlater hall hleave
    obtain ⟨-, hclock⟩ := Run.clock hrun hlater hall
    refine ⟨_, ?_, rfl, ?_⟩
    · rw [hclock, htick, Clock.add_mod]
    · rw [← Nat.sub_sub]
      exact hend
  · have hge : P + inc ≤ T := by
      by_contra hlt
      rw [hiff.mpr (by omega)] at hfalse
      exact absurd hfalse (by simp)
    have hsusp : Run alg heap sim ((s, .suspendAll) :: hist)
        ⟨vTaskSuspendAll s.kernel, s.created⟩ := h.call trivial rfl
    exact hsusp.call trivial (hyield hge)

/-- Called at tick 0 with an increment of 3, by a task that last woke at 0. -/
theorem delay_until_exact_three : ∃ hist s st,
    sampleRun .edf [.create 0 2, .startScheduler 1 2, .placeOnEventList portMaxDelay,
      .yield] = some (hist, s) ∧
    xTaskDelayUntil .edf (0 % 2 ^ 64) 3 s.kernel = .ok (true, 3, st) ∧
    Run .edf (fun _ => zeroTcb) hardTask.simulator
      ((s, .delay (0 + 3 - 0)) :: hist) ⟨st, s.created⟩ := by
  have hrun : (sampleRun .edf [.create 0 2, .startScheduler 1 2,
      .placeOnEventList portMaxDelay, .yield]).map (fun r =>
        (decide (∀ e ∈ r.1, e.2.Timely e.1), r.2.kernel.xSchedulerRunning,
          r.2.kernel.pxCurrentTCB, (r.2.kernel.tcb 0).xTaskPeriod, r.2.kernel.xTickCount,
          (xTaskDelayUntil .edf (0 % 2 ^ 64) 3 r.2.kernel).toOption.map fun r =>
            (r.1, r.2.1))) =
      some (true, true, some 0, 0, 0, some (true, 3)) := by rfl
  obtain ⟨⟨hist, s⟩, hs, heq⟩ := Option.map_eq_some_iff.mp hrun
  simp only [Prod.mk.injEq, decide_eq_true_eq] at heq
  obtain ⟨htime, hrunning, hcur, hord, htick, hdelay⟩ := heq
  cases hok : xTaskDelayUntil .edf (0 % 2 ^ 64) 3 s.kernel with
  | error e =>
      rw [hok] at hdelay
      exact absurd hdelay (by simp [Except.toOption])
  | ok r =>
      obtain ⟨b, w, st⟩ := r
      rw [hok] at hdelay
      simp only [Except.toOption, Option.map_some, Option.some.injEq, Prod.mk.injEq] at hdelay
      obtain ⟨rfl, rfl⟩ := hdelay
      obtain ⟨-, -, hnext, -⟩ := delay_until_exact (P := 0) (T := 0) (sampleRun_run hs) htime
        hrunning hcur hord hok htick (Nat.le_refl 0) (by decide) (by decide)
      exact ⟨hist, s, st, hs, hok, (hnext rfl).1⟩

/-! ## Time-outs -/

/-- The two counters `T` ticks after they were zero. -/
def readingAt (T : Nat) : TickReading := TickReading.tick^[T] ⟨0, 0⟩

theorem readingAt_eq (T : Nat) :
    readingAt T = ⟨T / 2 ^ 64 % 2 ^ 64, T % 2 ^ 64⟩ := by
  induction T with
  | zero => rfl
  | succ T ih =>
      rw [readingAt, Function.iterate_succ_apply', ← readingAt, ih, TickReading.tick]
      have htick : tickAdd (T % 2 ^ 64) 1 = (T + 1) % 2 ^ 64 := Clock.add_mod
      rw [htick, Clock.succ_div]
      split
      · rw [show tickAdd (T / 2 ^ 64 % 2 ^ 64) 1 = (T / 2 ^ 64 + 1) % 2 ^ 64 from
          Clock.add_mod]
      · rfl

/-- One check, less than `2 ^ 64` ticks after the time-out was set for `n`. -/
theorem check_exact {T' : Nat} (hle : T ≤ T') (hlt : T' < T + 2 ^ 64)
    (hn : n < portMaxDelay) :
    xTaskCheckForTimeOut (readingAt T') false
      (vTaskInternalSetTimeOutState (readingAt T)) n =
      if T + n ≤ T' then
        ⟨true, false, vTaskInternalSetTimeOutState (readingAt T), 0⟩
      else ⟨false, false, vTaskInternalSetTimeOutState (readingAt T'), T + n - T'⟩ := by
  have hpos := Nat.two_pow_pos 64
  have helapsed : tickSub (T' % 2 ^ 64) (T % 2 ^ 64) = T' - T := by
    rw [tickSub_eq, Clock.sub_mod hpos hle (by omega)]
  have hwrap : ¬ (T' / 2 ^ 64 % 2 ^ 64 ≠ T / 2 ^ 64 % 2 ^ 64 ∧
      T' % 2 ^ 64 ≥ T % 2 ^ 64) := by
    rintro ⟨hne, hge⟩
    exact hne (by rw [Clock.div_eq_of_mod_le hpos hle hlt hge])
  have hmax : n ≠ portMaxDelay := by omega
  simp only [xTaskCheckForTimeOut, vTaskInternalSetTimeOutState, readingAt_eq, helapsed]
  rw [if_neg (by simp), if_neg hmax, if_neg hwrap]
  by_cases hup : T + n ≤ T'
  · rw [if_neg (by omega), if_pos hup]
  · have hleft : tickSub n (T' - T) = T + n - T' := by
      rw [tickSub_of_le (Nat.lt_of_lt_of_le hn (Nat.sub_le ..)) (by omega)]
      omega
    rw [if_pos (by omega), if_neg hup, hleft]

/-- The loop of a call that waits for `n` ticks from `T` on gives up at the first
check at which they are over, if it makes a check every `2 ^ 64` ticks. -/
theorem wait_loop_exact (hn : n < portMaxDelay) :
    ∀ (Ts : List Nat) (T : Nat),
      (T :: Ts).IsChain (fun a b => a ≤ b ∧ b < a + 2 ^ 64) →
      waitLoop (vTaskInternalSetTimeOutState (readingAt T)) n (Ts.map readingAt) =
        (Ts.find? fun T' => T + n ≤ T').map readingAt := by
  intro Ts
  induction Ts generalizing n with
  | nil => intro T _; rfl
  | cons T' Ts ih =>
      intro T hchain
      obtain ⟨⟨hle, hlt⟩, hrest⟩ := List.isChain_cons_cons.mp hchain
      rw [List.map_cons, waitLoop, check_exact hle hlt hn]
      by_cases hup : T + n ≤ T'
      · rw [List.find?_cons_of_pos (by simpa using hup)]
        simp [hup]
      · rw [List.find?_cons_of_neg (by simpa using hup), if_neg hup]
        have hih := ih (n := T + n - T') (by omega) T' hrest
        rw [show T' + (T + n - T') = T + n by omega] at hih
        simpa using hih

/-- Five ticks from `2 ^ 64 - 2` on, and two checks after the wrap. -/
theorem wait_loop_exact_wrap :
    waitLoop (vTaskInternalSetTimeOutState (readingAt (2 ^ 64 - 2))) 5
      ([2 ^ 64 + 1, 2 ^ 64 + 4].map readingAt) = some (readingAt (2 ^ 64 + 4)) := by
  refine (wait_loop_exact (by decide) [2 ^ 64 + 1, 2 ^ 64 + 4] (2 ^ 64 - 2) ?_).trans ?_
  · simp
  · simp

end FreeRtosSim
