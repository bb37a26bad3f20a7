import FreeRtosSim.Proofs.Timed

/-!
# Timers keep time

However late the timer task is, as long as it is not late by a whole turn of
the tick count, a timer that was started at the time `S` expires at `S + P`,
`S + 2 * P` and so on, and has its callback once for each of these times that
has passed: never early, none twice, none lost where the lists change places.
That the timer task gets to run is not shown.
-/

namespace FreeRtosSim

namespace TimerDaemon

variable {x : TimerHandle} {d : TimerDaemon} {C D N P T : Nat}
  {t : TimerTimes}

/-- The lists and `xLastTime` at the time `T`. -/
def InTime (t : TimerTimes) (T : Nat) (d : TimerDaemon) : Prop :=
  Keeps t (T / 2 ^ 64) T d ∧ d.xLastTime = T % 2 ^ 64

/-- The tick count tells whether it has overflowed, if the timer task is not
late by a whole turn. -/
theorem InTime.sample (h : InTime t T d) (hT : T ≤ N) (hlate : N < T + 2 ^ 64) :
    InTime t N (d.prvSampleTimeNow (N % 2 ^ 64)).2 ∧
      (∀ y ∈ (d.prvSampleTimeNow (N % 2 ^ 64)).2.listed, y ∈ d.listed) ∧
      ((d.prvSampleTimeNow (N % 2 ^ 64)).1 = false →
        N / 2 ^ 64 = T / 2 ^ 64 ∧
        (d.prvSampleTimeNow (N % 2 ^ 64)).2 = { d with xLastTime := N % 2 ^ 64 }) := by
  obtain ⟨hk, hlast⟩ := h
  rw [prvSampleTimeNow, hlast]
  split
  · next hlt =>
      have hN : N / 2 ^ 64 = T / 2 ^ 64 + 1 := by omega
      obtain ⟨hs, hmem⟩ := hk.switch rfl hN
      refine ⟨⟨?_, rfl⟩, hmem, fun hno => absurd hno (by simp)⟩
      rw [hN]
      exact hs.same { d.prvSwitchTimerLists with xLastTime := N % 2 ^ 64 } rfl rfl
        hs.period (fun _ _ => ⟨rfl, rfl⟩) (fun _ _ => rfl) (fun _ _ => rfl) fun _ _ => rfl
  · next hge =>
      have hN : N / 2 ^ 64 = T / 2 ^ 64 := by omega
      have hs := hk.later hT
      refine ⟨⟨?_, rfl⟩, fun _ hy => hy, fun _ => ⟨hN, rfl⟩⟩
      rw [hN]
      exact hs.same { d with xLastTime := N % 2 ^ 64 } rfl rfl
        hs.period (fun _ _ => ⟨rfl, rfl⟩) (fun _ _ => rfl) (fun _ _ => rfl) fun _ _ => rfl

/-! ## `xLastTime` -/

theorem enter_xLastTime : (d.enter x D N).xLastTime = d.xLastTime := by
  rw [enter]
  split <;> rfl

theorem prvInsertTimerInActiveList_xLastTime {v now cmd : Nat} :
    (d.prvInsertTimerInActiveList x v now cmd).2.xLastTime = d.xLastTime := by
  rw [prvInsertTimerInActiveList]
  split <;> split <;> rfl

theorem reloadLoop_xLastTime {fuel now E : Nat} :
    (reloadLoop x now fuel E d).xLastTime = d.xLastTime := by
  induction fuel generalizing E d with
  | zero => rfl
  | succ fuel ih =>
      rw [reloadLoop]
      split
      · rw [ih]
        exact prvInsertTimerInActiveList_xLastTime
      · exact prvInsertTimerInActiveList_xLastTime

theorem prvProcessExpiredTimer_xLastTime {v now : Nat} :
    (d.prvProcessExpiredTimer v now).xLastTime = d.xLastTime := by
  rw [prvProcessExpiredTimer]
  split
  · rfl
  · dsimp only
    split
    · exact reloadLoop_xLastTime
    · rfl

/-- A timer that has just been started waits for its first time. -/
theorem Keeps.waits (hk : Keeps t (N / 2 ^ 64) N d) (hlast : d.xLastTime = N % 2 ^ 64)
    (hx : x ∉ d.listed) (hstart : t.start x = C) (hC : C ≤ N)
    (hnow : N < C + (d.timer x).xTimerPeriodInTicks) (hruns : t.runs d x = 0)
    (hbefore : t.before x ≤ d.calls.count x) :
    InTime t N (d.enter x (C + (d.timer x).xTimerPeriodInTicks) N) := by
  have hP := (hk.period x).2
  have hdue : t.due d x = C + (d.timer x).xTimerPeriodInTicks := by
    rw [TimerTimes.due, hruns, hstart, Nat.zero_add, Nat.one_mul]
  rw [← hdue] at hnow ⊢
  refine ⟨hk.enter hx rfl hnow (by omega) hbefore ?_ fun _ => hruns,
    enter_xLastTime.trans hlast⟩
  rw [hruns, hstart]
  omega

namespace InTime

variable (h : InTime t T d)

include h

/-- A round of the timer task without a command. -/
theorem round (hT : T ≤ N) (hlate : N < T + 2 ^ 64) :
    InTime t N (d.prvProcessTimerOrBlockTask (N % 2 ^ 64)) := by
  obtain ⟨hs, -, hno⟩ := h.sample hT hlate
  rw [prvProcessTimerOrBlockTask]
  split
  · exact hs
  · next x xs hcur =>
      dsimp only
      split
      · next hdue =>
          obtain ⟨hepoch, heq⟩ := hno hdue.1
          have hxcur : x ∈ d.pxCurrentTimerList := hcur ▸ List.mem_cons_self ..
          have hvalue := h.1.value x (List.mem_append_left _ hxcur)
          have hcurrent := h.1.current x hxcur
          have hcome : t.due d x ≤ N := by omega
          rw [heq] at hs ⊢
          exact ⟨(hs.1.process hcur rfl (Nat.le_refl N) hcome).1,
            prvProcessExpiredTimer_xLastTime⟩
      · exact hs

/-- A command is for a timer that has been taken out of the lists. -/
theorem remove (x : TimerHandle) (hT : T ≤ N) (hlate : N < T + 2 ^ 64) :
    InTime t N ((d.removeTimer x).prvSampleTimeNow (N % 2 ^ 64)).2 ∧
      x ∉ ((d.removeTimer x).prvSampleTimeNow (N % 2 ^ 64)).2.listed := by
  have hr : InTime t T (d.removeTimer x) :=
    ⟨h.1.fewer List.erase_sublist List.erase_sublist, h.2⟩
  obtain ⟨hs, hmem, -⟩ := hr.sample hT hlate
  refine ⟨hs, fun hx => ?_⟩
  have hnd := List.nodup_append.mp h.1.nodup
  rcases List.mem_append.mp (hmem x hx) with hx | hx
  · exact hnd.1.not_mem_erase hx
  · exact hnd.2.1.not_mem_erase hx

omit h in
/-- The timer is started, or stopped. -/
theorem modify (h : InTime t N d) (hx : x ∉ d.listed) (f : Timer → Timer)
    (hf : 1 ≤ (f (d.timer x)).xTimerPeriodInTicks ∧
      (f (d.timer x)).xTimerPeriodInTicks < 2 ^ 64) :
    InTime (t.restart x C d) N (d.modifyTimer x f) ∧ InTime t N (d.modifyTimer x f) := by
  have hne : ∀ y ∈ d.listed, y ≠ x := fun y hy he => hx (he ▸ hy)
  have hperiod : ∀ y, 1 ≤ ((d.modifyTimer x f).timer y).xTimerPeriodInTicks ∧
      ((d.modifyTimer x f).timer y).xTimerPeriodInTicks < 2 ^ 64 := fun y => by
    by_cases hyx : y = x
    · subst hyx
      simpa [modifyTimer] using hf
    · simpa [modifyTimer, hyx] using h.1.period y
  have hkeep : ∀ t' : TimerTimes, (∀ y ∈ d.listed, t'.start y = t.start y ∧
      t'.before y = t.before y) → InTime t' N (d.modifyTimer x f) := fun t' hstart =>
    ⟨h.1.same (d.modifyTimer x f) rfl rfl hperiod hstart
      (fun y hy => Function.update_of_ne (hne y hy) ..) (fun _ _ => rfl)
      fun _ _ => rfl, h.2⟩
  exact ⟨hkeep _ fun y hy => ⟨Function.update_of_ne (hne y hy) ..,
    Function.update_of_ne (hne y hy) ..⟩, hkeep t fun _ _ => ⟨rfl, rfl⟩⟩

theorem stop (x : TimerHandle) (hT : T ≤ N) (hlate : N < T + 2 ^ 64) :
    InTime t N (d.stopCommand x (N % 2 ^ 64)) := by
  obtain ⟨hs, hx⟩ := h.remove x hT hlate
  exact (hs.modify (C := 0) hx (fun r => { r with isActive := false })
    (hs.1.period x)).2

/-- A command that is `N - C` ticks old. The timer may have expired since. -/
theorem start (x : TimerHandle) (hT : T ≤ N) (hlate : N < T + 2 ^ 64) (hC : C ≤ N)
    (hold : N < C + 2 ^ 64) :
    InTime (t.restart x C ((d.removeTimer x).prvSampleTimeNow (N % 2 ^ 64)).2) N
      (d.startCommand x (C % 2 ^ 64) (N % 2 ^ 64)) := by
  obtain ⟨hs, hx⟩ := h.remove x hT hlate
  rw [startCommand]
  generalize ((d.removeTimer x).prvSampleTimeNow (N % 2 ^ 64)).2 = r at hs hx ⊢
  obtain ⟨hk, hlast⟩ := (hs.modify (C := C) hx (fun r => { r with isActive := true })
    (hs.1.period x)).1
  change Keeps (t.restart x C r) (N / 2 ^ 64) N (r.setActive x true) at hk
  have hruns : (t.restart x C r).runs (r.setActive x true) x = 0 :=
    TimerTimes.runs_restart rfl
  have hdue : (t.restart x C r).due (r.setActive x true) x =
      C + ((r.setActive x true).timer x).xTimerPeriodInTicks := TimerTimes.due_restart rfl
  have hbefore : (t.restart x C r).before x ≤ (r.setActive x true).calls.count x := by
    simp [TimerTimes.restart, setActive, modifyTimer]
  have hstart : (t.restart x C r).start x = C := Function.update_self ..
  have hx' : x ∉ (r.setActive x true).listed := hx
  have hlast' : (r.setActive x true).xLastTime = N % 2 ^ 64 := hlast
  generalize t.restart x C r = t' at *
  generalize r.setActive x true = a at *
  obtain ⟨hpos, hP⟩ := hk.period x
  have hnext : tickAdd (C % 2 ^ 64) (a.timer x).xTimerPeriodInTicks =
      (C + (a.timer x).xTimerPeriodInTicks) % 2 ^ 64 := Nat.mod_add_mod ..
  dsimp only
  rw [hnext, insert_eq hC hold hP]
  by_cases hcome : C + (a.timer x).xTimerPeriodInTicks ≤ N
  · -- The timer has expired before the command is received.
    rw [if_pos hcome, if_pos rfl]
    dsimp only
    have hne : ∀ y ∈ a.listed, y ≠ x := fun y hy he => hx' (he ▸ hy)
    have hset : Keeps t' (N / 2 ^ 64) N (a.setItemValue x
        ((C + (a.timer x).xTimerPeriodInTicks) % 2 ^ 64)) :=
      hk.same (a.setItemValue x ((C + (a.timer x).xTimerPeriodInTicks) % 2 ^ 64)) rfl rfl
        hk.period (fun _ _ => ⟨rfl, rfl⟩) (fun _ _ => rfl)
        (fun y hy => Function.update_of_ne (hne y hy) ..) fun _ _ => rfl
    have htimer : (a.setItemValue x ((C + (a.timer x).xTimerPeriodInTicks) %
        2 ^ 64)).timer x = a.timer x := rfl
    rw [htimer]
    cases hauto : (a.timer x).isAutoreload with
    | true =>
        rw [if_pos rfl]
        rw [← hdue] at hset hcome ⊢
        exact ⟨(hset.reload hx' rfl (Nat.le_refl N) hcome
          (by change N < t'.due a x + 2 ^ 64; omega) hbefore hauto).1,
          reloadLoop_xLastTime.trans hlast'⟩
    | false =>
        rw [if_neg (by simp)]
        exact ⟨hset.finish hx' (Nat.le_refl N), hlast'⟩
  · rw [if_neg hcome, if_neg (by simp)]
    exact hk.waits hlast' hx' hstart hC (Nat.lt_of_not_le hcome) hruns hbefore

/-- The timer expires a period after the command is received. -/
theorem changePeriod (x : TimerHandle) (hT : T ≤ N) (hlate : N < T + 2 ^ 64)
    (hpos : 1 ≤ P) (hP : P < 2 ^ 64) :
    InTime (t.restart x N ((d.removeTimer x).prvSampleTimeNow (N % 2 ^ 64)).2) N
      (d.changePeriodCommand x P (N % 2 ^ 64)) := by
  obtain ⟨hs, hx⟩ := h.remove x hT hlate
  rw [changePeriodCommand]
  generalize ((d.removeTimer x).prvSampleTimeNow (N % 2 ^ 64)).2 = r at hs hx ⊢
  obtain ⟨hk, hlast⟩ := (hs.modify (C := N) hx
    (fun r => { r with isActive := true, xTimerPeriodInTicks := P }) ⟨hpos, hP⟩).1
  generalize hc : r.modifyTimer x (fun r =>
    { r with isActive := true, xTimerPeriodInTicks := P }) = a at hk hlast ⊢
  have hperiod : (a.timer x).xTimerPeriodInTicks = P := by
    rw [← hc]
    simp [modifyTimer]
  have hruns : (t.restart x N r).runs a x = 0 := TimerTimes.runs_restart (hc ▸ rfl)
  have hx' : x ∉ a.listed := hc ▸ hx
  have hstart : (t.restart x N r).start x = N := Function.update_self ..
  have hbefore : (t.restart x N r).before x ≤ a.calls.count x := by
    rw [← hc]
    simp [TimerTimes.restart, modifyTimer]
  have hnext : tickAdd (N % 2 ^ 64) P =
      (N + (a.timer x).xTimerPeriodInTicks) % 2 ^ 64 := by
    rw [hperiod]
    exact Nat.mod_add_mod ..
  rw [hnext, insert_eq (Nat.le_refl N) (by omega) (hperiod ▸ hP), if_neg (by omega)]
  exact hk.waits hlast hx' hstart (Nat.le_refl N) (by omega) hruns hbefore

end InTime

/-! ## Runs -/

/-- The timer task, which is never late by a whole turn of the tick count, nor
is a command when it is received. -/
inductive Timed : TimerTimes → Nat → TimerDaemon → Prop where
  /-- The timers have been created and none has been started. -/
  | created (timer : TimerHandle → Timer) (xItemValue : TimerHandle → Nat)
      (hperiod : ∀ x, 1 ≤ (timer x).xTimerPeriodInTicks ∧
        (timer x).xTimerPeriodInTicks < 2 ^ 64) :
      Timed ⟨fun _ => 0, fun _ => 0⟩ 0 ⟨timer, xItemValue, [], [], 0, []⟩
  | round {t : TimerTimes} {T N : Nat} {d : TimerDaemon} (hd : Timed t T d)
      (hT : T ≤ N) (hlate : N < T + 2 ^ 64) :
      Timed t N (d.prvProcessTimerOrBlockTask (N % 2 ^ 64))
  | start {t : TimerTimes} {T N C : Nat} {d : TimerDaemon} (x : TimerHandle)
      (hd : Timed t T d) (hT : T ≤ N) (hlate : N < T + 2 ^ 64) (hC : C ≤ N)
      (hold : N < C + 2 ^ 64) :
      Timed (t.restart x C ((d.removeTimer x).prvSampleTimeNow (N % 2 ^ 64)).2) N
        (d.startCommand x (C % 2 ^ 64) (N % 2 ^ 64))
  | stop {t : TimerTimes} {T N : Nat} {d : TimerDaemon} (x : TimerHandle)
      (hd : Timed t T d) (hT : T ≤ N) (hlate : N < T + 2 ^ 64) :
      Timed t N (d.stopCommand x (N % 2 ^ 64))
  | changePeriod {t : TimerTimes} {T N P : Nat} {d : TimerDaemon} (x : TimerHandle)
      (hd : Timed t T d) (hT : T ≤ N) (hlate : N < T + 2 ^ 64) (hpos : 1 ≤ P)
      (hP : P < 2 ^ 64) :
      Timed (t.restart x N ((d.removeTimer x).prvSampleTimeNow (N % 2 ^ 64)).2) N
        (d.changePeriodCommand x P (N % 2 ^ 64))

theorem Timed.inTime (h : Timed t T d) : InTime t T d := by
  induction h with
  | created timer xItemValue hperiod =>
      exact ⟨{ period := hperiod
               nodup := List.nodup_nil
               current := fun _ hx => absurd hx List.not_mem_nil
               overflow := fun _ hx => absurd hx List.not_mem_nil
               value := fun _ hx => absurd hx List.not_mem_nil
               sortedCurrent := List.Pairwise.nil
               sortedOverflow := List.Pairwise.nil
               before := fun _ hx => absurd hx List.not_mem_nil
               passed := fun _ hx => absurd hx List.not_mem_nil
               once := fun _ hx => absurd hx List.not_mem_nil }, rfl⟩
  | round _ hT hlate ih => exact ih.round hT hlate
  | start x _ hT hlate hC hold ih => exact ih.start x hT hlate hC hold
  | stop x _ hT hlate ih => exact ih.stop x hT hlate
  | changePeriod x _ hT hlate hpos hP ih => exact ih.changePeriod x hT hlate hpos hP

/-- The first timer of the current list is the first to expire. -/
theorem Keeps.ahead (h : Keeps t (T / 2 ^ 64) T d)
    (hhead : ∀ y, d.pxCurrentTimerList.head? = some y → T % 2 ^ 64 < d.xItemValue y)
    (hx : x ∈ d.listed) : T < t.due d x := by
  have hvalue := h.value x hx
  rcases List.mem_append.mp hx with hx | hx
  · have hepoch := h.current x hx
    have hlater : T % 2 ^ 64 < d.xItemValue x := by
      have hsorted := h.sortedCurrent
      cases hcur : d.pxCurrentTimerList with
      | nil => exact absurd (hcur ▸ hx) List.not_mem_nil
      | cons y ys =>
          have hy := hhead y (by rw [hcur]; rfl)
          rw [hcur] at hx hsorted
          rcases List.mem_cons.mp hx with rfl | hx
          · exact hy
          · exact Nat.lt_of_lt_of_le hy ((List.pairwise_cons.mp hsorted).1 x hx)
    omega
  · have hepoch := h.overflow x hx
    omega

/-- A timer that waits has had no callback before its time, a one-shot timer
has had none, and when the timer task has nothing left to process every timer
has had a callback for each of its times that has passed. -/
theorem timers_exact (h : Timed t T d) :
    ∀ x ∈ d.listed,
      t.start x + t.runs d x * (d.timer x).xTimerPeriodInTicks ≤ T ∧
      ((d.timer x).isAutoreload = false → t.runs d x = 0) ∧
      ((∀ y, d.pxCurrentTimerList.head? = some y → T % 2 ^ 64 < d.xItemValue y) →
        t.runs d x = (T - t.start x) / (d.timer x).xTimerPeriodInTicks) := by
  intro x hx
  have hk := h.inTime.1
  refine ⟨hk.passed x hx, hk.once x hx, fun hhead => ?_⟩
  have hpassed := hk.passed x hx
  have hahead := hk.ahead hhead hx
  rw [TimerTimes.due, Nat.add_mul, Nat.one_mul] at hahead
  symm
  rw [Nat.div_eq_iff (hk.period x).1]
  omega

/-- The timers have three ticks each, and the time is `2 ^ 64 - 9`. -/
def lateStart : TimerDaemon :=
  TimerDaemon.prvProcessTimerOrBlockTask ((2 ^ 64 - 9) % 2 ^ 64)
    ⟨fun _ => ⟨3, true, false⟩, fun _ => 0, [], [], 0, []⟩

/-- Timer `7` is started three ticks later, the timer task receives the command
after one more, and runs next when the tick count has overflowed. -/
def lateTimers : TimerDaemon :=
  ((lateStart.startCommand 7 ((2 ^ 64 - 6) % 2 ^ 64)
    ((2 ^ 64 - 5) % 2 ^ 64)).prvProcessTimerOrBlockTask
      ((2 ^ 64 + 4) % 2 ^ 64)).prvProcessTimerOrBlockTask ((2 ^ 64 + 4) % 2 ^ 64)

def lateTimes : TimerTimes :=
  TimerTimes.restart ⟨fun _ => 0, fun _ => 0⟩ 7 (2 ^ 64 - 6)
    ((lateStart.removeTimer 7).prvSampleTimeNow ((2 ^ 64 - 5) % 2 ^ 64)).2

theorem lateTimers_timed : Timed lateTimes (2 ^ 64 + 4) lateTimers := by
  have hstart : Timed ⟨fun _ => 0, fun _ => 0⟩ (2 ^ 64 - 9) lateStart :=
    (Timed.created _ _ fun _ => ⟨by decide, by decide⟩).round (by decide) (by decide)
  have hcommand : Timed lateTimes (2 ^ 64 - 5) (lateStart.startCommand 7
      ((2 ^ 64 - 6) % 2 ^ 64) ((2 ^ 64 - 5) % 2 ^ 64)) :=
    hstart.start 7 (by decide) (by decide) (by decide) (by decide)
  exact (hcommand.round (by decide) (by decide)).round (by decide) (by decide)

/-- Three callbacks, one of them where the lists change places. -/
theorem timers_exact_overflow :
    lateTimers.listed = [7] ∧ lateTimers.calls = [7, 7, 7] ∧
      lateTimes.runs lateTimers 7 =
        (2 ^ 64 + 4 - lateTimes.start 7) / (lateTimers.timer 7).xTimerPeriodInTicks := by
  have hhead : lateTimers.pxCurrentTimerList.head? = some 7 := by decide
  refine ⟨by decide, by decide,
    (timers_exact lateTimers_timed 7 (by decide)).2.2 fun y hy => ?_⟩
  cases hhead.symm.trans hy
  decide

end TimerDaemon

end FreeRtosSim
