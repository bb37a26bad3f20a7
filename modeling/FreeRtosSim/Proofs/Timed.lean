import Mathlib.Tactic.Ring
import FreeRtosSim.Kernel.Timers

/-!
# The lists of timers

Times are those of a clock that never wraps; the tick count shows them modulo
`2 ^ 64`. A timer waits in the list of the turn of the tick count in which it is
due. One that has expired, if not by a whole turn, has its callback for each of
its times that is over and waits for the next.
-/

namespace FreeRtosSim

variable {x y : TimerHandle} {d d' : TimerDaemon} {C D E N P T : Nat}
  {xs : List TimerHandle}

namespace TimerDaemon

/-- The timer waits for the time `D`, the time being `N`. -/
def enter (x : TimerHandle) (D N : Nat) (d : TimerDaemon) : TimerDaemon :=
  if D / 2 ^ 64 = N / 2 ^ 64 then (d.setItemValue x (D % 2 ^ 64)).insertCurrent x
  else (d.setItemValue x (D % 2 ^ 64)).insertOverflow x

/-- The comparisons of tick counts tell whether the time has come. -/
theorem insert_eq (hC : C ≤ N) (hN : N < C + 2 ^ 64)
    (hP : (d.timer x).xTimerPeriodInTicks < 2 ^ 64) :
    d.prvInsertTimerInActiveList x
        ((C + (d.timer x).xTimerPeriodInTicks) % 2 ^ 64) (N % 2 ^ 64) (C % 2 ^ 64) =
      if C + (d.timer x).xTimerPeriodInTicks ≤ N then
        (true, d.setItemValue x ((C + (d.timer x).xTimerPeriodInTicks) % 2 ^ 64))
      else (false, d.enter x (C + (d.timer x).xTimerPeriodInTicks) N) := by
  have htimer : ∀ v, ((d.setItemValue x v).timer x).xTimerPeriodInTicks =
      (d.timer x).xTimerPeriodInTicks := fun _ => rfl
  simp only [prvInsertTimerInActiveList, htimer, enter, tickSub]
  generalize (d.timer x).xTimerPeriodInTicks = P at hP
  by_cases hle : (C + P) % 2 ^ 64 ≤ N % 2 ^ 64
  · rw [if_pos hle]
    by_cases hdue : C + P ≤ N
    · rw [if_pos hdue, if_pos (by omega)]
    · rw [if_neg hdue, if_neg (by omega), if_neg (by omega)]
  · rw [if_neg hle]
    by_cases hdue : C + P ≤ N
    · rw [if_pos hdue, if_pos (by omega)]
    · rw [if_neg hdue, if_neg (by omega), if_pos (by omega)]

/-- `n` callbacks. -/
def callbacks (x : TimerHandle) (n : Nat) (d : TimerDaemon) : TimerDaemon :=
  { d with calls := List.replicate n x ++ d.calls }

theorem enter_again {v : Nat} :
    (d.setItemValue x v).enter x D N = d.enter x D N := by
  simp [enter, setItemValue, insertCurrent, insertOverflow]

theorem callbacks_callback {n : Nat} :
    (d.callback x).callbacks x n = d.callbacks x (n + 1) := by
  simp [callbacks, callback, List.replicate_succ']

theorem reloadLoop_eq {fuel : Nat} (hE : E ≤ N) (hN : N < E + 2 ^ 64)
    (hpos : 1 ≤ (d.timer x).xTimerPeriodInTicks)
    (hP : (d.timer x).xTimerPeriodInTicks < 2 ^ 64) (hfuel : N - E < fuel) :
    reloadLoop x (N % 2 ^ 64) fuel (E % 2 ^ 64) d =
      (d.callbacks x ((N - E) / (d.timer x).xTimerPeriodInTicks)).enter x
        (E + ((N - E) / (d.timer x).xTimerPeriodInTicks + 1) *
          (d.timer x).xTimerPeriodInTicks) N := by
  induction fuel generalizing E d with
  | zero => exact absurd hfuel (Nat.not_lt_zero _)
  | succ fuel ih =>
      have hnext : tickAdd (E % 2 ^ 64) (d.timer x).xTimerPeriodInTicks =
          (E + (d.timer x).xTimerPeriodInTicks) % 2 ^ 64 := Nat.mod_add_mod ..
      rw [reloadLoop, hnext, insert_eq hE hN hP]
      by_cases hdue : E + (d.timer x).xTimerPeriodInTicks ≤ N
      · rw [if_pos hdue]
        have htimer : ((d.setItemValue x ((E + (d.timer x).xTimerPeriodInTicks) %
            2 ^ 64)).callback x).timer x = d.timer x := rfl
        have hrest := ih (E := E + (d.timer x).xTimerPeriodInTicks)
          (d := (d.setItemValue x ((E + (d.timer x).xTimerPeriodInTicks) %
            2 ^ 64)).callback x) hdue (by omega) hpos hP (by omega)
        rw [if_pos rfl, hrest, htimer]
        generalize (d.timer x).xTimerPeriodInTicks = P at *
        have hdiv : (N - E) / P = (N - (E + P)) / P + 1 := by
          rw [Nat.div_eq_sub_div hpos (by omega), Nat.sub_sub]
        have hend : E + P + ((N - (E + P)) / P + 1) * P =
            E + ((N - E) / P + 1) * P := by
          rw [hdiv, Nat.add_mul ((N - (E + P)) / P + 1) 1 P, Nat.one_mul]
          omega
        rw [hend, callbacks_callback, ← hdiv]
        exact enter_again (d := d.callbacks x ((N - E) / P))
      · rw [if_neg hdue, if_neg (by simp)]
        have hdiv : (N - E) / (d.timer x).xTimerPeriodInTicks = 0 :=
          Nat.div_eq_of_lt (by omega)
        rw [hdiv, Nat.zero_add, Nat.one_mul]
        rfl

theorem prvReloadTimer_eq (hE : E ≤ N) (hN : N < E + 2 ^ 64)
    (hpos : 1 ≤ (d.timer x).xTimerPeriodInTicks)
    (hP : (d.timer x).xTimerPeriodInTicks < 2 ^ 64) :
    d.prvReloadTimer x (E % 2 ^ 64) (N % 2 ^ 64) =
      (d.callbacks x ((N - E) / (d.timer x).xTimerPeriodInTicks)).enter x
        (E + ((N - E) / (d.timer x).xTimerPeriodInTicks + 1) *
          (d.timer x).xTimerPeriodInTicks) N := by
  refine reloadLoop_eq hE hN hpos hP ?_
  rw [tickSub]
  omega

end TimerDaemon

/-! ## When a timer is due -/

/-- When a timer was started last, and how many callbacks it had had then. -/
structure TimerTimes where
  start : TimerHandle → Nat
  before : TimerHandle → Nat

namespace TimerTimes

variable {t : TimerTimes}

/-- The callbacks since the start. -/
def runs (t : TimerTimes) (d : TimerDaemon) (x : TimerHandle) : Nat :=
  d.calls.count x - t.before x

/-- The time at which the timer expires next. -/
def due (t : TimerTimes) (d : TimerDaemon) (x : TimerHandle) : Nat :=
  t.start x + (t.runs d x + 1) * (d.timer x).xTimerPeriodInTicks

/-- The timer is started at the time `C`. -/
def restart (t : TimerTimes) (x : TimerHandle) (C : Nat) (d : TimerDaemon) :
    TimerTimes where
  start := Function.update t.start x C
  before := Function.update t.before x (d.calls.count x)

theorem runs_restart (hcalls : d'.calls = d.calls) : (t.restart x C d).runs d' x = 0 := by
  simp [runs, restart, hcalls]

theorem due_restart (hcalls : d'.calls = d.calls) :
    (t.restart x C d).due d' x = C + (d'.timer x).xTimerPeriodInTicks := by
  rw [due, runs_restart hcalls]
  simp [restart]

end TimerTimes

namespace TimerDaemon

variable {t : TimerTimes} {e : Nat}

/-- The timers that wait. -/
def listed (d : TimerDaemon) : List TimerHandle :=
  d.pxCurrentTimerList ++ d.pxOverflowTimerList

/-- The lists at the time `T`, the tick count having overflowed `e` times. -/
structure Keeps (t : TimerTimes) (e T : Nat) (d : TimerDaemon) : Prop where
  period : ∀ x, 1 ≤ (d.timer x).xTimerPeriodInTicks ∧
    (d.timer x).xTimerPeriodInTicks < 2 ^ 64
  nodup : d.listed.Nodup
  current : ∀ x ∈ d.pxCurrentTimerList, t.due d x / 2 ^ 64 = e
  overflow : ∀ x ∈ d.pxOverflowTimerList, t.due d x / 2 ^ 64 = e + 1
  value : ∀ x ∈ d.listed, d.xItemValue x = t.due d x % 2 ^ 64
  sortedCurrent : SortedByKey d.xItemValue d.pxCurrentTimerList
  sortedOverflow : SortedByKey d.xItemValue d.pxOverflowTimerList
  before : ∀ x ∈ d.listed, t.before x ≤ d.calls.count x
  passed : ∀ x ∈ d.listed,
    t.start x + t.runs d x * (d.timer x).xTimerPeriodInTicks ≤ T
  once : ∀ x ∈ d.listed, (d.timer x).isAutoreload = false → t.runs d x = 0

namespace Keeps

variable (h : Keeps t e T d)

include h

theorem later (hT : T ≤ N) : Keeps t e N d :=
  { h with passed := fun x hx => Nat.le_trans (h.passed x hx) hT }

/-- Nothing else is different for the timers that wait. -/
theorem same (d' : TimerDaemon)
    (hcur : d'.pxCurrentTimerList = d.pxCurrentTimerList)
    (hover : d'.pxOverflowTimerList = d.pxOverflowTimerList)
    (hperiod : ∀ x, 1 ≤ (d'.timer x).xTimerPeriodInTicks ∧
      (d'.timer x).xTimerPeriodInTicks < 2 ^ 64)
    {t' : TimerTimes}
    (hstart : ∀ x ∈ d.listed, t'.start x = t.start x ∧ t'.before x = t.before x)
    (htimer : ∀ x ∈ d.listed, d'.timer x = d.timer x)
    (hvalue : ∀ x ∈ d.listed, d'.xItemValue x = d.xItemValue x)
    (hcalls : ∀ x ∈ d.listed, d'.calls.count x = d.calls.count x) :
    Keeps t' e T d' := by
  have hlisted : d'.listed = d.listed := by rw [listed, listed, hcur, hover]
  have hruns : ∀ x ∈ d.listed, t'.runs d' x = t.runs d x := fun x hx => by
    rw [TimerTimes.runs, TimerTimes.runs, hcalls x hx, (hstart x hx).2]
  have hdue : ∀ x ∈ d.listed, t'.due d' x = t.due d x := fun x hx => by
    rw [TimerTimes.due, TimerTimes.due, hruns x hx, htimer x hx, (hstart x hx).1]
  have hc : ∀ x ∈ d.pxCurrentTimerList, x ∈ d.listed :=
    fun x hx => List.mem_append_left _ hx
  have ho : ∀ x ∈ d.pxOverflowTimerList, x ∈ d.listed :=
    fun x hx => List.mem_append_right _ hx
  refine ⟨hperiod, hlisted ▸ h.nodup, fun x hx => ?_, fun x hx => ?_, fun x hx => ?_,
    ?_, ?_, fun x hx => ?_, fun x hx => ?_, fun x hx => ?_⟩
  · rw [hcur] at hx
    rw [hdue x (hc x hx)]
    exact h.current x hx
  · rw [hover] at hx
    rw [hdue x (ho x hx)]
    exact h.overflow x hx
  · rw [hlisted] at hx
    rw [hvalue x hx, hdue x hx]
    exact h.value x hx
  · rw [hcur]
    exact h.sortedCurrent.congr fun x hx => hvalue x (hc x hx)
  · rw [hover]
    exact h.sortedOverflow.congr fun x hx => hvalue x (ho x hx)
  · rw [hlisted] at hx
    rw [hcalls x hx, (hstart x hx).2]
    exact h.before x hx
  · rw [hlisted] at hx
    rw [hruns x hx, (hstart x hx).1, htimer x hx]
    exact h.passed x hx
  · rw [hlisted] at hx
    rw [hruns x hx, htimer x hx]
    exact h.once x hx

/-- Some of the timers. -/
theorem fewer {cur ovf : List TimerHandle}
    (hcur : List.Sublist cur d.pxCurrentTimerList)
    (hover : List.Sublist ovf d.pxOverflowTimerList) :
    Keeps t e T
      { d with pxCurrentTimerList := cur, pxOverflowTimerList := ovf } := by
  have hsub : List.Sublist (cur ++ ovf) d.listed := hcur.append hover
  exact
    { period := h.period
      nodup := h.nodup.sublist hsub
      current := fun x hx => h.current x (hcur.subset hx)
      overflow := fun x hx => h.overflow x (hover.subset hx)
      value := fun x hx => h.value x (hsub.subset hx)
      sortedCurrent := h.sortedCurrent.sublist hcur
      sortedOverflow := h.sortedOverflow.sublist hover
      before := fun x hx => h.before x (hsub.subset hx)
      passed := fun x hx => h.passed x (hsub.subset hx)
      once := fun x hx => h.once x (hsub.subset hx) }

/-- A timer begins to wait. -/
theorem enter (hx : x ∉ d.listed) (hN : N / 2 ^ 64 = e) (hnow : N < t.due d x)
    (hsoon : t.due d x < N + 2 ^ 64) (hbefore : t.before x ≤ d.calls.count x)
    (hpassed : t.start x + t.runs d x * (d.timer x).xTimerPeriodInTicks ≤ T)
    (honce : (d.timer x).isAutoreload = false → t.runs d x = 0) :
    Keeps t e T (d.enter x (t.due d x) N) := by
  have hne : ∀ y ∈ d.listed, y ≠ x := fun y hy he => hx (he ▸ hy)
  have hset : Keeps t e T (d.setItemValue x (t.due d x % 2 ^ 64)) :=
    h.same (d.setItemValue x (t.due d x % 2 ^ 64)) rfl rfl h.period
      (fun _ _ => ⟨rfl, rfl⟩) (fun _ _ => rfl)
      (fun y hy => Function.update_of_ne (hne y hy) ..) fun _ _ => rfl
  have hself : (d.setItemValue x (t.due d x % 2 ^ 64)).xItemValue x =
      t.due d x % 2 ^ 64 := Function.update_self ..
  have hvalue : ∀ y, y = x ∨ y ∈ d.listed →
      (d.setItemValue x (t.due d x % 2 ^ 64)).xItemValue y = t.due d y % 2 ^ 64 := by
    rintro y (rfl | hy)
    · exact hself
    · exact hset.value y hy
  have hbefore' : ∀ y, y = x ∨ y ∈ d.listed → t.before y ≤ d.calls.count y := by
    rintro y (rfl | hy)
    · exact hbefore
    · exact h.before y hy
  have hpassed' : ∀ y, y = x ∨ y ∈ d.listed →
      t.start y + t.runs d y * (d.timer y).xTimerPeriodInTicks ≤ T := by
    rintro y (rfl | hy)
    · exact hpassed
    · exact h.passed y hy
  have honce' : ∀ y, y = x ∨ y ∈ d.listed →
      (d.timer y).isAutoreload = false → t.runs d y = 0 := by
    rintro y (rfl | hy)
    · exact honce
    · exact h.once y hy
  rw [TimerDaemon.enter]
  split
  · next hepoch =>
      have hperm : ((d.setItemValue x (t.due d x % 2 ^ 64)).insertCurrent
          x).listed.Perm (x :: d.listed) :=
        (List.perm_orderedInsert _ x d.pxCurrentTimerList).append_right _
      have hmem := fun y => (hperm.mem_iff (a := y)).trans List.mem_cons
      exact
        { period := h.period
          nodup := hperm.nodup_iff.mpr (List.nodup_cons.mpr ⟨hx, h.nodup⟩)
          current := fun y hy => by
            rcases mem_insertByKey.mp hy with rfl | hy
            · exact hepoch.trans hN
            · exact h.current y hy
          overflow := h.overflow
          value := fun y hy => hvalue y ((hmem y).mp hy)
          sortedCurrent := hset.sortedCurrent.insertByKey
          sortedOverflow := hset.sortedOverflow
          before := fun y hy => hbefore' y ((hmem y).mp hy)
          passed := fun y hy => hpassed' y ((hmem y).mp hy)
          once := fun y hy => honce' y ((hmem y).mp hy) }
  · next hepoch =>
      have hperm : ((d.setItemValue x (t.due d x % 2 ^ 64)).insertOverflow
          x).listed.Perm (x :: d.listed) :=
        ((List.perm_orderedInsert _ x d.pxOverflowTimerList).append_left _).trans
          List.perm_middle
      have hmem := fun y => (hperm.mem_iff (a := y)).trans List.mem_cons
      exact
        { period := h.period
          nodup := hperm.nodup_iff.mpr (List.nodup_cons.mpr ⟨hx, h.nodup⟩)
          current := h.current
          overflow := fun y hy => by
            rcases mem_insertByKey.mp hy with rfl | hy
            · change t.due d y / 2 ^ 64 = e + 1
              omega
            · exact h.overflow y hy
          value := fun y hy => hvalue y ((hmem y).mp hy)
          sortedCurrent := hset.sortedCurrent
          sortedOverflow := hset.sortedOverflow.insertByKey
          before := fun y hy => hbefore' y ((hmem y).mp hy)
          passed := fun y hy => hpassed' y ((hmem y).mp hy)
          once := fun y hy => honce' y ((hmem y).mp hy) }

/-- The callbacks of a timer that does not wait. -/
theorem called (hx : x ∉ d.listed) (n : Nat) : Keeps t e T (d.callbacks x n) := by
  refine h.same (d.callbacks x n) rfl rfl h.period (fun _ _ => ⟨rfl, rfl⟩)
    (fun _ _ => rfl) (fun _ _ => rfl) fun y hy => ?_
  have hyx : y ≠ x := fun he => hx (he ▸ hy)
  rw [callbacks, List.count_append, List.count_replicate, if_neg (by simpa using hyx.symm),
    Nat.zero_add]

omit h in
theorem runs_callbacks {n : Nat} (hbefore : t.before x ≤ d.calls.count x) :
    t.runs (d.callbacks x n) x = t.runs d x + n := by
  rw [TimerTimes.runs, TimerTimes.runs, callbacks, List.count_append,
    List.count_replicate_self]
  omega

omit h in
theorem enter_callback :
    (d.enter x D N).callback x = (d.callback x).enter x D N := by
  rw [TimerDaemon.enter, TimerDaemon.enter]
  split <;> rfl

omit h in
theorem mem_enter (hy : y ∈ (d.enter x D N).listed) : y = x ∨ y ∈ d.listed := by
  rw [TimerDaemon.enter] at hy
  split at hy
  · simpa [listed, insertCurrent, setItemValue, or_assoc] using hy
  · simpa [listed, insertOverflow, setItemValue, or_left_comm] using hy

omit h in
/-- At the last moment before the overflow there is nothing left to enter into
the current list. -/
theorem enter_current (hD : N < D) (hlast : (N + 1) % 2 ^ 64 = 0) :
    (d.enter x D N).pxCurrentTimerList = d.pxCurrentTimerList := by
  rw [TimerDaemon.enter, if_neg (by omega)]
  rfl

/-- A timer that does not wait has expired: it has its callbacks and waits for
the next time that is not over. -/
theorem reload (hx : x ∉ d.listed) (hN : N / 2 ^ 64 = e) (hT : T ≤ N)
    (hE : t.due d x ≤ N) (hlate : N < t.due d x + 2 ^ 64)
    (hbefore : t.before x ≤ d.calls.count x)
    (hauto : (d.timer x).isAutoreload = true) :
    Keeps t e N ((d.prvReloadTimer x (t.due d x % 2 ^ 64) (N % 2 ^ 64)).callback x) ∧
      (∀ y ∈ ((d.prvReloadTimer x (t.due d x % 2 ^ 64) (N % 2 ^ 64)).callback x).listed,
        y = x ∨ y ∈ d.listed) ∧
      ((N + 1) % 2 ^ 64 = 0 → ((d.prvReloadTimer x (t.due d x % 2 ^ 64)
        (N % 2 ^ 64)).callback x).pxCurrentTimerList = d.pxCurrentTimerList) := by
  obtain ⟨hpos, hP⟩ := h.period x
  rw [prvReloadTimer_eq hE hlate hpos hP, enter_callback]
  have hcalls : (d.callbacks x ((N - t.due d x) /
      (d.timer x).xTimerPeriodInTicks)).callback x =
      d.callbacks x ((N - t.due d x) / (d.timer x).xTimerPeriodInTicks + 1) := rfl
  rw [hcalls]
  have hruns := runs_callbacks (n := (N - t.due d x) /
    (d.timer x).xTimerPeriodInTicks + 1) hbefore
  have hdm := Nat.div_add_mod (N - t.due d x) (d.timer x).xTimerPeriodInTicks
  have hmod := Nat.mod_lt (N - t.due d x) hpos
  have hdue : t.due d x = t.start x + (t.runs d x + 1) *
      (d.timer x).xTimerPeriodInTicks := rfl
  generalize hq : (N - t.due d x) / (d.timer x).xTimerPeriodInTicks = q at *
  have hnext : t.due (d.callbacks x (q + 1)) x =
      t.due d x + (q + 1) * (d.timer x).xTimerPeriodInTicks := by
    rw [TimerTimes.due, hruns, hdue]
    change t.start x + (t.runs d x + (q + 1) + 1) *
      (d.timer x).xTimerPeriodInTicks = _
    ring
  have hsum : (q + 1) * (d.timer x).xTimerPeriodInTicks =
      (d.timer x).xTimerPeriodInTicks * q + (d.timer x).xTimerPeriodInTicks := by ring
  have hk : Keeps t e N (d.callbacks x (q + 1)) := (h.called hx (q + 1)).later hT
  have hahead : N < t.due (d.callbacks x (q + 1)) x := by
    rw [hnext]
    omega
  rw [← hnext]
  refine ⟨hk.enter hx hN hahead ?_ ?_ ?_ ?_,
    fun y hy => mem_enter (d := d.callbacks x (q + 1)) hy,
    fun hlast => enter_current hahead hlast⟩
  · rw [hnext]
    omega
  · rw [callbacks, List.count_append]
    omega
  · rw [hruns]
    change t.start x + (t.runs d x + (q + 1)) * (d.timer x).xTimerPeriodInTicks ≤ N
    have hsplit : t.start x + (t.runs d x + (q + 1)) *
        (d.timer x).xTimerPeriodInTicks =
        t.due d x + (d.timer x).xTimerPeriodInTicks * q := by
      rw [hdue]
      ring
    omega
  · intro hno
    exact absurd (hauto.symm.trans hno) (by simp)

/-- A one-shot timer has expired. -/
theorem finish (hx : x ∉ d.listed) (hT : T ≤ N) :
    Keeps t e N ((d.setActive x false).callback x) := by
  refine ((h.called hx 1).later hT).same ((d.setActive x false).callback x) rfl rfl
    (fun y => ?_) (fun _ _ => ⟨rfl, rfl⟩) (fun y hy => ?_) (fun _ _ => rfl)
    fun _ _ => rfl
  · by_cases hyx : y = x
    · subst hyx
      simpa [setActive, modifyTimer, callback] using h.period y
    · simpa [setActive, modifyTimer, callback, hyx] using h.period y
  · have hyx : y ≠ x := fun he => hx (he ▸ hy)
    exact Function.update_of_ne hyx ..

/-- The first timer of the current list has expired. -/
theorem process (hcur : d.pxCurrentTimerList = x :: xs) (hN : N / 2 ^ 64 = e)
    (hT : T ≤ N) (hE : t.due d x ≤ N) :
    Keeps t e N (d.prvProcessExpiredTimer (d.xItemValue x) (N % 2 ^ 64)) ∧
      (∀ y ∈ (d.prvProcessExpiredTimer (d.xItemValue x) (N % 2 ^ 64)).listed,
        y ∈ d.listed) ∧
      ((N + 1) % 2 ^ 64 = 0 → (d.prvProcessExpiredTimer (d.xItemValue x)
        (N % 2 ^ 64)).pxCurrentTimerList = xs) := by
  have hxcur : x ∈ d.pxCurrentTimerList := hcur ▸ List.mem_cons_self ..
  have hx : x ∈ d.listed := List.mem_append_left _ hxcur
  have hrest : Keeps t e T { d with pxCurrentTimerList := xs } :=
    h.fewer (hcur ▸ List.sublist_cons_self x xs) (List.Sublist.refl _)
  have hnot : x ∉ ({ d with pxCurrentTimerList := xs } : TimerDaemon).listed := by
    have hnd := h.nodup
    rw [listed, hcur, List.cons_append] at hnd
    exact (List.nodup_cons.mp hnd).1
  have hsub : ∀ y ∈ ({ d with pxCurrentTimerList := xs } : TimerDaemon).listed,
      y ∈ d.listed := fun y hy => by
    rw [listed, hcur, List.cons_append]
    exact List.mem_cons_of_mem x hy
  have hepoch := h.current x hxcur
  rw [prvProcessExpiredTimer, hcur]
  dsimp only
  rw [h.value x hx]
  cases hauto : (d.timer x).isAutoreload with
  | true =>
      rw [if_pos rfl]
      obtain ⟨hk, hmem, hlast⟩ := hrest.reload hnot hN hT hE
        (by change N < t.due d x + 2 ^ 64; omega) (h.before x hx) hauto
      refine ⟨hk, fun y hy => ?_, hlast⟩
      rcases hmem y hy with rfl | hy
      · exact hx
      · exact hsub y hy
  | false =>
      rw [if_neg (by simp)]
      exact ⟨hrest.finish hnot hT, hsub, fun _ => rfl⟩

/-- Before the lists change places all timers of the current list have their
callbacks. -/
theorem switchLoop {fuel : Nat} (hN : N / 2 ^ 64 = e) (hT : T ≤ N)
    (hlast : (N + 1) % 2 ^ 64 = 0) (hfuel : d.pxCurrentTimerList.length ≤ fuel) :
    Keeps t e N (TimerDaemon.switchLoop fuel d) ∧
      (TimerDaemon.switchLoop fuel d).pxCurrentTimerList = [] ∧
      ∀ y ∈ (TimerDaemon.switchLoop fuel d).listed, y ∈ d.listed := by
  induction fuel generalizing d T with
  | zero =>
      exact ⟨h.later hT, List.length_eq_zero_iff.mp (Nat.le_zero.mp hfuel),
        fun _ hy => hy⟩
  | succ fuel ih =>
      rw [TimerDaemon.switchLoop]
      cases hcur : d.pxCurrentTimerList with
      | nil => exact ⟨h.later hT, hcur, fun _ hy => hy⟩
      | cons x xs =>
          have hepoch := h.current x (hcur ▸ List.mem_cons_self ..)
          have hmax : tmrMaxTimeBeforeOverflow = N % 2 ^ 64 := by
            rw [tmrMaxTimeBeforeOverflow]
            omega
          obtain ⟨hk, hmem, hxs⟩ := h.process hcur hN hT (by omega)
          dsimp only
          rw [hmax]
          have hlen : (d.prvProcessExpiredTimer (d.xItemValue x)
              (N % 2 ^ 64)).pxCurrentTimerList.length ≤ fuel := by
            rw [hxs hlast]
            rw [hcur, List.length_cons] at hfuel
            omega
          obtain ⟨hk', hnil, hmem'⟩ := ih hk (Nat.le_refl N) hlen
          exact ⟨hk', hnil, fun y hy => hmem y (hmem' y hy)⟩

/-- The tick count has overflowed since `T`. -/
theorem switch (hT : T / 2 ^ 64 = e) (hN : N / 2 ^ 64 = e + 1) :
    Keeps t (e + 1) N d.prvSwitchTimerLists ∧
      ∀ y ∈ d.prvSwitchTimerLists.listed, y ∈ d.listed := by
  obtain ⟨hk, hnil, hmem⟩ := h.switchLoop (N := e * 2 ^ 64 + (2 ^ 64 - 1)) (by omega)
    (by omega) (by omega) (Nat.le_refl _)
  have hperm : d.prvSwitchTimerLists.listed.Perm
      (TimerDaemon.switchLoop d.pxCurrentTimerList.length d).listed :=
    List.perm_append_comm
  have hsub := fun y => (hperm.mem_iff (a := y)).mp
  refine ⟨?_, fun y hy => hmem y (hsub y hy)⟩
  exact
    { period := hk.period
      nodup := hperm.nodup_iff.mpr hk.nodup
      current := hk.overflow
      overflow := fun y hy => by
        have hy' : y ∈ (TimerDaemon.switchLoop
          d.pxCurrentTimerList.length d).pxCurrentTimerList := hy
        rw [hnil] at hy'
        exact absurd hy' List.not_mem_nil
      value := fun y hy => hk.value y (hsub y hy)
      sortedCurrent := hk.sortedOverflow
      sortedOverflow := hk.sortedCurrent
      before := fun y hy => hk.before y (hsub y hy)
      passed := fun y hy => Nat.le_trans (hk.passed y (hsub y hy)) (by omega)
      once := fun y hy => hk.once y (hsub y hy) }

end Keeps

end TimerDaemon

end FreeRtosSim
