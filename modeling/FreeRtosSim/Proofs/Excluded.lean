import FreeRtosSim.Lib.Lock
import FreeRtosSim.Proofs.Held

/-!
# Mutual exclusion, and loans that end

`Accounted` and where the tasks are in their calls are kept by every step, so they
hold in every state of a run. What comes of it: the takes and gives of a mutex
are the history of a lock, and the fields that remember a loan are right.

Three assertions in the functions can fail, and each in one way. A mutex is given
that another task holds. A task times out on a mutex that it holds itself, and
had taken to have caused its own loan. And `xQueueSemaphoreTake` asserts that a
task which leaves without the mutex had caused no inheritance, where a task whose
time was up, that saw the mutex free and lost it again, did.
-/

namespace FreeRtosSim

variable {alg : Algorithm} {x y : TaskHandle} {m n : MutexHandle}
  {mutexes : Finset MutexHandle} {recursive : MutexHandle → Bool}

/-! ## Where a task is -/

namespace MutexPhase

/-- The task has the mutex and is in a call. -/
def Has (m : MutexHandle) : MutexPhase → Prop
  | .taken n | .giving n => n = m
  | _ => False

/-- The task is in `xQueueSemaphoreTake` and has not got the mutex. -/
def Seeks (m : MutexHandle) : MutexPhase → Prop
  | .attempt n _ _ | .failed n _ | .waiting n _ | .lastLook n _
  | .disinherit n => n = m
  | _ => False

theorem not_has_of_seeks {p : MutexPhase} (h : p.Seeks m) : ¬ p.Has n := by
  cases p <;> first | exact h.elim | exact id

end MutexPhase

namespace MutexSystem

open MutexKernel

variable {s s' : MutexSystem} {k : MutexKernel} {p : MutexPhase} {e : MutexEvent}

/-- Nobody counts on the recursive calls of the mutex: it is not recursive, it
is free, or its holder is about to count or to give it back. -/
def Uncounted (recursive : MutexHandle → Bool) (m : MutexHandle)
    (s : MutexSystem) : Prop :=
  recursive m = false ∨ ∀ x, s.holder m = some x → (s.phase x).Has m

structure Orderly (mutexes : Finset MutexHandle)
    (recursive : MutexHandle → Bool) (s : MutexSystem) : Prop where
  kept : Accounted mutexes s.created s.kernel
  uses : ∀ x m, (s.phase x).Has m ∨ (s.phase x).Seeks m →
    x ∈ s.created ∧ m ∈ mutexes
  has : ∀ x m, recursive m = true → (s.phase x).Has m → s.holder m = some x
  taken : ∀ x m, s.phase x = .taken m → recursive m = true
  counts : ∀ m ∈ mutexes,
    (s.kernel.mutex m).uxRecursiveCallCount = 0 ↔ s.Uncounted recursive m

namespace Orderly

variable (h : s.Orderly mutexes recursive)

include h

theorem running_created (hrun : s.Runs x) : x ∈ s.created :=
  h.kept.settled.linked.current x (by rw [hrun]; rfl)

/-- A step of `x`: the other tasks keep what they have, and `x` goes to `p`. -/
theorem next (hx : x ∈ s.created) (hkept : Accounted mutexes s.created k)
    (hothers : ∀ y, y ≠ x → ∀ n,
      (k.mutex n).xMutexHolder = some y ↔ s.holder n = some y)
    (huses : ∀ n, p.Has n ∨ p.Seeks n → n ∈ mutexes)
    (hhas : ∀ n, recursive n = true → p.Has n → (k.mutex n).xMutexHolder = some x)
    (htaken : ∀ n, p = .taken n → recursive n = true)
    (hcounts : ∀ n ∈ mutexes, (k.mutex n).uxRecursiveCallCount = 0 ↔
      Uncounted recursive n { s.setPhase x p with kernel := k }) :
    Orderly mutexes recursive { s.setPhase x p with kernel := k } := by
  have hself : ({ s.setPhase x p with kernel := k } : MutexSystem).phase x = p :=
    Function.update_self ..
  have hother : ∀ y, y ≠ x →
      ({ s.setPhase x p with kernel := k } : MutexSystem).phase y = s.phase y :=
    fun y hy => Function.update_of_ne hy ..
  refine ⟨hkept, fun y n hy => ?_, fun y n hrec hy => ?_, fun y n hy => ?_, hcounts⟩
  · by_cases hyx : y = x
    · subst hyx
      rw [hself] at hy
      exact ⟨hx, huses n hy⟩
    · rw [hother y hyx] at hy
      exact h.uses y n hy
  · by_cases hyx : y = x
    · subst hyx
      rw [hself] at hy
      exact hhas n hrec hy
    · rw [hother y hyx] at hy
      exact (hothers y hyx n).mpr (h.has y n hrec hy)
  · by_cases hyx : y = x
    · subst hyx
      rw [hself] at hy
      exact htaken n hy
    · rw [hother y hyx] at hy
      exact h.taken y n hy

/-- A mutex whose holder and whose count are as before, and which `x` has in
its calls if and only if it had it. -/
theorem counts_same (hn : n ∈ mutexes)
    (hholder : (k.mutex n).xMutexHolder = s.holder n)
    (hcount : (k.mutex n).uxRecursiveCallCount =
      (s.kernel.mutex n).uxRecursiveCallCount)
    (hp : s.holder n = some x → (p.Has n ↔ (s.phase x).Has n)) :
    (k.mutex n).uxRecursiveCallCount = 0 ↔
      Uncounted recursive n { s.setPhase x p with kernel := k } := by
  rw [hcount, h.counts n hn, Uncounted, Uncounted]
  refine or_congr_right (forall_congr' fun y => ?_)
  have hh : ({ s.setPhase x p with kernel := k } : MutexSystem).holder n =
      s.holder n := hholder
  rw [hh]
  refine imp_congr_right fun hy => ?_
  by_cases hyx : y = x
  · subst hyx
    rw [show ({ s.setPhase y p with kernel := k } : MutexSystem).phase y = p from
      Function.update_self ..]
    exact (hp hy).symm
  · rw [show ({ s.setPhase x p with kernel := k } : MutexSystem).phase y =
      s.phase y from Function.update_of_ne hyx ..]

/-- A step that only moves `x` on in `xQueueSemaphoreTake`, in and out of it
included. -/
theorem moveOn (hrun : s.Runs x) (hkept : Accounted mutexes s.created k)
    (hholder : ∀ n, (k.mutex n).xMutexHolder = s.holder n)
    (hcount : ∀ n, (k.mutex n).uxRecursiveCallCount =
      (s.kernel.mutex n).uxRecursiveCallCount)
    (hold : ∀ n, ¬ (s.phase x).Has n) (hnew : ∀ n, ¬ p.Has n)
    (hseeks : ∀ n, p.Seeks n → n ∈ mutexes) :
    Orderly mutexes recursive { s.setPhase x p with kernel := k } := by
  refine h.next (h.running_created hrun) hkept (fun y _ n => by rw [hholder n])
    (fun n hn => ?_) (fun n _ hn => absurd hn (hnew n)) (fun n hn => ?_) fun n hn => ?_
  · exact hseeks n (hn.resolve_left (hnew n))
  · exact absurd (hn ▸ rfl) (hnew n)
  · exact h.counts_same hn (hholder n) (hcount n) fun _ =>
      iff_of_false (hnew n) (hold n)

omit h in
theorem setPhase_same : s.setPhase x (s.phase x) = s := by
  rw [setPhase, Function.update_eq_self]

/-- A step of something else than the functions for mutexes. -/
theorem still {created' : List TaskHandle}
    (hkept : Accounted mutexes created' k) (hsub : ∀ x ∈ s.created, x ∈ created')
    (hholder : ∀ n, (k.mutex n).xMutexHolder = s.holder n)
    (hcount : SameCalls s.kernel k) :
    Orderly mutexes recursive { s with kernel := k, created := created' } where
  kept := hkept
  uses y n hy := (h.uses y n hy).imp_left (hsub y)
  has y n hrec hy := (hholder n).trans (h.has y n hrec hy)
  taken := h.taken
  counts n hn := by
    rw [hcount n, h.counts n hn, Uncounted, Uncounted]
    refine or_congr_right (forall_congr' fun y => ?_)
    rw [show ({ s with kernel := k, created := created' } : MutexSystem).holder n =
      s.holder n from hholder n]

theorem mem_of_seeks (hp : (s.phase x).Seeks m) : m ∈ mutexes :=
  (h.uses x m (Or.inr hp)).2

theorem mem_of_has (hp : (s.phase x).Has m) : m ∈ mutexes :=
  (h.uses x m (Or.inl hp)).2

/-- `uxRecursiveCallCount` is zero while the holder gives the mutex back or has
not counted yet. -/
theorem count_zero (hp : (s.phase x).Has m) :
    (s.kernel.mutex m).uxRecursiveCallCount = 0 := by
  refine (h.counts m (h.mem_of_has hp)).mpr ?_
  cases hrec : recursive m with
  | false => exact Or.inl hrec
  | true =>
      refine Or.inr fun y hy => ?_
      rwa [← Option.some.inj ((h.has x m hrec hp).symm.trans hy)]

theorem count_free (hm : m ∈ mutexes) (hfree : s.holder m = none) :
    (s.kernel.mutex m).uxRecursiveCallCount = 0 :=
  (h.counts m hm).mpr <| Or.inr fun y hy => absurd (hfree.symm.trans hy) (by simp)

/-- Outside of the functions the holder of a recursive mutex has at least one
call to give back. -/
theorem count_ne_zero (hm : m ∈ mutexes) (hrec : recursive m = true)
    (hholder : s.holder m = some x) (hp : ¬ (s.phase x).Has m) :
    (s.kernel.mutex m).uxRecursiveCallCount ≠ 0 := by
  intro hz
  rcases (h.counts m hm).mp hz with hno | hall
  · exact absurd (hrec.symm.trans hno) (by simp)
  · exact hp (hall x hholder)

theorem held_of_empty (hm : m ∈ mutexes)
    (hempty : (s.kernel.mutex m).queue.prvIsQueueEmpty = true) :
    ∃ y, s.holder m = some y := by
  obtain ⟨y, -, hy⟩ := ((h.kept.free m hm).resolve_left fun hl => by
    simp [QueueDefinition.prvIsQueueEmpty, hl.1] at hempty).2
  exact ⟨y, hy⟩

/-- A call that only goes on to the next place. -/
theorem proceed (hrun : s.Runs x) (hold : ∀ n, ¬ (s.phase x).Has n)
    (hnew : ∀ n, ¬ p.Has n) (hseeks : ∀ n, p.Seeks n → n ∈ mutexes) :
    Orderly mutexes recursive (s.setPhase x p) :=
  h.moveOn (k := s.kernel) hrun h.kept (fun _ => rfl) (fun _ => rfl) hold hnew hseeks

/-- The same inside of `xQueueSemaphoreTake`. -/
theorem seekOn (hrun : s.Runs x) (hold : (s.phase x).Seeks m)
    (hnew : ∀ n, p.Seeks n → n = m) (hhas : ∀ n, ¬ p.Has n) :
    Orderly mutexes recursive (s.setPhase x p) :=
  h.proceed hrun (fun _ => MutexPhase.not_has_of_seeks hold) hhas fun n hn => by
    rw [hnew n hn]
    exact h.mem_of_seeks hold

/-- The running task gets the mutex. -/
theorem succeed {mayBlock inherited : Bool} (hrun : s.Runs x)
    (hphase : s.phase x = .attempt m mayBlock inherited)
    (hok : s.kernel.takeSection m = some k) :
    s.holder m = none ∧ (k.mutex m).xMutexHolder = some x ∧
      (∀ n, n ≠ m → (k.mutex n).xMutexHolder = s.holder n) ∧
      Orderly mutexes recursive
        { s.setPhase x (if recursive m then .taken m else .outside) with
          kernel := k } := by
  have hseek : (s.phase x).Seeks m := hphase ▸ rfl
  have hm := h.mem_of_seeks hseek
  obtain ⟨hkept, hhands, hcalls, hfree⟩ := h.kept.take hm hrun hok
  have hp : ∀ n, (if recursive m then MutexPhase.taken m else .outside).Has n →
      n = m := by
    intro n hn
    split at hn
    · exact hn.symm
    · exact hn.elim
  refine ⟨hfree, hhands.self, fun n hn => hhands.other hn,
    h.next (h.running_created hrun) hkept (fun y hy n => ?_) (fun n hn => ?_)
      (fun n _ hn => ?_) (fun n hn => ?_) fun n hn => ?_⟩
  · exact hhands.others (fun he => hy (Option.some.inj he).symm)
      (by rw [hfree]; simp) n
  · rcases hn with hn | hn
    · exact hp n hn ▸ hm
    · split at hn <;> exact hn.elim
  · rw [hp n hn]
    exact hhands.self
  · split at hn
    · next hrec =>
        cases hn
        exact hrec
    · cases hn
  · by_cases hnm : n = m
    · -- the mutex was free, so nothing was counted
      subst hnm
      refine iff_of_true ((hcalls n).trans (h.count_free hn hfree)) ?_
      cases hrec : recursive n with
      | false => exact Or.inl hrec
      | true =>
          refine Or.inr fun y hy => ?_
          rw [← Option.some.inj (hhands.self.symm.trans hy)]
          exact (congrArg (MutexPhase.Has n)
            (Function.update_self ..)).mpr (by rw [if_pos rfl]; rfl)
    · exact h.counts_same hn (hhands.other hnm) (hcalls n) fun _ =>
        iff_of_false (fun hh => hnm (hp n hh)) (MutexPhase.not_has_of_seeks hseek)

/-- Who gives a mutex back held it, and otherwise nothing is done. -/
theorem send {sent : Bool} (hrun : s.Runs x) (hphase : s.phase x = .giving m)
    (hok : s.kernel.xQueueGenericSend alg m = some (sent, k)) :
    (sent = true ∧ s.holder m = some x ∧ (k.mutex m).xMutexHolder = none ∧
      (∀ n, n ≠ m → (k.mutex n).xMutexHolder = s.holder n) ∨
      sent = false ∧ k = s.kernel) ∧
      Orderly mutexes recursive { s.setPhase x .outside with kernel := k } := by
  have hp : (s.phase x).Has m := hphase ▸ rfl
  have hm := h.mem_of_has hp
  have hnot : ∀ n, n ≠ m → ¬ (s.phase x).Has n := fun n hn hh =>
    hn (hphase ▸ hh : (MutexPhase.giving m).Has n).symm
  rcases h.kept.send_cases hm hrun hok with hholder | ⟨rfl, rfl, hfree⟩
  · obtain ⟨hkept, hhands, hcalls, hsent⟩ := h.kept.send hm hholder hok
    refine ⟨Or.inl ⟨hsent, hholder, hhands.self, fun n hn => hhands.other hn⟩,
      h.next (h.running_created hrun) hkept (fun y hy n => ?_)
        (fun n hn => (hn.elim id id).elim) (fun n _ hn => hn.elim)
        (fun n hn => by cases hn) fun n hn => ?_⟩
    · exact hhands.others (by simp)
        (fun he => hy (Option.some.inj (he.symm.trans hholder))) n
    · by_cases hnm : n = m
      · subst hnm
        exact iff_of_true ((hcalls n).trans (h.count_zero hp))
          (Or.inr fun y hy => absurd (hhands.self.symm.trans hy) (by simp))
      · exact h.counts_same hn (hhands.other hnm) (hcalls n) fun _ =>
          iff_of_false id (hnot n hnm)
  · -- the mutex was free, so the queue is full
    refine ⟨Or.inr ⟨rfl, rfl⟩, h.next (k := s.kernel) (h.running_created hrun) h.kept
      (fun y hy n => Iff.rfl) (fun n hn => (hn.elim id id).elim) (fun n _ hn => hn.elim)
      (fun n hn => by cases hn) fun n hn => ?_⟩
    refine h.counts_same hn rfl rfl fun hx => iff_of_false id (hnot n ?_)
    rintro rfl
    exact absurd (hfree.symm.trans hx) (by simp)

omit h in
theorem countCalls_holder {f : Nat → Nat} (n : MutexHandle) :
    ((k.countCalls m f).mutex n).xMutexHolder = (k.mutex n).xMutexHolder := by
  by_cases hn : n = m
  · subst hn
    simp [countCalls]
  · simp [countCalls, setMutex_of_ne hn]

/-- The holder writes `uxRecursiveCallCount`. -/
theorem recount {f : Nat → Nat} (hrun : s.Runs x) (hm : m ∈ mutexes)
    (hrec : recursive m = true) (hholder : s.holder m = some x)
    (hold : ∀ n, (s.phase x).Has n → n = m) (hp : p = .outside ∨ p = .giving m)
    (hf : f (s.kernel.mutex m).uxRecursiveCallCount = 0 ↔ p = .giving m) :
    Orderly mutexes recursive
      { s.setPhase x p with kernel := s.kernel.countCalls m f } := by
  have hhas : ∀ n, p.Has n → p = .giving m ∧ n = m := by
    rintro n hn
    rcases hp with rfl | rfl
    · exact hn.elim
    · exact ⟨rfl, hn.symm⟩
  refine h.next (h.running_created hrun) (h.kept.count f hm)
    (fun y _ n => by rw [countCalls_holder n, holder]) (fun n hn => ?_)
    (fun n _ hn => ?_) (fun n hn => ?_) fun n hn => ?_
  · rcases hn with hn | hn
    · exact (hhas n hn).2 ▸ hm
    · rcases hp with rfl | rfl <;> exact hn.elim
  · rw [countCalls_holder n, (hhas n hn).2]
    exact hholder
  · rcases hp with rfl | rfl <;> cases hn
  · by_cases hnm : n = m
    · subst hnm
      have hcount : ((s.kernel.countCalls n f).mutex n).uxRecursiveCallCount =
          f (s.kernel.mutex n).uxRecursiveCallCount := by simp [countCalls]
      rw [hcount, hf]
      refine ⟨fun hg => Or.inr fun y hy => ?_, fun hun => ?_⟩
      · rw [← Option.some.inj (hholder.symm.trans ((countCalls_holder n).symm.trans hy))]
        exact (congrArg (MutexPhase.Has n) (Function.update_self ..)).mpr (hg ▸ rfl)
      · rcases hun with hno | hall
        · exact absurd (hrec.symm.trans hno) (by simp)
        · have hx := hall x ((countCalls_holder n).trans hholder)
          exact (hhas n ((congrArg (MutexPhase.Has n)
            (Function.update_self ..)).mp hx)).1
    · refine h.counts_same hn (countCalls_holder n) ?_ fun _ =>
        iff_of_false (fun hh => hnm (hhas n hh).2) fun hh => hnm (hold n hh)
      simp [countCalls, setMutex_of_ne hnm]

end Orderly

/-- Every step of the tasks, of the kernel and of the interrupts. -/
theorem Orderly.step (h : s.Orderly mutexes recursive)
    (hstep : Step alg mutexes recursive s e s') : s'.Orderly mutexes recursive := by
  cases hstep with
  | call hc hallowed hok =>
      exact h.still (h.kept.call hc hallowed hok)
        (fun x hx => mem_createdAfter.mpr (Or.inr (Or.inr hx))) (fun _ => rfl)
        fun _ => rfl
  | prioritySet hx hok =>
      obtain ⟨hkept, hmutex⟩ := h.kept.prioritySet hx hok
      exact h.still hkept (fun _ => id) (fun n => by rw [hmutex, holder])
        fun n => by rw [hmutex]
  | @take x m mayBlock hm hrun hphase hother hblock =>
      refine h.proceed hrun (fun n hn => ?_) (fun n => id) fun n hn => ?_
      · rw [hphase] at hn
        exact hn
      · exact (show m = n from hn) ▸ hm
  | @takeAgain x m hm hrun hphase hrec hholder =>
      have hp : ∀ n, ¬ (s.phase x).Has n := fun n hn => by
        rw [hphase] at hn
        exact hn
      have hnext := h.recount (f := (· + 1)) (p := .outside) hrun hm hrec hholder
        (fun n hn => absurd hn (hp n)) (Or.inl rfl)
        (iff_of_false (Nat.succ_ne_zero _) (by simp))
      rwa [← hphase, setPhase_same] at hnext
  | succeed hrun hphase hsection => exact (h.succeed hrun hphase hsection).2.2.2
  | @count x m hrun hphase =>
      have hp : (s.phase x).Has m := hphase ▸ rfl
      have hrec := h.taken x m hphase
      refine h.recount hrun (h.mem_of_has hp) hrec (h.has x m hrec hp) (fun n hn => ?_)
        (Or.inl rfl) (iff_of_false (Nat.succ_ne_zero _) (by simp))
      rw [hphase] at hn
      exact hn.symm
  | @fail x m inherited hrun hphase hsection =>
      exact h.seekOn hrun (hphase ▸ rfl) (fun n hn => hn.symm) fun n => id
  | @leave x m hrun hphase hsection =>
      exact h.seekOn (m := m) hrun (hphase ▸ rfl) (fun n hn => hn.elim) fun n => id
  | @wait x m inherited xTicksToWait hrun hphase hsuspended hempty =>
      have hseek : (s.phase x).Seeks m := hphase ▸ rfl
      have hm := h.mem_of_seeks hseek
      obtain ⟨y, hholder⟩ := h.held_of_empty hm hempty
      obtain ⟨hkept, hhold, hcalls, -⟩ :=
        h.kept.wait (n := xTicksToWait) alg hm hrun hholder
      refine h.moveOn hrun hkept hhold hcalls
        (fun _ => MutexPhase.not_has_of_seeks hseek) (fun n => id) fun n hn => ?_
      exact (show m = n from hn) ▸ hm
  | @again x m inherited hrun hphase hsuspended hempty =>
      exact h.seekOn hrun (hphase ▸ rfl) (fun n hn => hn.symm) fun n => id
  | @timeUp x m inherited hrun hphase hsuspended =>
      exact h.seekOn hrun (hphase ▸ rfl) (fun n hn => hn.symm) fun n => id
  | @goOn x m inherited hrun hphase =>
      exact h.seekOn hrun (hphase ▸ rfl) (fun n hn => hn.symm) fun n => id
  | @lookAgain x m inherited hrun hphase =>
      refine h.seekOn (m := m) hrun (hphase ▸ rfl) (fun n hn => ?_) fun n hn => ?_
      · split at hn
        · split at hn
          · exact hn.symm
          · exact hn.elim
        · exact hn.symm
      · split at hn
        · split at hn <;> exact hn
        · exact hn
  | @giveUp x m k hrun hphase hsection =>
      have hseek : (s.phase x).Seeks m := hphase ▸ rfl
      obtain ⟨hkept, hmutex, -⟩ := h.kept.timeout (h.mem_of_seeks hseek) hsection
      exact h.moveOn hrun hkept (fun n => by rw [hmutex, holder])
        (fun n => by rw [hmutex]) (fun _ => MutexPhase.not_has_of_seeks hseek)
        (fun n => id) fun n hn => hn.elim
  | @give x m hm hrun hphase hrec =>
      have hp : ∀ n, ¬ (s.phase x).Has n := fun n hn => by
        rw [hphase] at hn
        exact hn
      have hgives : ∀ n, (MutexPhase.giving m).Has n → n = m := fun n hn => hn.symm
      refine h.next (k := s.kernel) (h.running_created hrun) h.kept
        (fun y hy n => Iff.rfl) (fun n hn => ?_) (fun n htrue hn => ?_)
        (fun n hn => by cases hn) fun n hn => ?_
      · exact hgives n (hn.resolve_right id) ▸ hm
      · rw [hgives n hn, hrec] at htrue
        exact absurd htrue (by simp)
      · by_cases hnm : n = m
        · subst hnm
          exact iff_of_true ((h.counts n hn).mpr (Or.inl hrec)) (Or.inl hrec)
        · exact h.counts_same hn rfl rfl fun _ =>
            iff_of_false (fun hh => hnm (hgives n hh)) (hp n)
  | @giveRecursive x m hm hrun hphase hrec hholder =>
      have hp : ∀ n, ¬ (s.phase x).Has n := fun n hn => by
        rw [hphase] at hn
        exact hn
      have hcount := h.count_ne_zero hm hrec hholder (hp m)
      refine h.recount hrun hm hrec hholder (fun n hn => absurd hn (hp n)) ?_ ?_
      · split
        · exact Or.inr rfl
        · exact Or.inl rfl
      · split
        · next hz => exact iff_of_true hz rfl
        · next hz => exact iff_of_false hz (by simp)
  | send hrun hphase hsection => exact (h.send hrun hphase hsection).2

/-! ## Runs -/

/-- What `xQueueCreateMutex` returns. -/
theorem createMutex_eq {sizeOfQueue : Nat} {block : QueueDefinition Unit}
    {mutex : Mutex} (hok : xQueueCreateMutex sizeOfQueue block = some mutex) :
    mutex.queue.uxLength = 1 ∧ mutex.queue.uxItemSize = 0 ∧
      mutex.queue.uxMessagesWaiting = 1 ∧
      mutex.queue.xTasksWaitingToReceive = [] ∧ mutex.xMutexHolder = none ∧
      mutex.uxRecursiveCallCount = 0 := by
  rw [xQueueCreateMutex, Option.map_eq_some_iff] at hok
  obtain ⟨queue, hqueue, rfl⟩ := hok
  simp only [QueueDefinition.xQueueGenericCreate,
    QueueDefinition.prvInitialiseNewQueue, QueueDefinition.xQueueGenericReset] at hqueue
  split at hqueue
  · split at hqueue
    · cases hqueue
      refine ⟨rfl, rfl, rfl, rfl, rfl, rfl⟩
    · simp at hqueue
  · simp at hqueue

/-- The mutexes were made by `xQueueCreateMutex`. -/
def Fresh (mutexes : Finset MutexHandle) (mutex : MutexHandle → Mutex) : Prop :=
  ∀ m ∈ mutexes, ∃ sizeOfQueue block,
    xQueueCreateMutex sizeOfQueue block = some (mutex m)

variable {heap : TaskHandle → TCB} {sim : Simulator} {mutex : MutexHandle → Mutex}
  {hist : List (MutexSystem × MutexEvent)}

theorem orderly_start (hfresh : Fresh mutexes mutex) :
    (start heap sim mutex).Orderly mutexes recursive := by
  have hnew := fun m (hm : m ∈ mutexes) =>
    createMutex_eq (hfresh m hm).choose_spec.choose_spec
  refine ⟨⟨boot_settled heap sim, ?_, fun x hx => absurd hx List.not_mem_nil,
      fun m hm => (hnew m hm).1, fun m hm => (hnew m hm).2.1,
      fun m hm => Or.inl ⟨(hnew m hm).2.2.1, (hnew m hm).2.2.2.2.1⟩,
      fun x hx => absurd hx List.not_mem_nil, fun x hx => absurd hx List.not_mem_nil,
      fun m hm y hy => ?_, fun x hx => absurd hx List.not_mem_nil⟩,
    fun x n hn => (hn.elim id id).elim, fun x n _ hn => hn.elim,
    fun x n hn => MutexPhase.noConfusion hn, fun m hm => ?_⟩
  · exact fun x hx => absurd hx List.not_mem_nil
  · rw [waiting, show ((start heap sim mutex).kernel.mutex m) = mutex m from rfl,
      (hnew m hm).2.2.2.1] at hy
    exact hy
  · exact iff_of_true (hnew m hm).2.2.2.2.2 <| Or.inr fun y hy =>
      absurd ((hnew m hm).2.2.2.2.1.symm.trans hy) (by simp)

theorem Reached.orderly (hfresh : Fresh mutexes mutex)
    (hr : Reached alg mutexes recursive (start heap sim mutex) hist s) :
    s.Orderly mutexes recursive := by
  induction hr with
  | refl => exact orderly_start hfresh
  | step _ hstep ih => exact ih.step hstep

/-! ## The history of a mutex -/

/-- The event as one of the lock `m`. -/
def lockEvent (m : MutexHandle) : MutexEvent → Option (LockEvent TaskHandle)
  | .took x n => if n = m then some (.take x) else none
  | .gave x n => if n = m then some (.give x) else none
  | _ => none

/-- The successful takes of the mutex and the gives, the newest first. -/
def lockEvents (m : MutexHandle) (hist : List (MutexSystem × MutexEvent)) :
    List (LockEvent TaskHandle) := hist.filterMap fun r => lockEvent m r.2

theorem lockEvents_cons : lockEvents m ((s, e) :: hist) =
    (lockEvent m e).toList ++ lockEvents m hist := by
  rw [lockEvents, List.filterMap_cons]
  cases lockEvent m e <;> rfl

theorem Orderly.history {es : List (LockEvent TaskHandle)}
    (h : s.Orderly mutexes recursive) (hes : LockHistory es (s.holder m))
    (hstep : Step alg mutexes recursive s e s') :
    LockHistory ((lockEvent m e).toList ++ es) (s'.holder m) := by
  cases hstep with
  | prioritySet hx hok =>
      rw [holder, (h.kept.prioritySet hx hok).2]
      exact hes
  | takeAgain hm hrun hphase hrec hholder =>
      rw [holder, Orderly.countCalls_holder]
      exact hes
  | @succeed x n mayBlock inherited k hrun hphase hsection =>
      obtain ⟨hfree, hself, hother, -⟩ := h.succeed hrun hphase hsection
      by_cases hn : n = m
      · subst hn
        rw [lockEvent, if_pos rfl, holder, hself]
        exact .take (hfree ▸ hes)
      · rw [lockEvent, if_neg hn, holder, hother m (Ne.symm hn)]
        exact hes
  | count hrun hphase =>
      rw [holder, Orderly.countCalls_holder]
      exact hes
  | @wait x n inherited xTicksToWait hrun hphase hsuspended hempty =>
      have hn := h.mem_of_seeks (x := x) (m := n) (hphase ▸ rfl)
      obtain ⟨y, hholder⟩ := h.held_of_empty hn hempty
      rw [holder, (h.kept.wait alg hn hrun hholder).2.1]
      exact hes
  | @giveUp x n k hrun hphase hsection =>
      have hn := h.mem_of_seeks (x := x) (m := n) (hphase ▸ rfl)
      rw [holder, (h.kept.timeout hn hsection).2.1]
      exact hes
  | giveRecursive hm hrun hphase hrec hholder =>
      rw [holder, Orderly.countCalls_holder]
      exact hes
  | @send x n k sent hrun hphase hsection =>
      obtain ⟨⟨rfl, hholder, hself, hother⟩ | ⟨rfl, rfl⟩, -⟩ := h.send hrun hphase hsection
      · rw [if_pos rfl]
        by_cases hn : n = m
        · subst hn
          rw [lockEvent, if_pos rfl, holder, hself]
          exact .give (hholder ▸ hes)
        · rw [lockEvent, if_neg hn, holder, hother m (Ne.symm hn)]
          exact hes
      · exact hes
  | _ => exact hes

theorem Reached.history (hfresh : Fresh mutexes mutex) (hm : m ∈ mutexes)
    (hr : Reached alg mutexes recursive (start heap sim mutex) hist s) :
    LockHistory (lockEvents m hist) (s.holder m) := by
  induction hr with
  | refl =>
      obtain ⟨sizeOfQueue, block, hok⟩ := hfresh m hm
      rw [holder, show (start heap sim mutex).kernel.mutex m = mutex m from rfl,
        (createMutex_eq hok).2.2.2.2.1]
      exact .nil
  | step hprev hstep ih =>
      rw [lockEvents_cons]
      exact (hprev.orderly hfresh).history ih hstep

end MutexSystem

open MutexSystem in
/-- Whatever tasks and interrupts do: the history of a mutex is one of a lock,
and its holder is who took it last and has not given it back; a mutex is free
with its item or held without; and between two takes the first taker gives it
back. -/
theorem mutex_excludes {heap : TaskHandle → TCB} {sim : Simulator}
    {mutex : MutexHandle → Mutex} {hist : List (MutexSystem × MutexEvent)}
    {s : MutexSystem} (hfresh : Fresh mutexes mutex) (hm : m ∈ mutexes)
    (hr : Reached alg mutexes recursive (start heap sim mutex) hist s) :
    LockHistory (lockEvents m hist) (s.holder m) ∧
    MutexKernel.FreeOrHeld s.created (s.kernel.mutex m) ∧
    ∀ later between earlier x y,
      lockEvents m hist =
        later ++ .take y :: (between ++ .take x :: earlier) →
      .give x ∈ between := by
  have hhist := hr.history hfresh hm
  refine ⟨hhist, (hr.orderly hfresh).kept.free m hm,
    fun later between earlier x y heq => ?_⟩
  rw [heq] at hhist
  exact hhist.exclusive

namespace MutexSystem

/-- The steps of a sample run. -/
def sampleSteps (cs : List MutexChoice) :
    Option (List (MutexSystem × MutexEvent) × MutexSystem) :=
  chooseAll .edf {0} (fun _ => false) cs [] sampleStart

theorem sampleSteps_reached {cs : List MutexChoice}
    (hok : sampleSteps cs = some (hist, s)) :
    Reached .edf {0} (fun _ => false) sampleStart hist s :=
  chooseAll_reached .refl hok

theorem sampleMutex_fresh : Fresh {0} fun _ => sampleMutex :=
  fun _ _ => ⟨0, sampleMutex.queue, rfl⟩

end MutexSystem

open MutexSystem in
/-- Task 3 takes the mutex after task 1 has given it back. -/
theorem mutex_excludes_race : ∃ hist s,
    Reached .edf {0} (fun _ => false) sampleStart hist s ∧
    lockEvents 0 hist = [.take 3, .give 1, .take 1] ∧
    LockHistory (lockEvents 0 hist) (s.holder 0) ∧
    MutexKernel.FreeOrHeld s.created (s.kernel.mutex 0) ∧
    LockEvent.give 1 ∈ [LockEvent.give 1] := by
  have hrun : (sampleSteps sampleRace).map (fun r => lockEvents 0 r.1) =
      some [.take 3, .give 1, .take 1] := by decide +kernel
  obtain ⟨⟨hist, s⟩, hs, hlock⟩ := Option.map_eq_some_iff.mp hrun
  have hr := sampleSteps_reached hs
  obtain ⟨hhist, hfree, hgive⟩ :=
    mutex_excludes sampleMutex_fresh (Finset.mem_singleton_self 0) hr
  exact ⟨hist, s, hr, hlock, hhist, hfree, hgive [] [.give 1] [] 1 3 hlock⟩

open MutexSystem in
/-- Whatever tasks and interrupts do: `uxMutexesHeld` is the number of mutexes
a task holds, a task without a mutex has its own priority, and a ready task is
in the list of its priority; a task that begins to wait lends the holder its
priority if that is higher; and when it gives up, a holder of nothing else is
left with what the first of the others lends it. -/
theorem mutex_loans_end {heap : TaskHandle → TCB} {sim : Simulator}
    {mutex : MutexHandle → Mutex} {hist : List (MutexSystem × MutexEvent)}
    {s : MutexSystem} (hfresh : Fresh mutexes mutex)
    (hr : Reached alg mutexes recursive (start heap sim mutex) hist s) :
    (∀ x ∈ s.created,
      (s.kernel.fields x).uxMutexesHeld = (s.kernel.heldBy mutexes x).card ∧
      (s.kernel.heldBy mutexes x = ∅ →
        (s.kernel.st.tcb x).uxPriority = (s.kernel.fields x).uxBasePriority) ∧
      ∀ p, x ∈ s.kernel.st.items (.ready p) → (s.kernel.st.tcb x).uxPriority = p) ∧
    (∀ y m s', Step alg mutexes recursive s (.blocked y m) s' →
      ∃ h, s.holder m = some h ∧ (s'.kernel.st.tcb h).uxPriority =
        max (s.kernel.st.tcb h).uxPriority (s.kernel.st.tcb y).uxPriority) ∧
    ∀ y m s' h, Step alg mutexes recursive s (.gaveUp y m) s' →
      s.holder m = some h → s.kernel.heldBy mutexes h = {m} →
      (s'.kernel.st.tcb h).uxPriority = max (s.kernel.fields h).uxBasePriority
        (s.kernel.prvGetDisinheritPriorityAfterTimeout m) := by
  have h := hr.orderly hfresh
  refine ⟨fun x hx => ⟨h.kept.held x hx, fun hnone => ?_, fun p hp => ?_⟩,
    fun y m s' hstep => ?_, fun y m s' c hstep hholder hone => ?_⟩
  · refine h.kept.own x hx ?_
    rw [h.kept.held x hx, hnone, Finset.card_empty]
  · have hlinked := h.kept.settled.linked.linked (.ready p) (by simp) x
    exact h.kept.homed x hx p (hlinked.mp hp).2
  · generalize he : MutexEvent.blocked y m = e at hstep
    cases hstep with
    | @wait z n inherited xTicksToWait hrun hphase hsuspended hempty =>
        obtain ⟨rfl, rfl⟩ := MutexEvent.blocked.inj he
        have hm := h.mem_of_seeks (x := y) (m := m) (hphase ▸ rfl)
        obtain ⟨c, hholder⟩ := h.held_of_empty hm hempty
        exact ⟨c, hholder, (h.kept.wait alg hm hrun hholder).2.2.2⟩
    | send =>
        split at he <;> cases he
    | _ => cases he
  · generalize he : MutexEvent.gaveUp y m = e at hstep
    cases hstep with
    | @giveUp z n k hrun hphase hsection =>
        obtain ⟨rfl, rfl⟩ := MutexEvent.gaveUp.inj he
        have hm := h.mem_of_seeks (x := y) (m := m) (hphase ▸ rfl)
        have hheld : (s.kernel.fields c).uxMutexesHeld = 1 := by
          rw [h.kept.held c (h.kept.count_of_holder hm hholder).2, hone,
            Finset.card_singleton]
        have hprio := (h.kept.timeout hm hsection).2.2 c hholder
        rwa [if_pos hheld] at hprio
    | send =>
        split at he <;> cases he
    | _ => cases he

open MutexSystem in
/-- Task 2 has to wait, and task 1 has its priority. -/
theorem mutex_loans_end_wait : ∃ hist s s',
    Reached .edf {0} (fun _ => false) sampleStart hist s ∧
    Step .edf {0} (fun _ => false) s (.blocked 2 0) s' ∧
    (s.kernel.fields 1).uxMutexesHeld = (s.kernel.heldBy {0} 1).card ∧
    s.holder 0 = some 1 ∧ (s'.kernel.st.tcb 1).uxPriority = 2 := by
  have hrun : (sampleSteps sampleWait).bind (fun r =>
      (r.2.choose .edf {0} (fun _ => false) (.wait 2 1)).map fun r' =>
        (decide (1 ∈ r.2.created), r.2.holder 0, (r.2.kernel.st.tcb 1).uxPriority,
          (r.2.kernel.st.tcb 2).uxPriority, r'.1)) =
      some (true, some 1, 1, 2, .blocked 2 0) := by decide +kernel
  obtain ⟨⟨hist, s⟩, hs, hnext⟩ := Option.bind_eq_some_iff.mp hrun
  obtain ⟨⟨e, s'⟩, hstep, heq⟩ := Option.map_eq_some_iff.mp hnext
  simp only [Prod.mk.injEq, decide_eq_true_eq] at heq
  obtain ⟨hx, hholder, hp₁, hp₂, rfl⟩ := heq
  have hr := sampleSteps_reached hs
  obtain ⟨hheld, hlend, -⟩ := mutex_loans_end sampleMutex_fresh hr
  have hstep := choose_sound hstep
  obtain ⟨h, hh, hprio⟩ := hlend 2 0 s' hstep
  rw [← Option.some.inj (hholder.symm.trans hh), hp₁, hp₂] at hprio
  exact ⟨hist, s, s', hr, hstep, (hheld 1 hx).1, hholder, hprio⟩

open MutexSystem in
/-- Whatever tasks and interrupts do: the running task passes the assertion it
comes to, with three exceptions. Its time was up, it had caused an inheritance
and saw the mutex free, and finds it held again; or it gives a mutex that another
task holds; or it times out on a mutex that it holds itself, its only one, and
its priority is not the larger of its own and that of the first task on the list.
And no holder of a recursive mutex gives back more calls than it made. -/
theorem mutex_asserts {heap : TaskHandle → TCB} {sim : Simulator}
    {mutex : MutexHandle → Mutex} {hist : List (MutexSystem × MutexEvent)}
    {s : MutexSystem} (hfresh : Fresh mutexes mutex)
    (hr : Reached alg mutexes recursive (start heap sim mutex) hist s)
    (hrun : s.Runs x) :
    (s.Asserts alg x ↔ ¬ ∃ m,
      s.phase x = .attempt m false true ∧ s.holder m ≠ none ∨
      s.phase x = .giving m ∧ (∃ y, y ≠ x ∧ s.holder m = some y) ∨
      s.phase x = .disinherit m ∧ s.holder m = some x ∧
        s.kernel.heldBy mutexes x = {m} ∧
        (s.kernel.st.tcb x).uxPriority ≠ max (s.kernel.fields x).uxBasePriority
          (s.kernel.prvGetDisinheritPriorityAfterTimeout m)) ∧
    ∀ m ∈ mutexes, recursive m = true → s.phase x = .outside →
      s.holder m = some x → (s.kernel.mutex m).uxRecursiveCallCount ≠ 0 := by
  have h := hr.orderly hfresh
  refine ⟨?_, fun m hm hrec hphase hholder => h.count_ne_zero hm hrec hholder ?_⟩
  · rw [Asserts]
    cases hphase : s.phase x with
    | attempt m mayBlock inherited =>
        have hm := h.mem_of_seeks (x := x) (m := m) (hphase ▸ rfl)
        have hfree := h.kept.take_none_iff hm
        cases mayBlock with
        | true => exact iff_of_true trivial (by simp)
        | false =>
            cases inherited with
            | true => simp [hfree, holder]
            | false => exact iff_of_true (fun _ => rfl) (by simp)
    | disinherit m =>
        have hm := h.mem_of_seeks (x := x) (m := m) (hphase ▸ rfl)
        simp [h.kept.timeout_isSome_iff hm hrun, holder]
    | giving m =>
        have hm := h.mem_of_has (x := x) (m := m) (hphase ▸ rfl)
        simp [h.kept.send_isSome_iff hm hrun, holder]
    | _ => exact iff_of_true trivial (by simp)
  · rw [hphase]
    exact id

open MutexSystem in
/-- A run for each of the three. -/
theorem mutex_asserts_race :
    (∃ hist s, Reached .edf {0} (fun _ => false) sampleStart hist s ∧ s.Runs 2 ∧
      s.phase 2 = .attempt 0 false true ∧ ¬ s.Asserts .edf 2) ∧
    (∃ hist s, Reached .edf {0} (fun _ => false) sampleStart hist s ∧ s.Runs 2 ∧
      s.phase 2 = .giving 0 ∧ ¬ s.Asserts .edf 2) ∧
    ∃ hist s, Reached .edf {0} (fun _ => false) sampleStart hist s ∧ s.Runs 1 ∧
      s.phase 1 = .disinherit 0 ∧ ¬ s.Asserts .edf 1 := by
  have hrace : (sampleSteps sampleRace).map (fun r =>
      (r.2.kernel.st.pxCurrentTCB, r.2.phase 2, r.2.holder 0)) =
      some (some 2, .attempt 0 false true, some 3) := by decide +kernel
  have hforeign : (sampleSteps sampleForeign).map (fun r =>
      (r.2.kernel.st.pxCurrentTCB, r.2.phase 2, r.2.holder 0)) =
      some (some 2, .giving 0, some 1) := by decide +kernel
  have hown : (sampleSteps sampleOwn).map (fun r =>
      (r.2.kernel.st.pxCurrentTCB, r.2.phase 1, r.2.holder 0,
        decide (r.2.kernel.heldBy {0} 1 = {0}), (r.2.kernel.st.tcb 1).uxPriority,
        max (r.2.kernel.fields 1).uxBasePriority
          (r.2.kernel.prvGetDisinheritPriorityAfterTimeout 0))) =
      some (some 1, .disinherit 0, some 1, true, 2, 1) := by decide +kernel
  obtain ⟨⟨hist, s⟩, hs, heq⟩ := Option.map_eq_some_iff.mp hrace
  obtain ⟨⟨hist₂, s₂⟩, hs₂, heq₂⟩ := Option.map_eq_some_iff.mp hforeign
  obtain ⟨⟨hist₃, s₃⟩, hs₃, heq₃⟩ := Option.map_eq_some_iff.mp hown
  simp only [Prod.mk.injEq, decide_eq_true_eq] at heq heq₂ heq₃
  obtain ⟨hcur, hphase, hholder⟩ := heq
  obtain ⟨hcur₂, hphase₂, hholder₂⟩ := heq₂
  obtain ⟨hcur₃, hphase₃, hholder₃, hheld, hprio, hmax⟩ := heq₃
  have hr := sampleSteps_reached hs
  have hr₂ := sampleSteps_reached hs₂
  have hr₃ := sampleSteps_reached hs₃
  refine ⟨⟨hist, s, hr, hcur, hphase, fun hassert => ?_⟩,
    ⟨hist₂, s₂, hr₂, hcur₂, hphase₂, fun hassert => ?_⟩,
    hist₃, s₃, hr₃, hcur₃, hphase₃, fun hassert => ?_⟩
  · refine (mutex_asserts sampleMutex_fresh hr hcur).1.mp hassert
      ⟨0, Or.inl ⟨hphase, ?_⟩⟩
    rw [hholder]
    simp
  · exact (mutex_asserts sampleMutex_fresh hr₂ hcur₂).1.mp hassert
      ⟨0, Or.inr (Or.inl ⟨hphase₂, 1, by decide, hholder₂⟩)⟩
  · refine (mutex_asserts sampleMutex_fresh hr₃ hcur₃).1.mp hassert
      ⟨0, Or.inr (Or.inr ⟨hphase₃, hholder₃, hheld, ?_⟩)⟩
    rw [hprio, hmax]
    decide

end FreeRtosSim
