import Mathlib.Data.Finset.Dedup
import FreeRtosSim.Proofs.Effects

/-!
# The event lists and the tasks

How the two event lists of a queue, its locks and the tasks fit together in
every run of tasks without a period: a task is on an event list only while it
waits there, each list is in order of the priorities and holds nobody twice,
and only the task that has suspended the scheduler can have the queue locked.
-/

namespace FreeRtosSim

variable {α : Type} {q q' : QueueDefinition α}

/-! ## Where the tasks are -/

namespace Phase

/-- The task has been put on the event list of the side and has not gone on
since. -/
def Placed (side : Side) : Phase α → Prop
  | .unlockTx call next | .unlockRx call next | .resume call next =>
      call.side = side ∧ next = .block
  | .waiting call => call.side = side
  | _ => False

/-- The task is going to try again without being woken. -/
def Retries (side : Side) (waiting : List TaskHandle) (x : TaskHandle) :
    Phase α → Prop
  | .attempt call _ => call.side = side
  | .unlockTx call next | .unlockRx call next | .resume call next =>
      call.side = side ∧ (next = .again ∨ next = .block ∧ x ∉ waiting)
  | .waiting call => call.side = side ∧ x ∉ waiting
  | _ => False

/-- The task has suspended the scheduler. -/
def Suspending : Phase α → Prop
  | .suspended _ | .locked _ | .mustWait _ | .unlockTx .. | .unlockRx ..
  | .resume .. => True
  | _ => False

/-- The task has locked the queue and not begun to unlock it. -/
def Holding : Phase α → Prop
  | .locked _ | .mustWait _ => True
  | _ => False

/-- The task has found that it must wait and is not on the event list yet. -/
def Looking (side : Side) : Phase α → Prop
  | .mustWait call => call.side = side
  | _ => False

variable {side : Side} {l : List TaskHandle} {x : TaskHandle} {p : Phase α}

theorem Placed.retries (h : p.Placed side) (hx : x ∉ l) : p.Retries side l x := by
  cases p with
  | unlockTx call next | unlockRx call next | resume call next =>
      exact ⟨h.1, Or.inr ⟨h.2, hx⟩⟩
  | waiting call => exact ⟨h, hx⟩
  | outside | attempt | failed | suspended | locked | mustWait | lastLook =>
      exact h.elim

theorem Placed.not_retries (h : p.Placed side) (hx : x ∈ l) :
    ¬ p.Retries side l x := by
  cases p with
  | unlockTx call next | unlockRx call next | resume call next =>
      rintro ⟨-, hagain | ⟨-, hnot⟩⟩
      · exact After.noConfusion (h.2.symm.trans hagain)
      · exact hnot hx
  | waiting call => exact fun hc => hc.2 hx
  | outside | attempt | failed | suspended | locked | mustWait | lastLook =>
      exact h.elim

/-- A shorter event list only lets more tasks go on. -/
theorem Retries.mono {l' : List TaskHandle} (h : p.Retries side l x)
    (hl : x ∈ l' → x ∈ l) : p.Retries side l' x := by
  cases p with
  | unlockTx call next | unlockRx call next | resume call next =>
      exact ⟨h.1, h.2.imp_right fun hb => ⟨hb.1, fun hx => hb.2 (hl hx)⟩⟩
  | waiting call => exact ⟨h.1, fun hx => h.2 (hl hx)⟩
  | attempt => exact h
  | outside | failed | suspended | locked | mustWait | lastLook => exact h.elim

theorem Looking.holding (h : p.Looking side) : p.Holding := by
  cases p with
  | mustWait => trivial
  | _ => exact h.elim

theorem Holding.suspending (h : p.Holding) : p.Suspending := by
  cases p with
  | locked | mustWait => trivial
  | _ => exact h.elim

end Phase

theorem After.not_suspending (next : After) (call : QueueCall α) :
    ¬ (next.phase call).Suspending ∧ ¬ (next.phase call).Holding := by
  cases next with
  | block => exact ⟨id, id⟩
  | again => exact ⟨id, id⟩
  | expired =>
      unfold After.phase
      cases call.side <;> exact ⟨id, id⟩

namespace QueueSystem

open QueueDefinition

variable {s s' : QueueSystem α} {xTaskPeriod uxPriority : TaskHandle → Nat}
  {tasks : Finset TaskHandle} {es : List (QueueEvent α)} {side : Side}
  {x : TaskHandle}

/-- The event lists, the locks and the phases of the tasks fit together. -/
structure Orderly (uxPriority : TaskHandle → Nat) (tasks : Finset TaskHandle)
    (s : QueueSystem α) : Prop where
  outside : ∀ x, x ∉ tasks → s.phase x = .outside
  placed : ∀ side, ∀ x ∈ s.queue.waiting side, (s.phase x).Placed side
  nodup : ∀ side, (s.queue.waiting side).Nodup
  sorted : ∀ side, SortedByKey
    (fun x => configMaxPriorities - uxPriority x) (s.queue.waiting side)
  suspending : ∀ x, (s.phase x).Suspending ↔ s.suspender = some x
  lock_ge : ∀ side, queueUnlocked ≤ s.queue.lock side
  holding : ∀ x, (s.phase x).Holding →
    ∀ side, queueLockedUnmodified ≤ s.queue.lock side

namespace Orderly

variable (h : s.Orderly uxPriority tasks)

include h

theorem mem {p : Phase α} (hphase : s.phase x = p) (hp : p ≠ .outside) :
    x ∈ tasks := by
  by_contra hx
  exact hp (hphase.symm.trans (h.outside x hx))

theorem not_waiting {p : Phase α} (hphase : s.phase x = p)
    (hp : ∀ side, ¬ p.Placed side) : x ∉ s.queue.waiting side :=
  fun hx => hp side (hphase ▸ h.placed side x hx)

/-- While a task has suspended the scheduler, no other holds the queue. -/
theorem alone (hsusp : s.suspender = some x ∨ s.suspender = none)
    {y : TaskHandle} (hy : y ≠ x) : ¬ (s.phase y).Holding := fun hhold => by
  have hother := (h.suspending y).mp hhold.suspending
  rcases hsusp with hsusp | hsusp
  · exact hy (Option.some.inj (hother.symm.trans hsusp))
  · rw [hsusp] at hother
    cases hother

/-- A task moves from one phase to another. -/
theorem move {q' : QueueDefinition α} {p : Phase α} {o : Option TaskHandle}
    (hx : x ∈ tasks) (hsusp : s.suspender = some x ∨ s.suspender = none)
    (hwait : ∀ side, ∀ y ∈ q'.waiting side, y ≠ x → y ∈ s.queue.waiting side)
    (hplaced : ∀ side, x ∈ q'.waiting side → p.Placed side)
    (hnodup : ∀ side, (q'.waiting side).Nodup)
    (hsorted : ∀ side, SortedByKey
      (fun x => configMaxPriorities - uxPriority x) (q'.waiting side))
    (hp : p.Suspending ↔ o = some x) (ho : o = some x ∨ o = none)
    (hlock : ∀ side, queueUnlocked ≤ q'.lock side)
    (hhold : p.Holding → ∀ side, queueLockedUnmodified ≤ q'.lock side) :
    Orderly uxPriority tasks ⟨q', Function.update s.phase x p, o⟩ where
  outside := fun y hy => by
    have hne : y ≠ x := fun heq => hy (heq ▸ hx)
    exact (Function.update_of_ne hne ..).trans (h.outside y hy)
  placed := fun side y hy => by
    show (Function.update s.phase x p y).Placed side
    by_cases hne : y = x
    · subst hne
      rw [Function.update_self]
      exact hplaced side hy
    · rw [Function.update_of_ne hne]
      exact h.placed side y (hwait side y hy hne)
  nodup := hnodup
  sorted := hsorted
  suspending := fun y => by
    show (Function.update s.phase x p y).Suspending ↔ o = some y
    by_cases hne : y = x
    · subst hne
      rw [Function.update_self]
      exact hp
    · rw [Function.update_of_ne hne, h.suspending y]
      have hold : ∀ {o : Option TaskHandle}, o = some x ∨ o = none →
          ¬ o = some y := by
        rintro o (rfl | rfl) heq
        · exact hne (Option.some.inj heq).symm
        · cases heq
      exact iff_of_false (hold hsusp) (hold ho)
  lock_ge := hlock
  holding := fun y hhold' side => by
    have hhold' : (Function.update s.phase x p y).Holding := hhold'
    by_cases hne : y = x
    · subst hne
      rw [Function.update_self] at hhold'
      exact hhold hhold' side
    · rw [Function.update_of_ne hne] at hhold'
      exact absurd hhold' (h.alone hsusp hne)

/-- Tasks leave the event lists. -/
theorem thin {q' : QueueDefinition α} {p : Phase α} {o : Option TaskHandle}
    (hx : x ∈ tasks) (hsusp : s.suspender = some x ∨ s.suspender = none)
    (hsub : ∀ side, (q'.waiting side).Sublist (s.queue.waiting side))
    (hplaced : ∀ side, (s.phase x).Placed side → p.Placed side ∨
      x ∉ q'.waiting side)
    (hp : p.Suspending ↔ o = some x) (ho : o = some x ∨ o = none)
    (hlock : ∀ side, queueUnlocked ≤ q'.lock side)
    (hhold : p.Holding → ∀ side, queueLockedUnmodified ≤ q'.lock side) :
    Orderly uxPriority tasks ⟨q', Function.update s.phase x p, o⟩ :=
  h.move hx hsusp (fun side _ hy _ => (hsub side).subset hy)
    (fun side hmem => (hplaced side (h.placed side x ((hsub side).subset hmem)))
      |>.resolve_right fun hnot => hnot hmem)
    (fun side => (h.nodup side).sublist (hsub side))
    (fun side => (h.sorted side).sublist (hsub side)) hp ho hlock hhold

/-- No task moves. -/
theorem interrupted {q' : QueueDefinition α}
    (hsub : ∀ side, (q'.waiting side).Sublist (s.queue.waiting side))
    (hlock : ∀ side, s.queue.lock side ≤ q'.lock side) :
    Orderly uxPriority tasks { s with queue := q' } where
  outside := h.outside
  placed := fun side y hy => h.placed side y ((hsub side).subset hy)
  nodup := fun side => (h.nodup side).sublist (hsub side)
  sorted := fun side => (h.sorted side).sublist (hsub side)
  suspending := h.suspending
  lock_ge := fun side => Int.le_trans (h.lock_ge side) (hlock side)
  holding := fun y hy side => Int.le_trans (h.holding y hy side) (hlock side)

/-- A task that may run and has not suspended the scheduler itself. -/
theorem free {p : Phase α} (hrun : s.MayRun x) (hphase : s.phase x = p)
    (hp : ¬ p.Suspending) : s.suspender = none := by
  rcases hrun with hnone | hsome
  · exact hnone
  · exact absurd (hphase ▸ (h.suspending x).mpr hsome) hp

theorem holds {p : Phase α} (hphase : s.phase x = p) (hp : p.Suspending) :
    s.suspender = some x := (h.suspending x).mp (hphase ▸ hp)

end Orderly

section Quiet

variable (h : s.Orderly uxPriority tasks)

include h

/-- A task moves without suspending the scheduler. -/
theorem Orderly.quiet {q' : QueueDefinition α} {p₀ p : Phase α}
    (hx : x ∈ tasks) (hnone : s.suspender = none) (hphase : s.phase x = p₀)
    (hp₀ : ∀ side, p₀.Placed side → p.Placed side ∨ x ∉ q'.waiting side)
    (hsusp : ¬ p.Suspending) (hhold : ¬ p.Holding)
    (hsub : ∀ side, (q'.waiting side).Sublist (s.queue.waiting side))
    (hlock : ∀ side, q'.lock side = s.queue.lock side) :
    Orderly uxPriority tasks ⟨q', Function.update s.phase x p, s.suspender⟩ :=
  h.thin hx (Or.inr hnone) hsub (hphase ▸ hp₀)
    (iff_of_false hsusp fun hc => by
      rw [hnone] at hc
      cases hc) (Or.inr hnone)
    (fun side => hlock side ▸ h.lock_ge side) fun hp => absurd hp hhold

/-- A task moves and has suspended the scheduler then. -/
theorem Orderly.busy {q' : QueueDefinition α} {p₀ p : Phase α}
    {o : Option TaskHandle} (ho : o = some x)
    (hsome : s.suspender = some x ∨ s.suspender = none)
    (hphase : s.phase x = p₀) (hne : p₀ ≠ .outside)
    (hp₀ : ∀ side, p₀.Placed side → p.Placed side)
    (hsusp : p.Suspending)
    (hsub : ∀ side, (q'.waiting side).Sublist (s.queue.waiting side))
    (hlock : ∀ side, queueUnlocked ≤ q'.lock side)
    (hhold : p.Holding → ∀ side, queueLockedUnmodified ≤ q'.lock side) :
    Orderly uxPriority tasks ⟨q', Function.update s.phase x p, o⟩ :=
  h.thin (h.mem hphase hne) hsome hsub
    (fun side hp => Or.inl (hp₀ side (hphase ▸ hp)))
    (iff_of_true hsusp ho) (Or.inl ho) hlock hhold

/-- A task that looked is put on its event list. -/
theorem Orderly.place {call : QueueCall α} (hsome : s.suspender = some x)
    (hphase : s.phase x = .mustWait call) :
    Orderly uxPriority tasks ⟨s.queue.setWaiting call.side
        (placeOnEventList uxPriority x (s.queue.waiting call.side)),
      Function.update s.phase x (.unlockTx call .block), s.suspender⟩ := by
  have hcases : ∀ side, side = call.side ∧
        (s.queue.setWaiting call.side (placeOnEventList uxPriority x
          (s.queue.waiting call.side))).waiting side =
          placeOnEventList uxPriority x (s.queue.waiting side) ∨
        (s.queue.setWaiting call.side (placeOnEventList uxPriority x
          (s.queue.waiting call.side))).waiting side =
          s.queue.waiting side := by
    intro side
    rw [waiting_setWaiting]
    by_cases hside : side = call.side
    · rw [if_pos hside]
      exact Or.inl ⟨hside, by rw [hside]⟩
    · rw [if_neg hside]
      exact Or.inr rfl
  have hother : ∀ side, x ∉ s.queue.waiting side := fun side =>
    h.not_waiting hphase fun _ hp => hp.elim
  refine h.move (h.mem hphase (by simp)) (Or.inl hsome) (fun side y hy hne => ?_)
    (fun side hx => ?_) (fun side => ?_) (fun side => ?_)
    (iff_of_true trivial hsome) (Or.inl hsome) (fun side => ?_)
    fun hp => hp.elim
  · rcases hcases side with ⟨-, heq⟩ | heq
    · rw [heq] at hy
      exact (mem_insertByKey.mp hy).resolve_left hne
    · exact heq ▸ hy
  · rcases hcases side with ⟨hside, -⟩ | heq
    · exact ⟨hside.symm, rfl⟩
    · rw [heq] at hx
      exact absurd hx (hother side)
  · rcases hcases side with ⟨-, heq⟩ | heq
    · rw [heq]
      exact (List.perm_orderedInsert _ _ _).nodup_iff.mpr
        (List.nodup_cons.mpr ⟨hother side, h.nodup side⟩)
    · exact heq ▸ h.nodup side
  · rcases hcases side with ⟨-, heq⟩ | heq
    · rw [heq]
      exact (h.sorted side).insertByKey
    · exact heq ▸ h.sorted side
  · rw [lock_setWaiting]
    exact h.lock_ge side

end Quiet

theorem Orderly.step (h : s.Orderly uxPriority tasks) (hcalls : s.Asserted)
    (hplain : ∀ x ∈ tasks, xTaskPeriod x = 0)
    (hstep : Step xTaskPeriod uxPriority tasks s es s') :
    s'.Orderly uxPriority tasks := by
  have hrefl : ∀ side, (s.queue.waiting side).Sublist (s.queue.waiting side) :=
    fun _ => List.Sublist.refl _
  cases hstep with
  | @call x call mayBlock hx hrun hphase hassert =>
      exact h.quiet hx hrun hphase (fun _ hp => hp.elim) id id hrefl
        fun _ => rfl
  | @succeed x call mayBlock pxQueue e hrun hphase hsection =>
      have hassert := hcalls _ _ (congrArg Phase.call hphase)
      have hlists := criticalSection_lists hassert hsection
      exact h.quiet (h.mem hphase (by simp)) (h.free hrun hphase id)
        hphase (fun _ hp => hp.elim) id id (fun side => (hlists side).1)
        fun side => (hlists side).2
  | @fail x call mayBlock hrun hphase =>
      refine h.quiet (h.mem hphase (by simp)) (h.free hrun hphase id)
        hphase (fun _ hp => hp.elim) ?_ ?_ hrefl fun _ => rfl
      · split <;> exact id
      · split <;> exact id
  | @suspendAll x call hrun hphase =>
      exact h.busy rfl (Or.inr hrun) hphase (by simp) (fun _ hp => hp.elim)
        trivial hrefl h.lock_ge fun hp => hp.elim
  | @lock x call hrun hphase =>
      have hsome := h.holds hphase trivial
      have hlock := lock_prvLockQueue h.lock_ge
      refine h.busy hsome (Or.inl hsome) hphase (by simp)
        (fun _ hp => hp.elim) trivial (fun side => ?_) (fun side => ?_)
        fun _ side => (hlock side).1
      · cases side <;> exact List.Sublist.refl _
      · exact Int.le_trans (by decide) (hlock side).1
  | @timeUp x call hrun hphase =>
      have hsome := h.holds hphase trivial
      exact h.busy hsome (Or.inl hsome) hphase (by simp)
        (fun _ hp => hp.elim) trivial hrefl h.lock_ge fun hp => hp.elim
  | @look x call hrun hphase =>
      have hsome := h.holds hphase trivial
      refine h.busy hsome (Or.inl hsome) hphase (by simp)
        (fun _ hp => hp.elim) ?_ hrefl h.lock_ge fun _ => ?_
      · split <;> trivial
      · exact h.holding x (hphase ▸ trivial)
  | @place x call hrun hphase =>
      have hsome := h.holds hphase trivial
      exact h.place hsome hphase
  | @unlockTx x call next hrun hphase =>
      have hsome := h.holds hphase trivial
      refine h.busy hsome (Or.inl hsome) hphase (by simp)
        (fun _ hp => hp) trivial (fun side => ?_) (fun side => ?_)
        fun hp => hp.elim
      · cases side with
        | sender => exact List.Sublist.refl _
        | receiver =>
            show (unblockLoop _ _).Sublist _
            rw [unblockLoop_eq]
            exact List.drop_sublist _ _
      · cases side with
        | sender => exact h.lock_ge .sender
        | receiver => exact Int.le_refl _
  | @unlockRx x call next hrun hphase =>
      have hsome := h.holds hphase trivial
      refine h.busy hsome (Or.inl hsome) hphase (by simp)
        (fun _ hp => hp) trivial (fun side => ?_) (fun side => ?_)
        fun hp => hp.elim
      · cases side with
        | sender =>
            show (unblockLoop _ _).Sublist _
            rw [unblockLoop_eq]
            exact List.drop_sublist _ _
        | receiver => exact List.Sublist.refl _
      · cases side with
        | sender => exact Int.le_refl _
        | receiver => exact h.lock_ge .receiver
  | @resumeAll x call next hrun hphase =>
      obtain ⟨hnot, hhold⟩ := next.not_suspending call
      refine h.thin (h.mem hphase (by simp))
        (Or.inl (h.holds hphase trivial)) hrefl (fun side hp => ?_)
        (iff_of_false hnot fun hc => by cases hc) (Or.inr rfl) h.lock_ge
        fun hp => absurd hp hhold
      rw [hphase] at hp
      obtain ⟨hside, rfl⟩ := hp
      exact Or.inl hside
  | @goOn x call hrun hphase hready =>
      have hx := h.mem hphase (by simp)
      refine h.quiet hx (h.free hrun hphase id)
        hphase (fun side hp => Or.inr ?_) id id hrefl fun _ => rfl
      cases hp
      exact hready (hplain x hx)
  | @lookAgain x call hrun hphase =>
      refine h.quiet (h.mem hphase (by simp)) (h.free hrun hphase id)
        hphase (fun _ hp => hp.elim) ?_ ?_ hrefl fun _ => rfl
      · split <;> exact id
      · split <;> exact id
  | @timeout x call hrun hphase =>
      exact h.interrupted
        (fun side => sublist_setWaiting _ List.erase_sublist side)
        fun side => Int.le_of_eq (lock_setWaiting _ _ _ _).symm
  | sendFromISR hisr =>
      have hint := interrupts_send hisr
      exact h.interrupted hint.sublist hint.lock_le
  | giveFromISR hisr =>
      have hint := interrupts_give hisr
      exact h.interrupted hint.sublist hint.lock_le
  | receiveFromISR hisr =>
      have hint := interrupts_receive hisr
      exact h.interrupted hint.sublist hint.lock_le
  | peekFromISR hisr =>
      have hint := interrupts_peek hisr
      exact h.interrupted hint.sublist hint.lock_le

end QueueSystem

end FreeRtosSim
