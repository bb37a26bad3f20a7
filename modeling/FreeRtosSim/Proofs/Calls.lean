import FreeRtosSim.Kernel.Blocking

/-!
# The calls at a queue

What the functions of a queue leave alone: a call that has got past the
assertions at its head meets them until it returns, since nothing changes the
length of a queue or the size of its items.
-/

namespace FreeRtosSim

variable {α : Type} {q q' : QueueDefinition α} {x : α}

namespace QueueDefinition

/-- The event lists, the locks and the sizes are the same. -/
structure SameLists (q q' : QueueDefinition α) : Prop where
  send : q'.xTasksWaitingToSend = q.xTasksWaitingToSend
  receive : q'.xTasksWaitingToReceive = q.xTasksWaitingToReceive
  rxLock : q'.cRxLock = q.cRxLock
  txLock : q'.cTxLock = q.cTxLock
  uxLength : q'.uxLength = q.uxLength
  uxItemSize : q'.uxItemSize = q.uxItemSize

theorem copyTo_lists (x : α) (xPosition : CopyPosition)
    (q : QueueDefinition α) : SameLists q (q.prvCopyDataToQueue x xPosition) := by
  unfold prvCopyDataToQueue
  split
  · exact ⟨rfl, rfl, rfl, rfl, rfl, rfl⟩
  · split <;> exact ⟨rfl, rfl, rfl, rfl, rfl, rfl⟩

theorem copyFrom_lists (pvBuffer : α) (q : QueueDefinition α) :
    SameLists q (q.prvCopyDataFromQueue pvBuffer).2 := by
  unfold prvCopyDataFromQueue
  split <;> exact ⟨rfl, rfl, rfl, rfl, rfl, rfl⟩

theorem copyFrom_count (pvBuffer : α) (q : QueueDefinition α) :
    (q.prvCopyDataFromQueue pvBuffer).2.uxMessagesWaiting =
      q.uxMessagesWaiting := by
  unfold prvCopyDataFromQueue
  split <;> rfl

/-- The sizes are the same. -/
def SameSize (q q' : QueueDefinition α) : Prop :=
  q'.uxLength = q.uxLength ∧ q'.uxItemSize = q.uxItemSize

theorem SameLists.sameSize (h : SameLists q q') : SameSize q q' :=
  ⟨h.uxLength, h.uxItemSize⟩

theorem sameSize_setWaiting (q : QueueDefinition α) (side : Side)
    (l : List TaskHandle) : SameSize q (q.setWaiting side l) := by
  cases side <;> exact ⟨rfl, rfl⟩

theorem sameSize_criticalSection {call : QueueCall α} {e : QueueEvent α}
    (h : call.criticalSection q = some (q', e)) : SameSize q q' := by
  cases call with
  | send item xPosition =>
      simp only [QueueCall.criticalSection, sendSection] at h
      split at h
      · cases h
        exact (copyTo_lists item xPosition q).sameSize
      · cases h
  | receive pvBuffer =>
      simp only [QueueCall.criticalSection, receiveSection] at h
      split at h
      · cases h
        exact (copyFrom_lists pvBuffer q).sameSize
      · cases h
  | peek pvBuffer =>
      simp only [QueueCall.criticalSection, peekSection] at h
      split at h
      · cases h
        exact (copyFrom_lists pvBuffer q).sameSize
      · cases h
  | semaphoreTake =>
      simp only [QueueCall.criticalSection, takeSection] at h
      split at h
      · cases h
        exact ⟨rfl, rfl⟩
      · cases h

theorem sameSize_posted {l : Int} (h : postedFromISR l q = some q') :
    SameSize q q' := by
  unfold postedFromISR at h
  split at h
  · cases h
    exact ⟨rfl, rfl⟩
  · split at h
    · cases h
      exact ⟨rfl, rfl⟩
    · cases h

theorem sameSize_sendFromISR {xPosition : CopyPosition} {ok : Bool}
    (h : q.xQueueGenericSendFromISR x xPosition = some (ok, q')) :
    SameSize q q' := by
  unfold xQueueGenericSendFromISR at h
  split at h
  · cases h
  · split at h
    · obtain ⟨q'', hpost, heq⟩ := Option.map_eq_some_iff.mp h
      cases heq
      obtain ⟨hlen, hsize⟩ := sameSize_posted hpost
      have hcopy := copyTo_lists x xPosition q
      exact ⟨hlen.trans hcopy.uxLength, hsize.trans hcopy.uxItemSize⟩
    · cases h
      exact ⟨rfl, rfl⟩

theorem sameSize_giveFromISR {ok : Bool}
    (h : q.xQueueGiveFromISR = some (ok, q')) : SameSize q q' := by
  simp only [xQueueGiveFromISR] at h
  split at h
  · split at h
    · obtain ⟨q'', hpost, heq⟩ := Option.map_eq_some_iff.mp h
      cases heq
      have hsize := sameSize_posted hpost
      exact hsize
    · cases h
      exact ⟨rfl, rfl⟩
  · cases h

theorem sameSize_receiveFromISR {pvBuffer : α} {ok : Bool}
    (h : q.xQueueReceiveFromISR pvBuffer = some (ok, x, q')) :
    SameSize q q' := by
  simp only [xQueueReceiveFromISR] at h
  split at h
  · split at h
    · cases h
      exact (copyFrom_lists pvBuffer q).sameSize
    · split at h
      · cases h
        exact (copyFrom_lists pvBuffer q).sameSize
      · cases h
  · cases h
    exact ⟨rfl, rfl⟩

theorem sameSize_peekFromISR {pvBuffer : α} {ok : Bool}
    (h : q.xQueuePeekFromISR pvBuffer = some (ok, x, q')) : SameSize q q' := by
  simp only [xQueuePeekFromISR] at h
  split at h
  · split at h
    · cases h
      exact (copyFrom_lists pvBuffer q).sameSize
    · cases h
      exact ⟨rfl, rfl⟩
  · cases h

end QueueDefinition

open QueueDefinition

/-! ## The calls -/

/-- The call a task is in. -/
def Phase.call : Phase α → Option (QueueCall α)
  | .outside => none
  | .attempt call _ | .failed call | .suspended call | .locked call
  | .mustWait call | .unlockTx call _ | .unlockRx call _ | .resume call _
  | .waiting call | .lastLook call => some call

theorem After.call_phase {call c : QueueCall α} {next : After}
    (h : (next.phase call).call = some c) : c = call := by
  cases next with
  | block => exact (Option.some.inj h).symm
  | again => exact (Option.some.inj h).symm
  | expired =>
      unfold After.phase at h
      cases hside : call.side with
      | sender =>
          rw [hside] at h
          cases h
      | receiver =>
          rw [hside] at h
          exact (Option.some.inj h).symm

theorem QueueCall.Asserts.congr {call : QueueCall α} (h : call.Asserts q)
    (hsize : SameSize q q') : call.Asserts q' := by
  cases call with
  | send item xPosition => exact fun hover => hsize.1.trans (h hover)
  | receive pvBuffer => trivial
  | peek pvBuffer => trivial
  | semaphoreTake => exact hsize.2.trans h

namespace QueueSystem

/-- Every call meets its assertions. -/
def Asserted (s : QueueSystem α) : Prop :=
  ∀ x call, (s.phase x).call = some call → call.Asserts s.queue

variable {s s' : QueueSystem α} {xTaskPeriod uxPriority : TaskHandle → Nat}
  {tasks : Finset TaskHandle} {es : List (QueueEvent α)}

theorem Step.sameSize (h : Step xTaskPeriod uxPriority tasks s es s') :
    SameSize s.queue s'.queue := by
  cases h with
  | call | fail | suspendAll | lock | timeUp | look | unlockTx | unlockRx
  | resumeAll | goOn | lookAgain => exact ⟨rfl, rfl⟩
  | succeed hrun hphase hsection => exact sameSize_criticalSection hsection
  | place | timeout => exact sameSize_setWaiting _ _ _
  | sendFromISR hisr => exact sameSize_sendFromISR hisr
  | giveFromISR hisr => exact sameSize_giveFromISR hisr
  | receiveFromISR hisr => exact sameSize_receiveFromISR hisr
  | peekFromISR hisr => exact sameSize_peekFromISR hisr

/-- One task moves from one phase of its call to another. -/
theorem Asserted.move (h : s.Asserted) (x : TaskHandle) (p : Phase α)
    (hp : ∀ call, p.call = some call → call.Asserts s.queue)
    (hsize : SameSize s.queue q') (o : Option TaskHandle) :
    Asserted ⟨q', Function.update s.phase x p, o⟩ := by
  intro y call hcall
  have hcall : (Function.update s.phase x p y).call = some call := hcall
  refine QueueCall.Asserts.congr ?_ hsize
  by_cases hy : y = x
  · subst hy
    rw [Function.update_self] at hcall
    exact hp call hcall
  · rw [Function.update_of_ne hy] at hcall
    exact h y call hcall

theorem Asserted.stay (h : s.Asserted) {x : TaskHandle} {p : Phase α}
    (p' : Phase α) {call : QueueCall α} (hphase : s.phase x = p)
    (hp : p.call = some call) (hp' : ∀ c, p'.call = some c → c = call)
    (hsize : SameSize s.queue q') (o : Option TaskHandle) :
    Asserted ⟨q', Function.update s.phase x p', o⟩ :=
  h.move x p' (fun c hc => by
    rw [hp' c hc]
    exact h x call (hphase ▸ hp)) hsize o

theorem Asserted.step (h : s.Asserted)
    (hstep : Step xTaskPeriod uxPriority tasks s es s') :
    s'.Asserted := by
  have hsize := hstep.sameSize
  have hsome : ∀ {call : QueueCall α} (c), some call = some c → c = call :=
    fun c hc => (Option.some.inj hc).symm
  cases hstep with
  | @call x call mayBlock hx hrun hphase hassert =>
      refine h.move x (.attempt call mayBlock) (fun c hc => ?_) hsize _
      rw [hsome c hc]
      exact hassert
  | @succeed x =>
      exact h.move x .outside (fun c hc => by cases hc) hsize _
  | @fail x call mayBlock hrun hphase =>
      cases mayBlock with
      | false => exact h.move x .outside (fun c hc => by cases hc) hsize _
      | true => exact h.stay (.failed call) hphase rfl hsome hsize _
  | @suspendAll x call hrun hphase =>
      exact h.stay (.suspended call) hphase rfl hsome hsize _
  | @lock x call hrun hphase =>
      exact h.stay (.locked call) hphase rfl hsome hsize _
  | @timeUp x call hrun hphase =>
      exact h.stay (.unlockTx call .expired) hphase rfl hsome hsize _
  | @look x call hrun hphase =>
      refine h.stay _ hphase rfl (fun c hc => ?_) hsize _
      split at hc <;> exact hsome c hc
  | @place x call hrun hphase =>
      exact h.stay (.unlockTx call .block) hphase rfl hsome hsize _
  | @unlockTx x call next hrun hphase =>
      exact h.stay (.unlockRx call next) hphase rfl hsome hsize _
  | @unlockRx x call next hrun hphase =>
      exact h.stay (.resume call next) hphase rfl hsome hsize _
  | @resumeAll x call next hrun hphase =>
      exact h.stay _ hphase rfl (fun c hc => After.call_phase hc) hsize _
  | @goOn x call hrun hphase =>
      exact h.stay (.attempt call true) hphase rfl hsome hsize _
  | @lookAgain x call hrun hphase =>
      refine h.stay _ hphase rfl (fun c hc => ?_) hsize _
      split at hc
      · cases hc
      · exact hsome c hc
  | timeout | sendFromISR | giveFromISR | receiveFromISR | peekFromISR =>
      exact fun y call hcall => (h y call hcall).congr hsize

theorem asserted_start (q : QueueDefinition α) : (start q).Asserted :=
  fun _ _ hcall => by cases hcall

/-- The steps of a run preserve what each of them preserves. -/
theorem Runs.asserted {s₀ : QueueSystem α} (h₀ : s₀.Asserted)
    (h : Runs xTaskPeriod uxPriority tasks s₀ es s) : s.Asserted := by
  induction h with
  | refl => exact h₀
  | step _ hstep ih => exact ih.step hstep

end QueueSystem

end FreeRtosSim
