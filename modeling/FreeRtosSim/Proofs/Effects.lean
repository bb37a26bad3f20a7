import FreeRtosSim.Proofs.Calls

/-!
# What a function means to the tasks that wait

A task waits for an item or for room for one. To those that wait on one side,
every function on the queue either changes nothing, or takes something away
from them, or gives them one thing more and then wakes one of them or, if the
queue is locked, notes that one is to be woken.
-/

namespace FreeRtosSim

variable {α : Type} {q q' : QueueDefinition α}

def Side.other : Side → Side
  | .sender => .receiver
  | .receiver => .sender

theorem Side.other_ne (side : Side) : side.other ≠ side := by
  cases side <;> decide

namespace QueueDefinition

/-- How many calls of a side the queue has something for. -/
def available : Side → QueueDefinition α → Nat
  | .sender, pxQueue => pxQueue.uxLength - pxQueue.uxMessagesWaiting
  | .receiver, pxQueue => pxQueue.uxMessagesWaiting

/-- The lock that counts what the calls of a side wait for. -/
def lock : Side → QueueDefinition α → Int
  | .sender, pxQueue => pxQueue.cRxLock
  | .receiver, pxQueue => pxQueue.cTxLock

/-! ## What a function means to the calls of one side -/

/-- Nothing new for them. -/
structure Keeps (side : Side) (q q' : QueueDefinition α) : Prop where
  available : available side q' ≤ available side q
  waiting : q'.waiting side = q.waiting side
  lock : q'.lock side = q.lock side

/-- One of them took what it needed. -/
structure Uses (side : Side) (q q' : QueueDefinition α) : Prop where
  available : q'.available side ≤ q.available side - 1
  waiting : q'.waiting side = q.waiting side
  lock : q'.lock side = q.lock side

/-- At most one more can go on, and one is woken. -/
structure Wakes (side : Side) (q q' : QueueDefinition α) : Prop where
  available : q'.available side ≤ q.available side + 1
  waiting : q'.waiting side = (q.waiting side).tail
  lock : q'.lock side = q.lock side

/-- One had a look, and wakes the next. -/
structure Passes (side : Side) (q q' : QueueDefinition α) : Prop where
  available : q'.available side ≤ q.available side
  waiting : q'.waiting side = (q.waiting side).tail
  lock : q'.lock side = q.lock side

/-- At most one more can go on, and the lock notes it. -/
structure Notes (side : Side) (q q' : QueueDefinition α) : Prop where
  available : q'.available side ≤ q.available side + 1
  waiting : q'.waiting side = q.waiting side
  lock : q'.lock side = q.lock side + 1
  locked : q.lock side ≠ queueUnlocked

theorem SameLists.waiting (h : SameLists q q') (side : Side) :
    q'.waiting side = q.waiting side := by
  cases side with
  | sender => exact h.send
  | receiver => exact h.receive

theorem SameLists.lock (h : SameLists q q') (side : Side) :
    q'.lock side = q.lock side := by
  cases side with
  | sender => exact h.rxLock
  | receiver => exact h.txLock

/-- Copying adds one item, or replaces the only one. -/
theorem copyTo_count {x : α} {xPosition : CopyPosition}
    (hone : xPosition = .overwrite → q.uxLength = 1) :
    let n := (q.prvCopyDataToQueue x xPosition).uxMessagesWaiting
    q.uxMessagesWaiting ≤ n ∧ n ≤ q.uxMessagesWaiting + 1 ∧
    (q.uxMessagesWaiting < q.uxLength → n = q.uxMessagesWaiting + 1) := by
  intro n
  by_cases hsize : q.uxItemSize = 0
  · have hn : n = q.uxMessagesWaiting + 1 := by
      simp only [n, prvCopyDataToQueue, if_pos hsize]
    omega
  · cases xPosition with
    | sendToBack =>
        have hn : n = q.uxMessagesWaiting + 1 := by
          simp only [n, prvCopyDataToQueue, if_neg hsize, if_pos]
        omega
    | sendToFront =>
        have hn : n = q.uxMessagesWaiting + 1 := by
          simp [n, prvCopyDataToQueue, hsize]
        omega
    | overwrite =>
        have hone := hone rfl
        have hn : n = (if q.uxMessagesWaiting > 0 then q.uxMessagesWaiting - 1
            else q.uxMessagesWaiting) + 1 := by
          simp [n, prvCopyDataToQueue, hsize]
        rw [hn]
        split <;> omega

/-! ## The functions -/

theorem send_effect {x : α} {xPosition : CopyPosition}
    (hone : xPosition = .overwrite → q.uxLength = 1) :
    Uses .sender q (q.prvCopyDataToQueue x xPosition) ∧
    (q.prvCopyDataToQueue x xPosition).available .receiver ≤
      q.available .receiver + 1 := by
  obtain ⟨hge, hle, hlt⟩ := copyTo_count (x := x) hone
  have hlists := copyTo_lists x xPosition q
  refine ⟨⟨?_, hlists.waiting .sender, hlists.lock .sender⟩, hle⟩
  show (q.prvCopyDataToQueue x xPosition).uxLength - _ ≤
    q.uxLength - q.uxMessagesWaiting - 1
  rw [hlists.uxLength]
  omega

/-- A call that gets through has taken something its own side waits for and
wakes a task of the other; looking wakes the next one that wants to look. -/
theorem criticalSection_effect {call : QueueCall α} {e : QueueEvent α}
    (hassert : call.Asserts q) (h : call.criticalSection q = some (q', e)) :
    (Uses call.side q q' ∧ Wakes call.side.other q q') ∨
    (Passes call.side q q' ∧ Keeps call.side.other q q') := by
  cases call with
  | send item xPosition =>
      simp only [QueueCall.criticalSection, sendSection] at h
      split at h
      · cases h
        obtain ⟨huses, hmore⟩ := send_effect (x := item) hassert
        have hlists := copyTo_lists item xPosition q
        refine Or.inl ⟨⟨huses.available, huses.waiting, huses.lock⟩,
          ⟨hmore, ?_, hlists.lock .receiver⟩⟩
        exact congrArg List.tail hlists.receive
      · cases h
  | receive pvBuffer =>
      simp only [QueueCall.criticalSection, receiveSection] at h
      split at h
      · next hpos =>
          cases h
          have hlists := copyFrom_lists pvBuffer q
          refine Or.inl ⟨⟨Nat.le_refl _, hlists.receive, hlists.txLock⟩,
            ⟨?_, congrArg List.tail hlists.send, hlists.rxLock⟩⟩
          show (q.prvCopyDataFromQueue pvBuffer).2.uxLength -
            (q.uxMessagesWaiting - 1) ≤ q.uxLength - q.uxMessagesWaiting + 1
          rw [hlists.uxLength]
          omega
      · cases h
  | peek pvBuffer =>
      simp only [QueueCall.criticalSection, peekSection] at h
      split at h
      · cases h
        have hlists := copyFrom_lists pvBuffer q
        have hcount := copyFrom_count pvBuffer q
        refine Or.inr ⟨⟨Nat.le_of_eq hcount,
          congrArg List.tail hlists.receive, hlists.txLock⟩,
          ⟨?_, hlists.send, hlists.rxLock⟩⟩
        show (q.prvCopyDataFromQueue pvBuffer).2.uxLength -
          (q.prvCopyDataFromQueue pvBuffer).2.uxMessagesWaiting ≤ _
        rw [hlists.uxLength, hcount]
        exact Nat.le_refl _
      · cases h
  | semaphoreTake =>
      simp only [QueueCall.criticalSection, takeSection] at h
      split at h
      · cases h
        refine Or.inl ⟨⟨Nat.le_refl _, rfl, rfl⟩, ⟨?_, rfl, rfl⟩⟩
        show q.uxLength - (q.uxMessagesWaiting - 1) ≤
          q.uxLength - q.uxMessagesWaiting + 1
        omega
      · cases h

/-- A call that does not get through finds nothing. -/
theorem available_of_fail {call : QueueCall α}
    (h : call.criticalSection q = none) : q.available call.side = 0 := by
  cases call with
  | send item xPosition =>
      simp only [QueueCall.criticalSection, sendSection] at h
      split at h
      · cases h
      · next hmay =>
          rw [mayCopy, decide_eq_true_iff, not_or] at hmay
          exact Nat.sub_eq_zero_of_le (Nat.not_lt.mp hmay.1)
  | receive pvBuffer =>
      simp only [QueueCall.criticalSection, receiveSection] at h
      split at h
      · cases h
      · next hpos => exact Nat.eq_zero_of_not_pos hpos
  | peek pvBuffer =>
      simp only [QueueCall.criticalSection, peekSection] at h
      split at h
      · cases h
      · next hpos => exact Nat.eq_zero_of_not_pos hpos
  | semaphoreTake =>
      simp only [QueueCall.criticalSection, takeSection] at h
      split at h
      · cases h
      · next hpos => exact Nat.eq_zero_of_not_pos hpos

theorem available_of_mustWait {side : Side} (h : q.mustWait side = true) :
    q.available side = 0 := by
  cases side with
  | sender =>
      have hfull : q.uxMessagesWaiting = q.uxLength := of_decide_eq_true h
      exact Nat.sub_eq_zero_of_le (Nat.le_of_eq hfull.symm)
  | receiver => exact of_decide_eq_true h

/-- What an interrupt means to the calls of a side. -/
def Interrupts (q q' : QueueDefinition α) : Prop :=
  ∀ side, Keeps side q q' ∨
    (Wakes side q q' ∧ q.lock side = queueUnlocked) ∨ Notes side q q'

theorem Interrupts.refl (q : QueueDefinition α) : Interrupts q q :=
  fun _ => Or.inl ⟨Nat.le_refl _, rfl, rfl⟩

/-- `q₁` is `q` with an item added, and the interrupt tells the receivers. -/
theorem interrupts_posted {q₁ : QueueDefinition α}
    (h : postedFromISR q.cTxLock q₁ = some q') (hlists : SameLists q q₁)
    (hsender : q₁.available .sender ≤ q.available .sender)
    (hreceiver : q₁.available .receiver ≤ q.available .receiver + 1) :
    Interrupts q q' := by
  unfold postedFromISR at h
  split at h
  · next hlock =>
      cases h
      intro side
      cases side with
      | sender => exact Or.inl ⟨hsender, hlists.send, hlists.rxLock⟩
      | receiver => exact Or.inr (Or.inl ⟨⟨hreceiver,
          congrArg List.tail hlists.receive, hlists.txLock⟩, hlock⟩)
  · next hlock =>
      split at h
      · cases h
        intro side
        cases side with
        | sender => exact Or.inl ⟨hsender, hlists.send, hlists.rxLock⟩
        | receiver => exact Or.inr (Or.inr
            ⟨hreceiver, hlists.receive, rfl, hlock⟩)
      · cases h

theorem interrupts_send {x : α} {xPosition : CopyPosition} {ok : Bool}
    (h : q.xQueueGenericSendFromISR x xPosition = some (ok, q')) :
    Interrupts q q' := by
  unfold xQueueGenericSendFromISR at h
  split at h
  · cases h
  · next hassert =>
      split at h
      · obtain ⟨q'', hpost, heq⟩ := Option.map_eq_some_iff.mp h
        cases heq
        obtain ⟨huses, hmore⟩ := send_effect (x := x)
          (fun hover => by_contra fun hne => hassert ⟨hover, hne⟩)
        exact interrupts_posted hpost (copyTo_lists x xPosition q)
          (Nat.le_trans huses.available (Nat.sub_le _ _)) hmore
      · cases h
        exact .refl q

theorem interrupts_give {ok : Bool}
    (h : q.xQueueGiveFromISR = some (ok, q')) : Interrupts q q' := by
  simp only [xQueueGiveFromISR] at h
  split at h
  · split at h
    · obtain ⟨q'', hpost, heq⟩ := Option.map_eq_some_iff.mp h
      cases heq
      exact interrupts_posted hpost ⟨rfl, rfl, rfl, rfl, rfl, rfl⟩
        (Nat.sub_le_sub_left (Nat.le_succ _) _) (Nat.le_refl _)
    · cases h
      exact .refl q
  · cases h

theorem interrupts_receive {x pvBuffer : α} {ok : Bool}
    (h : q.xQueueReceiveFromISR pvBuffer = some (ok, x, q')) :
    Interrupts q q' := by
  have hlists := copyFrom_lists pvBuffer q
  have hmore : (q.prvCopyDataFromQueue pvBuffer).2.uxLength -
      (q.uxMessagesWaiting - 1) ≤ q.uxLength - q.uxMessagesWaiting + 1 := by
    rw [hlists.uxLength]
    omega
  have hless : q.uxMessagesWaiting - 1 ≤ q.uxMessagesWaiting := Nat.sub_le _ _
  simp only [xQueueReceiveFromISR] at h
  split at h
  · split at h
    · next hlock =>
        cases h
        intro side
        cases side with
        | sender => exact Or.inr (Or.inl ⟨⟨hmore,
            congrArg List.tail hlists.send, hlists.rxLock⟩, hlock⟩)
        | receiver => exact Or.inl ⟨hless, hlists.receive, hlists.txLock⟩
    · next hlock =>
        split at h
        · cases h
          intro side
          cases side with
          | sender => exact Or.inr (Or.inr ⟨hmore, hlists.send, rfl, hlock⟩)
          | receiver => exact Or.inl ⟨hless, hlists.receive, hlists.txLock⟩
        · cases h
  · cases h
    exact .refl q

theorem interrupts_peek {x pvBuffer : α} {ok : Bool}
    (h : q.xQueuePeekFromISR pvBuffer = some (ok, x, q')) :
    Interrupts q q' := by
  have hlists := copyFrom_lists pvBuffer q
  have hcount := copyFrom_count pvBuffer q
  have hle := Nat.le_of_eq hcount
  simp only [xQueuePeekFromISR] at h
  split at h
  · split at h
    · cases h
      intro side
      cases side with
      | sender =>
          refine Or.inl ⟨?_, hlists.send, hlists.rxLock⟩
          show (q.prvCopyDataFromQueue pvBuffer).2.uxLength -
            (q.prvCopyDataFromQueue pvBuffer).2.uxMessagesWaiting ≤ _
          rw [hlists.uxLength, hcount]
          exact Nat.le_refl _
      | receiver => exact Or.inl ⟨hle, hlists.receive, hlists.txLock⟩
    · cases h
      exact .refl q
  · cases h

theorem unblockLoop_eq (n : Nat) (l : List TaskHandle) :
    unblockLoop n l = l.drop n := by
  induction n generalizing l with
  | zero => rfl
  | succ n ih =>
      cases l with
      | nil => rfl
      | cons x l => exact ih l

theorem sublist_setWaiting {side : Side} {l : List TaskHandle}
    (q : QueueDefinition α) (hl : l.Sublist (q.waiting side)) (side' : Side) :
    ((q.setWaiting side l).waiting side').Sublist (q.waiting side') := by
  cases side <;> cases side' <;>
    first | exact hl | exact List.Sublist.refl _

theorem lock_setWaiting (q : QueueDefinition α) (side side' : Side)
    (l : List TaskHandle) :
    (q.setWaiting side l).lock side' = q.lock side' := by
  cases side <;> cases side' <;> rfl

theorem available_setWaiting (q : QueueDefinition α) (side side' : Side)
    (l : List TaskHandle) :
    (q.setWaiting side l).available side' = q.available side' := by
  cases side <;> cases side' <;> rfl

theorem waiting_setWaiting (q : QueueDefinition α) (side side' : Side)
    (l : List TaskHandle) : (q.setWaiting side l).waiting side' =
      if side' = side then l else q.waiting side' := by
  cases side <;> cases side' <;> rfl

theorem Interrupts.sublist {q q' : QueueDefinition α} (h : Interrupts q q')
    (side : Side) : (q'.waiting side).Sublist (q.waiting side) := by
  rcases h side with hk | ⟨hw, -⟩ | hn
  · exact hk.waiting ▸ List.Sublist.refl _
  · exact hw.waiting ▸ List.tail_sublist _
  · exact hn.waiting ▸ List.Sublist.refl _

theorem Interrupts.lock_le {q q' : QueueDefinition α} (h : Interrupts q q')
    (side : Side) : q.lock side ≤ q'.lock side := by
  rcases h side with hk | ⟨hw, -⟩ | hn
  · exact Int.le_of_eq hk.lock.symm
  · exact Int.le_of_eq hw.lock.symm
  · rw [hn.lock]
    omega

theorem criticalSection_lists {q q' : QueueDefinition α} {call : QueueCall α}
    {e : QueueEvent α} (hassert : call.Asserts q)
    (h : call.criticalSection q = some (q', e)) (side : Side) :
    (q'.waiting side).Sublist (q.waiting side) ∧
      q'.lock side = q.lock side := by
  have hside : side = call.side ∨ side = call.side.other := by
    cases side <;> cases call.side <;> simp [Side.other]
  rcases criticalSection_effect hassert h with ⟨huses, hwakes⟩ | ⟨hpass, hkeep⟩
  · rcases hside with rfl | rfl
    · exact ⟨huses.waiting ▸ List.Sublist.refl _, huses.lock⟩
    · exact ⟨hwakes.waiting ▸ List.tail_sublist _, hwakes.lock⟩
  · rcases hside with rfl | rfl
    · exact ⟨hpass.waiting ▸ List.tail_sublist _, hpass.lock⟩
    · exact ⟨hkeep.waiting ▸ List.Sublist.refl _, hkeep.lock⟩

theorem lock_prvLockQueue {q : QueueDefinition α}
    (h : ∀ side, queueUnlocked ≤ q.lock side) (side : Side) :
    queueLockedUnmodified ≤ q.prvLockQueue.lock side ∧
      (q.prvLockQueue.lock side).toNat = (q.lock side).toNat := by
  have hge := h side
  have hlock : q.prvLockQueue.lock side =
      if q.lock side = queueUnlocked then queueLockedUnmodified
      else q.lock side := by
    cases side <;> rfl
  rw [hlock]
  unfold queueLockedUnmodified queueUnlocked at *
  split <;> omega

end QueueDefinition

end FreeRtosSim
