import FreeRtosSim.Lib.Deque
import FreeRtosSim.Lib.Ring
import FreeRtosSim.Proofs.Calls

/-!
# A queue is a bounded queue

The items of a queue are the slots behind `pcReadFrom`, round the storage
area, `uxMessagesWaiting` of them; `pcWriteTo` is the slot behind the last
one. Each function adds or removes at the end it is meant to, so however the
steps of tasks and interrupts interleave, the queue has the history of a
bounded queue: nothing is lost, doubled or reordered.
-/

namespace FreeRtosSim

variable {α : Type} {q q' : QueueDefinition α} {x : α}

/-- What an event of a queue is in a bounded queue. -/
def QueueEvent.deque : QueueEvent α → Option (DequeEvent α)
  | .sent x .sendToBack => some (.pushBack x)
  | .sent x .sendToFront => some (.pushFront x)
  | .sent x .overwrite => some (.replace x)
  | .received x => some (.popFront x)
  | .peeked x => some (.front x)
  | .taken => none

/-- The item that went in. -/
def QueueEvent.sentItem : QueueEvent α → Option α
  | .sent x _ => some x
  | _ => none

/-- The item that came out. -/
def QueueEvent.receivedItem : QueueEvent α → Option α
  | .received x => some x
  | _ => none

/-- No item went in anywhere but at the back. -/
def QueueEvent.AtBack : QueueEvent α → Prop
  | .sent _ xCopyPosition => xCopyPosition = .sendToBack
  | _ => True

namespace QueueDefinition

/-- The items in the queue, the next one to be received first. -/
def items (pxQueue : QueueDefinition α) : List α :=
  window pxQueue.pcHead pxQueue.uxLength (pxQueue.pcReadFrom + 1)
    pxQueue.uxMessagesWaiting

/-- The pointers into the storage area belong together. -/
structure Ringed (pxQueue : QueueDefinition α) : Prop where
  itemSize : pxQueue.uxItemSize ≠ 0
  count_le : pxQueue.uxMessagesWaiting ≤ pxQueue.uxLength
  read_lt : pxQueue.pcReadFrom < pxQueue.uxLength
  write_eq : pxQueue.pcWriteTo =
    (pxQueue.pcReadFrom + 1 + pxQueue.uxMessagesWaiting) % pxQueue.uxLength

/-- The storage area and the pointers are the same. -/
structure SameItems (q q' : QueueDefinition α) : Prop where
  pcHead : q'.pcHead = q.pcHead
  pcWriteTo : q'.pcWriteTo = q.pcWriteTo
  pcReadFrom : q'.pcReadFrom = q.pcReadFrom
  uxMessagesWaiting : q'.uxMessagesWaiting = q.uxMessagesWaiting
  uxLength : q'.uxLength = q.uxLength
  uxItemSize : q'.uxItemSize = q.uxItemSize

theorem SameItems.refl (q : QueueDefinition α) : SameItems q q :=
  ⟨rfl, rfl, rfl, rfl, rfl, rfl⟩

theorem SameItems.ringed (h : SameItems q q') (hq : q.Ringed) : q'.Ringed where
  itemSize := h.uxItemSize ▸ hq.itemSize
  count_le := by
    rw [h.uxMessagesWaiting, h.uxLength]
    exact hq.count_le
  read_lt := by
    rw [h.pcReadFrom, h.uxLength]
    exact hq.read_lt
  write_eq := by
    rw [h.pcWriteTo, h.pcReadFrom, h.uxMessagesWaiting, h.uxLength]
    exact hq.write_eq

theorem SameItems.items (h : SameItems q q') : q'.items = q.items := by
  rw [QueueDefinition.items, h.pcHead, h.uxLength, h.pcReadFrom,
    h.uxMessagesWaiting]
  rfl

theorem Ringed.length_items (_ : q.Ringed) :
    q.items.length = q.uxMessagesWaiting := length_window

/-- What a function does to the items is the event `e`. -/
structure Does (q : QueueDefinition α) (e : DequeEvent α)
    (q' : QueueDefinition α) : Prop where
  ringed : q'.Ringed
  uxLength : q'.uxLength = q.uxLength
  step : DequeStep q.uxLength q.items e q'.items

theorem Does.same {e : DequeEvent α} {q'' : QueueDefinition α}
    (h : Does q e q') (hsame : SameItems q' q'') : Does q e q'' where
  ringed := hsame.ringed h.ringed
  uxLength := hsame.uxLength.trans h.uxLength
  step := by
    rw [hsame.items]
    exact h.step

theorem Does.of_items {e : DequeEvent α} {ys : List α} (hring : q'.Ringed)
    (hlen : q'.uxLength = q.uxLength) (hitems : q'.items = ys)
    (hstep : DequeStep q.uxLength q.items e ys) : Does q e q' :=
  ⟨hring, hlen, hitems ▸ hstep⟩

/-! ## The functions that copy -/

theorem Ringed.sendToBack (h : q.Ringed)
    (hlt : q.uxMessagesWaiting < q.uxLength) :
    Does q (.pushBack x) (q.prvCopyDataToQueue x .sendToBack) := by
  have hpos : 0 < q.uxLength := by omega
  have hwrite : (if q.pcWriteTo + 1 ≥ q.uxLength then 0 else q.pcWriteTo + 1) =
      (q.pcReadFrom + 1 + (q.uxMessagesWaiting + 1)) % q.uxLength := by
    rw [h.write_eq, succ_mod_eq hpos, Nat.add_assoc]
  have hitems : window (Function.update q.pcHead q.pcWriteTo x) q.uxLength
      (q.pcReadFrom + 1) (q.uxMessagesWaiting + 1) = q.items ++ [x] := by
    rw [h.write_eq]
    exact window_update_snoc q.pcHead x hlt
  rw [prvCopyDataToQueue, if_neg h.itemSize, if_pos rfl]
  exact .of_items ⟨h.itemSize, hlt, h.read_lt, hwrite⟩ rfl hitems
    (.pushBack (h.length_items.trans_lt hlt))

/-- Writing in front of the items, of which `c` are kept. -/
theorem Ringed.writeFront (h : q.Ringed) {c : Nat} (hc : c < q.uxLength)
    (hkeep : c = q.uxMessagesWaiting ∨ q.uxLength = 1) :
    let q' := { q with
      pcHead := Function.update q.pcHead q.pcReadFrom x
      pcReadFrom :=
        if (q.pcReadFrom : Int) - 1 < 0 then q.uxLength - 1
        else q.pcReadFrom - 1
      uxMessagesWaiting := c + 1 }
    q'.Ringed ∧
    q'.items = x :: window q.pcHead q.uxLength (q.pcReadFrom + 1) c := by
  have hprev := pred_mod_eq h.read_lt
  have hread : (if (q.pcReadFrom : Int) - 1 < 0 then q.uxLength - 1
      else q.pcReadFrom - 1) < q.uxLength := by
    have := h.read_lt
    split <;> omega
  refine ⟨⟨h.itemSize, hc, hread, ?_⟩, ?_⟩
  · show q.pcWriteTo = ((if (q.pcReadFrom : Int) - 1 < 0 then q.uxLength - 1
      else q.pcReadFrom - 1) + 1 + (c + 1)) % q.uxLength
    rw [h.write_eq, ← Nat.mod_add_mod (_ + 1) _ (c + 1), hprev]
    rcases hkeep with rfl | hone
    · rw [Nat.add_right_comm, Nat.add_assoc]
    · rw [hone, Nat.mod_one, Nat.mod_one]
  · show window _ q.uxLength (_ + 1) (c + 1) = _
    rw [← window_mod, hprev]
    have hcell := window_update_cons (r := q.pcReadFrom) q.pcHead x hc
    rwa [Nat.mod_eq_of_lt h.read_lt] at hcell

theorem Ringed.sendToFront (h : q.Ringed)
    (hlt : q.uxMessagesWaiting < q.uxLength) :
    Does q (.pushFront x) (q.prvCopyDataToQueue x .sendToFront) := by
  obtain ⟨hring, hitems⟩ := h.writeFront (x := x) hlt (Or.inl rfl)
  rw [prvCopyDataToQueue, if_neg h.itemSize,
    if_neg (by exact CopyPosition.noConfusion)]
  exact .of_items hring rfl hitems
    (.pushFront (h.length_items.trans_lt hlt))

/-- Overwriting is for queues of one item. -/
theorem Ringed.overwrite (h : q.Ringed) (hone : q.uxLength = 1) :
    Does q (.replace x) (q.prvCopyDataToQueue x .overwrite) := by
  have hle := h.count_le
  have hcount : (if q.uxMessagesWaiting > 0 then q.uxMessagesWaiting - 1
      else q.uxMessagesWaiting) = 0 := by
    split <;> omega
  obtain ⟨hring, hitems⟩ :=
    h.writeFront (x := x) (c := 0) (by omega) (Or.inr hone)
  rw [prvCopyDataToQueue, if_neg h.itemSize,
    if_neg (by exact CopyPosition.noConfusion), if_pos rfl, hcount]
  exact .of_items hring rfl hitems (.replace hone)

/-- The slot `prvCopyDataFromQueue` reads holds the first item. -/
theorem Ringed.copyFrom (h : q.Ringed) (hpos : 0 < q.uxMessagesWaiting)
    (pvBuffer : α) : ∃ x xs,
    q.items = x :: xs ∧ (q.prvCopyDataFromQueue pvBuffer).1 = x ∧
    Does q (.popFront x) { (q.prvCopyDataFromQueue pvBuffer).2 with
      uxMessagesWaiting := q.uxMessagesWaiting - 1 } := by
  have hlen : 0 < q.uxLength := Nat.zero_lt_of_lt h.read_lt
  have hnext : (if q.pcReadFrom + 1 ≥ q.uxLength then 0
      else q.pcReadFrom + 1) = (q.pcReadFrom + 1) % q.uxLength := by
    have hstep := succ_mod_eq (a := q.pcReadFrom) hlen
    rwa [Nat.mod_eq_of_lt h.read_lt] at hstep
  obtain ⟨c, hc⟩ : ∃ c, q.uxMessagesWaiting = c + 1 :=
    ⟨q.uxMessagesWaiting - 1, by omega⟩
  have hitems : q.items = q.pcHead ((q.pcReadFrom + 1) % q.uxLength) ::
      window q.pcHead q.uxLength ((q.pcReadFrom + 1) % q.uxLength + 1) c := by
    rw [QueueDefinition.items, hc, window_cons,
      ← window_mod _ _ ((q.pcReadFrom + 1) % q.uxLength + 1), Nat.mod_add_mod,
      window_mod]
  simp only [prvCopyDataFromQueue, if_pos h.itemSize, hnext]
  refine ⟨_, _, hitems, rfl, ⟨?_, rfl, ?_⟩⟩
  · have hle := h.count_le
    refine ⟨h.itemSize, by simp only; omega, Nat.mod_lt _ hlen, ?_⟩
    show q.pcWriteTo = ((q.pcReadFrom + 1) % q.uxLength + 1 +
      (q.uxMessagesWaiting - 1)) % q.uxLength
    rw [h.write_eq, hc, Nat.add_sub_cancel,
      Nat.add_assoc ((q.pcReadFrom + 1) % q.uxLength), Nat.mod_add_mod,
      Nat.add_comm 1 c]
  · rw [hitems]
    show DequeStep q.uxLength _ _ (window q.pcHead q.uxLength _
      (q.uxMessagesWaiting - 1))
    rw [hc, Nat.add_sub_cancel]
    exact .popFront

/-- The first item can be read without being removed. -/
theorem Ringed.peek (h : q.Ringed) (hpos : 0 < q.uxMessagesWaiting)
    (pvBuffer : α) :
    Does q (.front (q.prvCopyDataFromQueue pvBuffer).1)
      { (q.prvCopyDataFromQueue pvBuffer).2 with
        pcReadFrom := q.pcReadFrom } := by
  obtain ⟨x, xs, hitems, rfl, -⟩ := h.copyFrom hpos pvBuffer
  have hsame : SameItems q { (q.prvCopyDataFromQueue pvBuffer).2 with
      pcReadFrom := q.pcReadFrom } := by
    simp only [prvCopyDataFromQueue, if_pos h.itemSize]
    exact ⟨rfl, rfl, rfl, rfl, rfl, rfl⟩
  refine .of_items (hsame.ringed h) hsame.uxLength hsame.items ?_
  rw [hitems]
  exact .front

/-! ## The steps -/

theorem sameItems_unblockReceiver (q : QueueDefinition α) :
    SameItems q q.unblockReceiver := ⟨rfl, rfl, rfl, rfl, rfl, rfl⟩

theorem sameItems_unblockSender (q : QueueDefinition α) :
    SameItems q q.unblockSender := ⟨rfl, rfl, rfl, rfl, rfl, rfl⟩

theorem sameItems_setWaiting (q : QueueDefinition α) (side : Side)
    (l : List TaskHandle) : SameItems q (q.setWaiting side l) := by
  cases side <;> exact ⟨rfl, rfl, rfl, rfl, rfl, rfl⟩

theorem sameItems_posted {l : Int} (h : postedFromISR l q = some q') :
    SameItems q q' := by
  unfold postedFromISR at h
  split at h
  · cases h
    exact sameItems_unblockReceiver q
  · split at h
    · cases h
      exact ⟨rfl, rfl, rfl, rfl, rfl, rfl⟩
    · cases h

theorem Ringed.send (h : q.Ringed) {xPosition : CopyPosition}
    (hone : xPosition = .overwrite → q.uxLength = 1)
    (hmay : q.mayCopy xPosition = true) :
    ∃ e, (QueueEvent.sent x xPosition).deque = some e ∧
      Does q e (q.prvCopyDataToQueue x xPosition) := by
  rw [mayCopy, decide_eq_true_iff] at hmay
  cases xPosition with
  | sendToBack =>
      exact ⟨_, rfl, h.sendToBack (hmay.resolve_right CopyPosition.noConfusion)⟩
  | sendToFront =>
      exact ⟨_, rfl, h.sendToFront (hmay.resolve_right CopyPosition.noConfusion)⟩
  | overwrite => exact ⟨_, rfl, h.overwrite (hone rfl)⟩

/-- A critical section that succeeds does what it says. -/
theorem Ringed.criticalSection (h : q.Ringed) {call : QueueCall α}
    {event : QueueEvent α} (hassert : call.Asserts q)
    (hsection : call.criticalSection q = some (q', event)) :
    ∃ e, event.deque = some e ∧ Does q e q' := by
  cases call with
  | send item xPosition =>
      simp only [QueueCall.criticalSection, sendSection] at hsection
      split at hsection
      · next hmay =>
          cases hsection
          obtain ⟨e, he, hdoes⟩ := h.send hassert hmay
          exact ⟨e, he, hdoes.same (sameItems_unblockReceiver _)⟩
      · cases hsection
  | receive pvBuffer =>
      simp only [QueueCall.criticalSection, receiveSection] at hsection
      split at hsection
      · next hpos =>
          cases hsection
          obtain ⟨x, xs, -, hx, hdoes⟩ := h.copyFrom hpos pvBuffer
          refine ⟨_, rfl, ?_⟩
          rw [hx]
          exact hdoes.same (sameItems_unblockSender _)
      · cases hsection
  | peek pvBuffer =>
      simp only [QueueCall.criticalSection, peekSection] at hsection
      split at hsection
      · next hpos =>
          cases hsection
          exact ⟨_, rfl, (h.peek hpos pvBuffer).same
            (sameItems_unblockReceiver _)⟩
      · cases hsection
  | semaphoreTake => exact absurd hassert h.itemSize

theorem Ringed.sendFromISR (h : q.Ringed) {xPosition : CopyPosition} {ok : Bool}
    (hisr : q.xQueueGenericSendFromISR x xPosition = some (ok, q')) :
    if ok then ∃ e, (QueueEvent.sent x xPosition).deque = some e ∧ Does q e q'
    else q' = q := by
  unfold xQueueGenericSendFromISR at hisr
  split at hisr
  · cases hisr
  · next hassert =>
      split at hisr
      · next hmay =>
          obtain ⟨q'', hpost, heq⟩ := Option.map_eq_some_iff.mp hisr
          cases heq
          obtain ⟨e, he, hdoes⟩ := h.send (x := x)
            (fun hover => by_contra fun hne => hassert ⟨hover, hne⟩) hmay
          exact ⟨e, he, hdoes.same (sameItems_posted hpost)⟩
      · cases hisr
        rfl

theorem Ringed.giveFromISR (h : q.Ringed) : q.xQueueGiveFromISR = none := by
  rw [xQueueGiveFromISR, if_neg h.itemSize]

theorem Ringed.receiveFromISR (h : q.Ringed) {pvBuffer : α} {ok : Bool}
    (hisr : q.xQueueReceiveFromISR pvBuffer = some (ok, x, q')) :
    if ok then Does q (.popFront x) q' else q' = q := by
  simp only [xQueueReceiveFromISR] at hisr
  split at hisr
  · next hpos =>
      obtain ⟨y, ys, -, hy, hdoes⟩ := h.copyFrom hpos pvBuffer
      split at hisr
      · cases hisr
        rw [if_pos rfl, hy]
        exact hdoes.same (sameItems_unblockSender _)
      · split at hisr
        · cases hisr
          rw [if_pos rfl, hy]
          exact hdoes.same ⟨rfl, rfl, rfl, rfl, rfl, rfl⟩
        · cases hisr
  · cases hisr
    rfl

theorem Ringed.peekFromISR (h : q.Ringed) {pvBuffer : α} {ok : Bool}
    (hisr : q.xQueuePeekFromISR pvBuffer = some (ok, x, q')) :
    if ok then Does q (.front x) q' else q' = q := by
  unfold xQueuePeekFromISR at hisr
  rw [if_pos h.itemSize] at hisr
  split at hisr
  · next hpos =>
      cases hisr
      exact h.peek hpos pvBuffer
  · cases hisr
    rfl

/-- A new queue is empty. -/
theorem ringed_create {sizeOfQueue uxQueueLength uxItemSize : Nat}
    (hsize : uxItemSize ≠ 0)
    (hcreate : xQueueGenericCreate sizeOfQueue uxQueueLength uxItemSize q =
      some q') :
    q'.Ringed ∧ q'.uxLength = uxQueueLength ∧ q'.items = [] := by
  simp only [xQueueGenericCreate, prvInitialiseNewQueue,
    xQueueGenericReset] at hcreate
  split at hcreate
  · next hlen =>
      split at hcreate
      · cases hcreate
        have hpos := hlen.1
        refine ⟨⟨hsize, Nat.zero_le _, Nat.sub_lt hpos Nat.one_pos, ?_⟩, rfl, rfl⟩
        show 0 = (uxQueueLength - 1 + 1 + 0) % uxQueueLength
        rw [Nat.add_zero, Nat.sub_add_cancel hpos, Nat.mod_self]
      · cases hcreate
  · cases hcreate

end QueueDefinition

/-! ## The run -/

/-- The queue has held items as a bounded queue does. -/
structure Bounded (cap : Nat) (es : List (QueueEvent α)) (s : QueueSystem α) :
    Prop where
  ringed : s.queue.Ringed
  uxLength : s.queue.uxLength = cap
  history : DequeHistory cap (es.filterMap QueueEvent.deque) s.queue.items

section Step

open QueueDefinition QueueSystem

variable {cap : Nat} {es : List (QueueEvent α)} {s s' : QueueSystem α}

/-- A step that leaves the items alone. -/
theorem Bounded.same (h : Bounded cap es s)
    (hsame : SameItems s.queue s'.queue) : Bounded cap (es ++ []) s' where
  ringed := hsame.ringed h.ringed
  uxLength := hsame.uxLength.trans h.uxLength
  history := by
    rw [List.append_nil, hsame.items]
    exact h.history

/-- A step with one event. -/
theorem Bounded.event (h : Bounded cap es s) {event : QueueEvent α}
    {e : DequeEvent α} (he : event.deque = some e)
    (hdoes : Does s.queue e s'.queue) : Bounded cap (es ++ [event]) s' where
  ringed := hdoes.ringed
  uxLength := hdoes.uxLength.trans h.uxLength
  history := by
    rw [List.filterMap_append, List.filterMap_cons, he]
    exact h.history.snoc (h.uxLength ▸ hdoes.step)

/-- An interrupt that may have found nothing to do. -/
theorem Bounded.interrupt (h : Bounded cap es s) {ok : Bool}
    {event : QueueEvent α} {e : DequeEvent α} (he : event.deque = some e)
    (hdoes : if ok then Does s.queue e s'.queue else s'.queue = s.queue) :
    Bounded cap (es ++ if ok then [event] else []) s' := by
  cases ok with
  | true => exact h.event he hdoes
  | false =>
      refine h.same ?_
      rw [show s'.queue = s.queue from hdoes]
      exact SameItems.refl _

theorem Bounded.step (h : Bounded cap es s) (hcalls : s.Asserted)
    {xTaskPeriod uxPriority : TaskHandle → Nat} {tasks : Finset TaskHandle}
    {es' : List (QueueEvent α)}
    (hstep : Step xTaskPeriod uxPriority tasks s es' s') :
    Bounded cap (es ++ es') s' := by
  cases hstep with
  | call | fail | suspendAll | timeUp | look | resumeAll | goOn | lookAgain
  | lock | unlockTx | unlockRx => exact h.same ⟨rfl, rfl, rfl, rfl, rfl, rfl⟩
  | place | timeout => exact h.same (sameItems_setWaiting _ _ _)
  | succeed hrun hphase hsection =>
      have hassert := hcalls _ _ (congrArg Phase.call hphase)
      obtain ⟨e, he, hdoes⟩ := h.ringed.criticalSection hassert hsection
      exact h.event he hdoes
  | @sendFromISR item xCopyPosition ok pxQueue hisr =>
      have hdoes := h.ringed.sendFromISR hisr
      cases ok with
      | true =>
          obtain ⟨e, he, hdoes⟩ := hdoes
          exact h.event he hdoes
      | false =>
          refine h.same ?_
          rw [show pxQueue = s.queue from hdoes]
          exact SameItems.refl _
  | giveFromISR hisr =>
      rw [h.ringed.giveFromISR] at hisr
      cases hisr
  | receiveFromISR hisr =>
      exact h.interrupt rfl (h.ringed.receiveFromISR hisr)
  | peekFromISR hisr => exact h.interrupt rfl (h.ringed.peekFromISR hisr)

end Step

theorem QueueEvent.pushed_deque (e : QueueEvent α) :
    e.deque.bind DequeEvent.pushed = e.sentItem := by
  cases e with
  | sent x xCopyPosition => cases xCopyPosition <;> rfl
  | received x => rfl
  | peeked x => rfl
  | taken => rfl

theorem QueueEvent.popped_deque (e : QueueEvent α) :
    e.deque.bind DequeEvent.popped = e.receivedItem := by
  cases e with
  | sent x xCopyPosition => cases xCopyPosition <;> rfl
  | received x => rfl
  | peeked x => rfl
  | taken => rfl

theorem QueueEvent.AtBack.deque {e : QueueEvent α} (h : e.AtBack)
    {d : DequeEvent α} (hd : e.deque = some d) : d.AtBack := by
  cases e with
  | sent x xCopyPosition =>
      cases h
      cases hd
      trivial
  | received x =>
      cases hd
      trivial
  | peeked x =>
      cases hd
      trivial
  | taken => cases hd

/-- Whatever tasks and interrupts do, in whatever order, a queue has the
history of a bounded queue. As long as items are only sent to the back, the
items received and the items still there are the items sent, in their order. -/
theorem queue_fifo {sizeOfQueue uxQueueLength uxItemSize : Nat}
    {xTaskPeriod uxPriority : TaskHandle → Nat} {tasks : Finset TaskHandle}
    {es : List (QueueEvent α)} {s : QueueSystem α}
    (hcreate : QueueDefinition.xQueueGenericCreate sizeOfQueue uxQueueLength
      uxItemSize q = some q') (hsize : uxItemSize ≠ 0)
    (hrun : QueueSystem.Runs xTaskPeriod uxPriority tasks (.start q') es s) :
    DequeHistory uxQueueLength (es.filterMap QueueEvent.deque) s.queue.items ∧
    s.queue.items.length = s.queue.uxMessagesWaiting ∧
    s.queue.uxMessagesWaiting ≤ uxQueueLength ∧
    ((∀ e ∈ es, e.AtBack) → es.filterMap QueueEvent.sentItem =
      es.filterMap QueueEvent.receivedItem ++ s.queue.items) := by
  have hbounded : Bounded uxQueueLength es s := by
    induction hrun with
    | refl =>
        obtain ⟨hring, hlen, hitems⟩ :=
          QueueDefinition.ringed_create hsize hcreate
        refine ⟨hring, hlen, ?_⟩
        rw [show (QueueSystem.start q').queue.items = [] from hitems]
        exact .nil
    | step hprev hstep ih =>
        exact ih.step (hprev.asserted (QueueSystem.asserted_start q')) hstep
  have hcap := hbounded.uxLength
  refine ⟨hbounded.history, hbounded.ringed.length_items,
    hcap ▸ hbounded.ringed.count_le, fun hback => ?_⟩
  have hfifo := hbounded.history.fifo fun d hd => by
    obtain ⟨e, he, hde⟩ := List.mem_filterMap.mp hd
    exact (hback e he).deque hde
  rw [List.filterMap_filterMap, List.filterMap_filterMap] at hfifo
  simpa only [QueueEvent.pushed_deque, QueueEvent.popped_deque] using hfifo

/-- A zeroed block. -/
def blankQueue : QueueDefinition Nat where
  pcHead := fun _ => 0
  pcWriteTo := 0
  pcReadFrom := 0
  xTasksWaitingToSend := []
  xTasksWaitingToReceive := []
  uxMessagesWaiting := 0
  uxLength := 0
  uxItemSize := 0
  cRxLock := 0
  cTxLock := 0

/-- A new queue for two items. -/
def smallQueue : QueueDefinition Nat :=
  { blankQueue with
    pcReadFrom := 1
    uxLength := 2
    uxItemSize := 4
    cRxLock := queueUnlocked
    cTxLock := queueUnlocked }

/-- Task 0 waits for an item. An interrupt sends 5, the task goes on and
receives it, and another interrupt sends 7. -/
theorem queue_fifo_waiting :
    let es : List (QueueEvent Nat) :=
      [.sent 5 .sendToBack, .received 5, .sent 7 .sendToBack]
    ∃ s : QueueSystem Nat,
      DequeHistory 2 (es.filterMap QueueEvent.deque) s.queue.items ∧
      s.queue.items.length = s.queue.uxMessagesWaiting ∧
      s.queue.uxMessagesWaiting ≤ 2 ∧
      ((∀ e ∈ es, e.AtBack) → es.filterMap QueueEvent.sentItem =
        es.filterMap QueueEvent.receivedItem ++ s.queue.items) := by
  have hrun : ∃ s, QueueSystem.Runs (fun _ => 0) (fun _ => 1) {0}
      (.start smallQueue) ([] ++ [] ++ [] ++ [] ++ [] ++ [] ++ [] ++ [] ++ [] ++
        [QueueEvent.sent 5 .sendToBack] ++ [] ++ [.received 5] ++
        [.sent 7 .sendToBack]) s :=
    ⟨_, .step (.step (.step (.step (.step (.step (.step (.step (.step (.step
      (.step (.step (.step .refl
      (@QueueSystem.Step.call Nat _ _ _ _ 0 (.receive 0) true
        (Finset.mem_singleton_self 0) rfl rfl trivial))
      (@QueueSystem.Step.fail Nat _ _ _ _ 0 (.receive 0) true
        (Or.inl rfl) rfl rfl))
      (@QueueSystem.Step.suspendAll Nat _ _ _ _ 0 (.receive 0) rfl rfl))
      (@QueueSystem.Step.lock Nat _ _ _ _ 0 (.receive 0) (Or.inr rfl) rfl))
      (@QueueSystem.Step.look Nat _ _ _ _ 0 (.receive 0) (Or.inr rfl) rfl))
      (@QueueSystem.Step.place Nat _ _ _ _ 0 (.receive 0) (Or.inr rfl) rfl))
      (@QueueSystem.Step.unlockTx Nat _ _ _ _ 0 (.receive 0) .block
        (Or.inr rfl) rfl))
      (@QueueSystem.Step.unlockRx Nat _ _ _ _ 0 (.receive 0) .block
        (Or.inr rfl) rfl))
      (@QueueSystem.Step.resumeAll Nat _ _ _ _ 0 (.receive 0) .block
        (Or.inr rfl) rfl))
      (@QueueSystem.Step.sendFromISR Nat _ _ _ _ 5 .sendToBack true _ rfl))
      (@QueueSystem.Step.goOn Nat _ _ _ _ 0 (.receive 0) (Or.inl rfl) rfl
        fun _ => List.not_mem_nil))
      (@QueueSystem.Step.succeed Nat _ _ _ _ 0 (.receive 0) true _ (.received 5)
        (Or.inl rfl) rfl rfl))
      (@QueueSystem.Step.sendFromISR Nat _ _ _ _ 7 .sendToBack true _ rfl)⟩
  obtain ⟨s, hrun⟩ := hrun
  exact ⟨s, @queue_fifo Nat blankQueue smallQueue 0 2 4 _ _ _ _ _ rfl
    (by decide) hrun⟩

end FreeRtosSim
