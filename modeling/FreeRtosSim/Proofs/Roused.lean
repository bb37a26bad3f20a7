import FreeRtosSim.Proofs.Notified
import FreeRtosSim.Proofs.Streamed

/-!
# A stream buffer wakes who waits for it

Both sides of a stream buffer wait in the same way: look and ask to be
notified in one critical section, then sleep unless the notification has come
in between. What they wait for is done before the other side looks who has
asked. So a side that sleeps and could go on is about to be notified.
-/

namespace FreeRtosSim

open StreamBuffer

/-- How far a side is with its waiting. -/
inductive Waiting where
  | away
  | asked
  | asleep
  | back

def SendPhase.waiting : SendPhase → Waiting
  | .wait .. => .asked
  | .asleep .. => .asleep
  | .woken .. => .back
  | _ => .away

def ReceivePhase.waiting : ReceivePhase → Waiting
  | .wait _ => .asked
  | .asleep _ => .asleep
  | .woken _ => .back
  | _ => .away

/-- What holds of a side that waits, of the member of the buffer that names it
and of its notification. `quiet` says that there is nothing for it yet or that
the other side has not looked yet. -/
def Rousable (x : TaskHandle) (member : Option TaskHandle) (n : Notification)
    (quiet : Prop) : Waiting → Prop
  | .away => member = none ∧ n.blocked = false
  | .asked => n.blocked = false ∧ (member = some x ∧ quiet ∨
      member = none ∧ n.ucNotifyState = .received)
  | .asleep => (n.blocked = true → n.ucNotifyState = .waiting) ∧
      (member = some x ∧ quiet ∨ member = none ∧ n.blocked = false)
  | .back => (member = some x ∨ member = none) ∧ n.blocked = false

namespace Rousable

variable {x : TaskHandle} {member : Option TaskHandle} {n : Notification}
  {quiet quiet' : Prop} {w : Waiting}

theorem mono (h : Rousable x member n quiet w) (hquiet : quiet → quiet') :
    Rousable x member n quiet' w := by
  cases w with
  | away | back => exact h
  | asked | asleep => exact ⟨h.1, h.2.imp_left fun hm => ⟨hm.1, hquiet hm.2⟩⟩

theorem waiting_of_blocked (h : Rousable x member n quiet w)
    (hb : n.blocked = true) : n.ucNotifyState = .waiting := by
  cases w with
  | asleep => exact h.1 hb
  | away | back => exact absurd hb (Bool.eq_false_iff.mp h.2)
  | asked => exact absurd hb (Bool.eq_false_iff.mp h.1)

theorem member_eq (h : Rousable x member n quiet w) {y : TaskHandle}
    (hy : member = some y) : y = x := by
  subst hy
  cases w with
  | away => cases h.1
  | asked | asleep =>
      rcases h.2 with hm | hm
      · exact Option.some.inj hm.1
      · cases hm.1
  | back =>
      rcases h.1 with hm | hm
      · exact Option.some.inj hm
      · cases hm

/-- The other side has looked and notifies. -/
theorem notified (h : Rousable x member n quiet w) (ulValue : BitVec 32)
    (eAction : NotifyAction) :
    Rousable x none (n.xTaskGenericNotify ulValue eAction).2 quiet' w := by
  have hready := Notification.not_blocked_of_notify h.waiting_of_blocked
    ulValue eAction
  cases w with
  | away => exact ⟨rfl, hready⟩
  | asked => exact ⟨hready, Or.inr ⟨rfl, rfl⟩⟩
  | asleep =>
      exact ⟨fun hb => absurd hb (Bool.eq_false_iff.mp hready),
        Or.inr ⟨rfl, hready⟩⟩
  | back => exact ⟨Or.inr rfl, hready⟩

/-- Anybody else notifies. -/
theorem disturbed (h : Rousable x member n quiet w) (ulValue : BitVec 32)
    (eAction : NotifyAction) :
    Rousable x member (n.xTaskGenericNotify ulValue eAction).2 quiet w := by
  have hready := Notification.not_blocked_of_notify h.waiting_of_blocked
    ulValue eAction
  cases w with
  | away => exact ⟨h.1, hready⟩
  | asked => exact ⟨hready, h.2.imp_right fun hm => ⟨hm.1, rfl⟩⟩
  | asleep =>
      exact ⟨fun hb => absurd hb (Bool.eq_false_iff.mp hready),
        h.2.imp_right fun hm => ⟨hm.1, hready⟩⟩
  | back => exact ⟨h.1, hready⟩

theorem timeout (h : Rousable x member n quiet w) :
    Rousable x member { n with blocked := false } quiet w := by
  cases w with
  | away => exact ⟨h.1, rfl⟩
  | asked => exact ⟨rfl, h.2⟩
  | asleep =>
      exact ⟨fun hb => absurd hb Bool.false_ne_true,
        h.2.imp_right fun hm => ⟨hm.1, rfl⟩⟩
  | back => exact ⟨h.1, rfl⟩

/-- Nobody has asked. -/
theorem of_none (h : Rousable x none n quiet w) : Rousable x none n quiet' w := by
  cases w with
  | away | back => exact h
  | asked | asleep => exact ⟨h.1, h.2.imp_left fun hm => by cases hm.1⟩

/-- There is nothing, and the side asks to be notified. -/
theorem ask (h : Rousable x member n quiet .away) (hquiet : quiet') :
    Rousable x (some x) n.xTaskGenericNotifyStateClear.2 quiet' .asked := by
  refine ⟨?_, Or.inl ⟨rfl, hquiet⟩⟩
  unfold Notification.xTaskGenericNotifyStateClear
  split <;> exact h.2

/-- It sleeps unless it has been notified. -/
theorem sleep (h : Rousable x member n quiet .asked)
    (ulBitsToClearOnEntry : BitVec 32) :
    Rousable x member (n.waitEntry ulBitsToClearOnEntry true) quiet
      .asleep := by
  unfold Notification.waitEntry
  split
  · next hstate =>
      exact ⟨fun _ => rfl, h.2.imp_right fun hm => absurd hm.2 hstate⟩
  · exact ⟨fun hb => absurd hb (Bool.eq_false_iff.mp h.1),
      h.2.imp_right fun hm => ⟨hm.1, h.1⟩⟩

theorem wake (h : Rousable x member n quiet .asleep)
    (hready : n.blocked = false) (ulBitsToClearOnExit : BitVec 32) :
    Rousable x member (n.waitExit ulBitsToClearOnExit).2 quiet .back := by
  refine ⟨h.2.imp (fun hm => hm.1) fun hm => hm.1, ?_⟩
  unfold Notification.waitExit
  split <;> exact hready

theorem clear (h : Rousable x member n quiet .back) :
    Rousable x none n quiet' .away := ⟨rfl, h.2⟩

end Rousable

theorem Rousable.ready_of_none {x : TaskHandle} {n : Notification} {quiet : Prop}
    {w : Waiting} (h : Rousable x none n quiet w) : n.blocked = false := by
  cases w with
  | away | back => exact h.2
  | asked => exact h.1
  | asleep => exact (h.2.resolve_left fun hm => by cases hm.1).2

theorem Rousable.asks {x : TaskHandle} {member : Option TaskHandle}
    {n : Notification} {quiet : Prop} (h : Rousable x member n quiet .asleep)
    (hb : n.blocked = true) : member = some x ∧ quiet :=
  h.2.resolve_right fun hm => absurd hb (Bool.eq_false_iff.mp hm.2)

namespace StreamSystem

variable {s s' : StreamSystem} {es es' : List StreamEvent}
  {writer reader : TaskHandle}

/-- The sender has no space yet, or the receiver has not looked yet. -/
def SenderQuiet (s : StreamSystem) : Prop :=
  (∀ pvTxData xRequiredSpace xSpace,
    s.sender = .wait pvTxData xRequiredSpace xSpace ∨
    s.sender = .asleep pvTxData xRequiredSpace xSpace →
      s.buffer.xStreamBufferSpacesAvailable < xRequiredSpace) ∨
  s.receiver = .completed

/-- There are not enough bytes to wake the receiver, or the sender has not
looked yet. -/
def ReceiverQuiet (s : StreamSystem) : Prop :=
  s.buffer.prvBytesInBuffer < s.buffer.xTriggerLevelBytes ∨
  s.sender = .completed ∨ s.sender = .notifying

structure Roused (writer reader : TaskHandle) (s : StreamSystem) : Prop where
  trigger : 1 ≤ s.buffer.xTriggerLevelBytes
  sender : Rousable writer s.buffer.xTaskWaitingToSend (s.notification writer)
    s.SenderQuiet s.sender.waiting
  receiver : Rousable reader s.buffer.xTaskWaitingToReceive
    (s.notification reader) s.ReceiverQuiet s.receiver.waiting

theorem notification_setNotification (s : StreamSystem) (x : TaskHandle)
    (n : Notification) : (s.setNotification x n).notification x = n :=
  Function.update_self ..

theorem notification_stateClear (s : StreamSystem) (x : TaskHandle) :
    (s.stateClear x).notification x =
      (s.notification x).xTaskGenericNotifyStateClear.2 :=
  Function.update_self ..

theorem ReceiverQuiet.few (h : s.ReceiverQuiet) {p : SendPhase}
    (hphase : s.sender = p) (hp : p ≠ .completed ∧ p ≠ .notifying) :
    s.buffer.prvBytesInBuffer < s.buffer.xTriggerLevelBytes := by
  subst hphase
  exact h.resolve_right fun hc => hc.elim hp.1 hp.2

theorem SenderQuiet.little (h : s.SenderQuiet) {q : ReceivePhase}
    (hphase : s.receiver = q) (hq : q ≠ .completed)
    {pvTxData : List UInt8} {xRequiredSpace xSpace : Nat}
    (hsender : s.sender = .wait pvTxData xRequiredSpace xSpace ∨
      s.sender = .asleep pvTxData xRequiredSpace xSpace) :
    s.buffer.xStreamBufferSpacesAvailable < xRequiredSpace := by
  subst hphase
  exact h.resolve_right hq _ _ _ hsender

/-- A message buffer that does not hold a whole message is empty. -/
theorem Carries.empty {isMessageBuffer : Bool} {xLength : Nat}
    {pending : List (List UInt8)}
    (h : Carries isMessageBuffer xLength es pending s)
    (hle : s.buffer.prvBytesInBuffer ≤ s.buffer.xBytesToStoreMessageLength) :
    s.buffer.prvBytesInBuffer = 0 := by
  rw [xBytesToStoreMessageLength, h.kind] at hle
  cases isMessageBuffer with
  | false => exact Nat.le_zero.mp hle
  | true =>
      rw [if_pos rfl] at hle
      have hbytes := congrArg List.length h.content
      rw [length_content] at hbytes
      cases pending with
      | nil => exact hbytes
      | cons m pending =>
          have hpos := List.length_pos_iff.mpr
            (h.messages rfl m List.mem_cons_self)
          have hfront : (bytesOf true (m :: pending)).length =
            (stored true m).length + (bytesOf true pending).length :=
              List.length_append
          rw [hfront, length_stored_true] at hbytes
          omega

namespace Roused

variable (h : Roused writer reader s)

include h

/-- The sender goes from one step to the next away from its waiting. -/
theorem sends {p : SendPhase} (hfrom : s.sender.waiting = .away)
    (hto : p.waiting = .away) {b : StreamBuffer}
    (hb : b.xTaskWaitingToReceive = s.buffer.xTaskWaitingToReceive ∧
      b.xTaskWaitingToSend = s.buffer.xTaskWaitingToSend ∧
      b.xTriggerLevelBytes = s.buffer.xTriggerLevelBytes)
    (hquiet : s.ReceiverQuiet →
      ReceiverQuiet ⟨b, p, s.receiver, s.notification⟩) :
    Roused writer reader ⟨b, p, s.receiver, s.notification⟩ := by
  obtain ⟨hreceive, hsend, htrigger⟩ := hb
  have hs := h.sender
  rw [hfrom] at hs
  refine ⟨htrigger ▸ h.trigger, ?_, ?_⟩
  · show Rousable writer b.xTaskWaitingToSend _ _ p.waiting
    rw [hto, hsend]
    exact hs
  · show Rousable reader b.xTaskWaitingToReceive _ _ _
    rw [hreceive]
    exact h.receiver.mono hquiet

/-- The same for the receiver. -/
theorem receives {q : ReceivePhase} (hfrom : s.receiver.waiting = .away)
    (hto : q.waiting = .away) {b : StreamBuffer}
    (hb : b.xTaskWaitingToReceive = s.buffer.xTaskWaitingToReceive ∧
      b.xTaskWaitingToSend = s.buffer.xTaskWaitingToSend ∧
      b.xTriggerLevelBytes = s.buffer.xTriggerLevelBytes)
    (hquiet : s.SenderQuiet → SenderQuiet ⟨b, s.sender, q, s.notification⟩) :
    Roused writer reader ⟨b, s.sender, q, s.notification⟩ := by
  obtain ⟨hreceive, hsend, htrigger⟩ := hb
  have hr := h.receiver
  rw [hfrom] at hr
  refine ⟨htrigger ▸ h.trigger, ?_, ?_⟩
  · show Rousable writer b.xTaskWaitingToSend _ _ _
    rw [hsend]
    exact h.sender.mono hquiet
  · show Rousable reader b.xTaskWaitingToReceive _ _ q.waiting
    rw [hto, hreceive]
    exact hr

/-- The sender goes on with its waiting. -/
theorem senderWaits {p : SendPhase} {b : StreamBuffer}
    {n : TaskHandle → Notification} (hn : n reader = s.notification reader)
    (hb : b.xTaskWaitingToReceive = s.buffer.xTaskWaitingToReceive ∧
      b.prvBytesInBuffer = s.buffer.prvBytesInBuffer ∧
      b.xTriggerLevelBytes = s.buffer.xTriggerLevelBytes)
    (hphase : s.sender ≠ .completed ∧ s.sender ≠ .notifying)
    (hs : Rousable writer b.xTaskWaitingToSend (n writer)
      (SenderQuiet ⟨b, p, s.receiver, n⟩) p.waiting) :
    Roused writer reader ⟨b, p, s.receiver, n⟩ := by
  obtain ⟨hreceive, hbytes, htrigger⟩ := hb
  refine ⟨htrigger ▸ h.trigger, hs, ?_⟩
  show Rousable reader b.xTaskWaitingToReceive (n reader) _ _
  rw [hreceive, hn]
  refine h.receiver.mono fun hq => Or.inl ?_
  show b.prvBytesInBuffer < b.xTriggerLevelBytes
  rw [hbytes, htrigger]
  exact hq.few rfl hphase

theorem receiverWaits {q : ReceivePhase} {b : StreamBuffer}
    {n : TaskHandle → Notification} (hn : n writer = s.notification writer)
    (hb : b.xTaskWaitingToSend = s.buffer.xTaskWaitingToSend ∧
      b.xStreamBufferSpacesAvailable = s.buffer.xStreamBufferSpacesAvailable ∧
      b.xTriggerLevelBytes = s.buffer.xTriggerLevelBytes)
    (hphase : s.receiver ≠ .completed)
    (hr : Rousable reader b.xTaskWaitingToReceive (n reader)
      (ReceiverQuiet ⟨b, s.sender, q, n⟩) q.waiting) :
    Roused writer reader ⟨b, s.sender, q, n⟩ := by
  obtain ⟨hsend, hspaces, htrigger⟩ := hb
  refine ⟨htrigger ▸ h.trigger, ?_, hr⟩
  show Rousable writer b.xTaskWaitingToSend (n writer) _ _
  rw [hsend, hn]
  refine h.sender.mono fun hq => Or.inl fun _ _ _ hsender => ?_
  show b.xStreamBufferSpacesAvailable < _
  rw [hspaces]
  exact hq.little rfl hphase hsender

theorem setNotification {x : TaskHandle} {n : Notification}
    (hwriter : x = writer → Rousable writer s.buffer.xTaskWaitingToSend n
      s.SenderQuiet s.sender.waiting)
    (hreader : x = reader → Rousable reader s.buffer.xTaskWaitingToReceive n
      s.ReceiverQuiet s.receiver.waiting) :
    Roused writer reader (s.setNotification x n) := by
  refine ⟨h.trigger, ?_, ?_⟩
  · show Rousable writer _ (Function.update s.notification x n writer) _ _
    by_cases hx : x = writer
    · subst hx
      rw [Function.update_self]
      exact hwriter rfl
    · rw [Function.update_of_ne (Ne.symm hx)]
      exact h.sender
  · show Rousable reader _ (Function.update s.notification x n reader) _ _
    by_cases hx : x = reader
    · subst hx
      rw [Function.update_self]
      exact hreader rfl
    · rw [Function.update_of_ne (Ne.symm hx)]
      exact h.receiver

theorem step {isMessageBuffer : Bool} {xLength : Nat}
    {pending : List (List UInt8)} (hne : writer ≠ reader)
    (hcarries : Carries isMessageBuffer xLength es pending s)
    (hstep : Step writer reader s es' s') : Roused writer reader s' := by
  have hs := h.sender
  have hr := h.receiver
  cases hstep with
  | send hphase hspace =>
      refine h.sends (by rw [hphase]; rfl) ?_ ⟨rfl, rfl, rfl⟩ fun hq =>
        Or.inl (hq.few hphase (by simp))
      split <;> rfl
  | sendFromISR hphase hlen =>
      exact h.sends (by rw [hphase]; rfl) rfl ⟨rfl, rfl, rfl⟩ fun hq =>
        Or.inl (hq.few hphase (by simp))
  | sendCheck hphase hspace =>
      exact h.sends (by rw [hphase]; rfl) rfl ⟨rfl, rfl, rfl⟩ fun hq =>
        Or.inl (hq.few hphase (by simp))
  | sendWait hphase hspace hassert =>
      rw [hphase] at hs
      refine h.senderWaits (Function.update_of_ne hne.symm ..) ⟨rfl, rfl, rfl⟩
        (by simp [hphase]) ?_
      rw [notification_stateClear]
      refine hs.ask (Or.inl ?_)
      rintro _ _ _ (heq | heq) <;> cases heq
      exact hspace
  | sendSleep hphase =>
      rw [hphase] at hs
      refine h.senderWaits (Function.update_of_ne hne.symm ..) ⟨rfl, rfl, rfl⟩
        (by simp [hphase]) ?_
      rw [notification_setNotification]
      refine (hs.sleep 0).mono fun hq => hq.imp_left fun hlittle => ?_
      rintro _ _ _ (heq | heq) <;> cases heq
      exact hlittle _ _ _ (Or.inl hphase)
  | sendWake hphase hready =>
      rw [hphase] at hs
      refine h.senderWaits (Function.update_of_ne hne.symm ..) ⟨rfl, rfl, rfl⟩
        (by simp [hphase]) ?_
      rw [notification_setNotification]
      exact hs.wake hready 0
  | sendClear hphase =>
      rw [hphase] at hs
      exact h.senderWaits rfl ⟨rfl, rfl, rfl⟩ (by simp [hphase]) hs.clear
  | sendAgain hphase =>
      exact h.sends (by rw [hphase]; rfl) rfl ⟨rfl, rfl, rfl⟩ fun hq =>
        Or.inl (hq.few hphase (by simp))
  | sendTimeUp hphase =>
      exact h.sends (by rw [hphase]; rfl) rfl ⟨rfl, rfl, rfl⟩ fun hq =>
        Or.inl (hq.few hphase (by simp))
  | sendLook hphase =>
      exact h.sends (by rw [hphase]; rfl) rfl ⟨rfl, rfl, rfl⟩ fun hq =>
        Or.inl (hq.few hphase (by simp))
  | sendCopy hphase hcopy =>
      refine h.sends (by rw [hphase]; rfl) ?_ ⟨rfl, rfl, rfl⟩ fun hq =>
        Or.inl (hq.few hphase (by simp))
      split <;> rfl
  | sendPublish hphase =>
      exact h.sends (by rw [hphase]; rfl) rfl ⟨rfl, rfl, rfl⟩ fun _ =>
        Or.inr (Or.inl rfl)
  | sendTrigger hphase =>
      refine h.sends (by rw [hphase]; rfl) ?_ ⟨rfl, rfl, rfl⟩ fun _ => ?_
      · split <;> rfl
      · by_cases htrigger :
          s.buffer.prvBytesInBuffer ≥ s.buffer.xTriggerLevelBytes
        · rw [if_pos htrigger]
          exact Or.inr (Or.inr rfl)
        · exact Or.inl (Nat.lt_of_not_le htrigger)
  | sendNotify hphase =>
      rw [hphase] at hs
      unfold sendCompleted
      split
      · next x hx =>
          obtain rfl := hr.member_eq hx
          refine ⟨h.trigger, ?_, ?_⟩
          · show Rousable writer _ (Function.update s.notification x _ writer)
              _ _
            rw [Function.update_of_ne hne]
            exact hs
          · show Rousable x none (Function.update s.notification x _ x) _ _
            rw [Function.update_self]
            exact hr.notified 0 .noAction
      · next hx =>
          rw [hx] at hr
          refine ⟨h.trigger, hs, ?_⟩
          show Rousable reader s.buffer.xTaskWaitingToReceive _ _ _
          rw [hx]
          exact hr.of_none
  | receive hphase =>
      refine h.receives (by rw [hphase]; rfl) ?_ ⟨rfl, rfl, rfl⟩ fun hq =>
        Or.inl fun _ _ _ hsender => hq.little hphase (by simp) hsender
      split <;> rfl
  | receiveCheck hphase hbytes =>
      exact h.receives (by rw [hphase]; rfl) rfl ⟨rfl, rfl, rfl⟩ fun hq =>
        Or.inl fun _ _ _ hsender => hq.little hphase (by simp) hsender
  | receiveWait hphase hbytes hassert =>
      rw [hphase] at hr
      refine h.receiverWaits (Function.update_of_ne hne ..) ⟨rfl, rfl, rfl⟩
        (by simp [hphase]) ?_
      rw [notification_stateClear]
      refine hr.ask (Or.inl ?_)
      show s.buffer.prvBytesInBuffer < s.buffer.xTriggerLevelBytes
      rw [hcarries.empty hbytes]
      exact h.trigger
  | receiveSleep hphase =>
      rw [hphase] at hr
      refine h.receiverWaits (Function.update_of_ne hne ..) ⟨rfl, rfl, rfl⟩
        (by simp [hphase]) ?_
      rw [notification_setNotification]
      exact hr.sleep 0
  | receiveWake hphase hready =>
      rw [hphase] at hr
      refine h.receiverWaits (Function.update_of_ne hne ..) ⟨rfl, rfl, rfl⟩
        (by simp [hphase]) ?_
      rw [notification_setNotification]
      exact hr.wake hready 0
  | receiveClear hphase =>
      rw [hphase] at hr
      exact h.receiverWaits rfl ⟨rfl, rfl, rfl⟩ (by simp [hphase]) hr.clear
  | receiveLook hphase =>
      exact h.receives (by rw [hphase]; rfl) rfl ⟨rfl, rfl, rfl⟩ fun hq =>
        Or.inl fun _ _ _ hsender => hq.little hphase (by simp) hsender
  | receiveNothing hphase hbytes =>
      exact h.receives (by rw [hphase]; rfl) rfl ⟨rfl, rfl, rfl⟩ fun hq =>
        Or.inl fun _ _ _ hsender => hq.little hphase (by simp) hsender
  | receiveCopy hphase hbytes hcopy =>
      refine h.receives (by rw [hphase]; rfl) ?_ ⟨rfl, rfl, rfl⟩ fun hq =>
        Or.inl fun _ _ _ hsender => hq.little hphase (by simp) hsender
      split <;> rfl
  | receivePublish hphase =>
      exact h.receives (by rw [hphase]; rfl) rfl ⟨rfl, rfl, rfl⟩ fun _ =>
        Or.inr rfl
  | receiveComplete hphase =>
      rw [hphase] at hr
      unfold receiveCompleted
      split
      · next x hx =>
          obtain rfl := hs.member_eq hx
          refine ⟨h.trigger, ?_, ?_⟩
          · show Rousable x none (Function.update s.notification x _ x) _ _
            rw [Function.update_self]
            exact hs.notified 0 .noAction
          · show Rousable reader _ (Function.update s.notification x _ reader)
              _ _
            rw [Function.update_of_ne hne.symm]
            exact hr
      · next hx =>
          rw [hx] at hs
          refine ⟨h.trigger, ?_, hr⟩
          show Rousable writer s.buffer.xTaskWaitingToSend _ _ _
          rw [hx]
          exact hs.of_none
  | timeout hblocked =>
      exact h.setNotification (fun hx => hx ▸ hs.timeout)
        fun hx => hx ▸ hr.timeout
  | notify =>
      exact h.setNotification (fun hx => hx ▸ hs.disturbed _ _)
        fun hx => hx ▸ hr.disturbed _ _

end Roused

/-- Whoever has been asked to notify leaves nobody blocked. -/
theorem Roused.ready (h : Roused writer reader s) :
    (s.sendCompleted.notification reader).blocked = false ∧
      (s.receiveCompleted.notification writer).blocked = false := by
  have hs := h.sender
  have hr := h.receiver
  constructor
  · unfold sendCompleted
    split
    · next x hx =>
        obtain rfl := hr.member_eq hx
        show (Function.update s.notification x _ x).blocked = false
        rw [Function.update_self]
        exact Notification.not_blocked_of_notify hr.waiting_of_blocked _ _
    · next hx =>
        rw [hx] at hr
        exact hr.ready_of_none
  · unfold receiveCompleted
    split
    · next x hx =>
        obtain rfl := hs.member_eq hx
        show (Function.update s.notification x _ x).blocked = false
        rw [Function.update_self]
        exact Notification.not_blocked_of_notify hs.waiting_of_blocked _ _
    · next hx =>
        rw [hx] at hs
        exact hs.ready_of_none

theorem roused_start {sizeOfBuffer xBufferSizeBytes xTriggerLevelBytes : Nat}
    {isMessageBuffer : Bool} {pucBuffer : Nat → UInt8} {b : StreamBuffer}
    {n : TaskHandle → Notification}
    (hcreate : xStreamBufferGenericCreate sizeOfBuffer xBufferSizeBytes
      xTriggerLevelBytes isMessageBuffer pucBuffer = some b)
    (hn : ∀ x, (n x).blocked = false) : Roused writer reader (start b n) := by
  simp only [xStreamBufferGenericCreate,
    Option.ite_none_right_eq_some] at hcreate
  obtain ⟨-, -, heq⟩ := hcreate
  obtain rfl := Option.some.inj heq
  refine ⟨?_, ⟨rfl, hn writer⟩, ⟨rfl, hn reader⟩⟩
  show 1 ≤ if xTriggerLevelBytes = 0 then 1 else xTriggerLevelBytes
  split <;> omega

theorem Runs.roused {isMessageBuffer : Bool} {xLength : Nat}
    {s₀ : StreamSystem} (hne : writer ≠ reader) (hsmall : xLength ≤ 2 ^ 64)
    (hcarries : Carries isMessageBuffer xLength [] [] s₀)
    (h₀ : Roused writer reader s₀) (hrun : Runs writer reader s₀ es s) :
    Roused writer reader s := by
  induction hrun with
  | refl => exact h₀
  | step hprev hstep ih =>
      obtain ⟨pending, h⟩ := hprev.carries hsmall hcarries
      exact ih.step hne h hstep

end StreamSystem

open StreamSystem in
/-- Whatever a sender and a receiver do at a stream buffer or a message buffer,
in whatever order their steps come: neither is ever found waiting where it
asks to be notified; a receiver that sleeps has asked, and there are less
bytes than it takes to wake it or the sender is about to look who has asked; a
sender that sleeps has asked, and there is less space than it needs or the
receiver is about to look; and once the other side has looked, neither
sleeps. -/
theorem stream_wakeup {sizeOfBuffer xBufferSizeBytes xTriggerLevelBytes : Nat}
    {isMessageBuffer : Bool} {pucBuffer : Nat → UInt8} {b : StreamBuffer}
    {writer reader : TaskHandle} {notification : TaskHandle → Notification}
    {es : List StreamEvent} {s : StreamSystem}
    (hcreate : xStreamBufferGenericCreate sizeOfBuffer xBufferSizeBytes
      xTriggerLevelBytes isMessageBuffer pucBuffer = some b)
    (hready : ∀ x, (notification x).blocked = false) (hne : writer ≠ reader)
    (hrun : Runs writer reader (start b notification) es s) :
    ((∀ l, s.receiver = .check l → s.buffer.xTaskWaitingToReceive = none) ∧
      ∀ d r, s.sender = .check d r → s.buffer.xTaskWaitingToSend = none) ∧
    (∀ l, s.receiver = .asleep l → (s.notification reader).blocked = true →
      s.buffer.xTaskWaitingToReceive = some reader ∧
      (s.buffer.prvBytesInBuffer < s.buffer.xTriggerLevelBytes ∨
        s.sender = .completed ∨ s.sender = .notifying)) ∧
    (∀ d r a, s.sender = .asleep d r a → (s.notification writer).blocked = true →
      s.buffer.xTaskWaitingToSend = some writer ∧
      (s.buffer.xStreamBufferSpacesAvailable < r ∨ s.receiver = .completed)) ∧
    (s.sendCompleted.notification reader).blocked = false ∧
    (s.receiveCompleted.notification writer).blocked = false := by
  obtain ⟨hsmall, hcarries⟩ := carries_start hcreate notification
  have h := hrun.roused hne hsmall hcarries (roused_start hcreate hready)
  have hs := h.sender
  have hr := h.receiver
  refine ⟨⟨fun l hphase => ?_, fun d r hphase => ?_⟩, fun l hphase hb => ?_,
    fun d r a hphase hb => ?_, h.ready⟩
  · rw [hphase] at hr
    exact hr.1
  · rw [hphase] at hs
    exact hs.1
  · rw [hphase] at hr
    exact hr.asks hb
  · rw [hphase] at hs
    obtain ⟨hmember, hquiet⟩ := hs.asks hb
    exact ⟨hmember, hquiet.imp_left fun hlittle =>
      hlittle d r a (Or.inr hphase)⟩

open StreamSystem in
/-- A receiver sleeps at an empty buffer whose trigger level is 2, and an
interrupt sends one byte. -/
theorem stream_wakeup_trigger :
    ∃ s : StreamSystem, (s.notification 1).blocked = true ∧
      s.buffer.xTaskWaitingToReceive = some 1 ∧
      (s.buffer.prvBytesInBuffer < s.buffer.xTriggerLevelBytes ∨
        s.sender = .completed ∨ s.sender = .notifying) := by
  have hrun : ∃ s : StreamSystem, s.receiver = .asleep 4 ∧
      (s.notification 1).blocked = true ∧
      Runs 0 1 (start (prvInitialiseNewStreamBuffer (fun _ => 0) 5 2 false)
          fun _ => .initial)
        ([] ++ [] ++ [] ++ [] ++ [] ++ [] ++ [.sent [9]]) s := by
    refine ⟨_, ?_, ?_, .step (.step (.step (.step (.step (.step (.step .refl
      (@Step.receive 0 1 _ 4 true rfl))
      (@Step.receiveWait 0 1 _ 4 rfl (by decide) rfl))
      (@Step.receiveSleep 0 1 _ 4 rfl))
      (@Step.sendFromISR 0 1 _ [9] rfl (by decide)))
      (@Step.sendLook 0 1 _ [9] 1 0 rfl))
      (@Step.sendCopy 0 1 _ [9] [9] 1 4 1 _ rfl rfl))
      (@Step.sendPublish 0 1 _ [9] 1 rfl)⟩
    · rfl
    · rfl
  obtain ⟨s, hasleep, hblocked, hrun⟩ := hrun
  obtain ⟨-, hreceiver, -⟩ := @stream_wakeup 0 4 2 false (fun _ => 0) _ 0 1 _ _ _
    rfl (fun _ => rfl) (by decide) hrun
  exact ⟨s, hblocked, hreceiver 4 hasleep hblocked⟩

end FreeRtosSim
