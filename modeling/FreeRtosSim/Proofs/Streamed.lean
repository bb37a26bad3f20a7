import FreeRtosSim.Kernel.Streaming
import FreeRtosSim.Proofs.Stored

/-!
# What a stream buffer carries

The sender writes where the receiver does not read, and each side moves its
position last, so neither ever sees a piece of work half done: the content of
the buffer is always what was sent and not yet received. The units of a stream
are its bytes, those of a message buffer its messages; what the receiver has
seen of the buffer is a whole number of units from the front, whatever the
sender does meanwhile.
-/

namespace FreeRtosSim

open StreamBuffer

/-- What is carried whole. -/
def unitsOf (isMessageBuffer : Bool) (payload : List UInt8) :
    List (List UInt8) :=
  if isMessageBuffer then [payload] else payload.map fun c => [c]

/-- The bytes of some units in the buffer. -/
def bytesOf (isMessageBuffer : Bool) (units : List (List UInt8)) :
    List UInt8 :=
  units.flatMap (stored isMessageBuffer)

theorem bytesOf_append (isMessageBuffer : Bool) (us vs : List (List UInt8)) :
    bytesOf isMessageBuffer (us ++ vs) =
      bytesOf isMessageBuffer us ++ bytesOf isMessageBuffer vs :=
  List.flatMap_append

theorem bytesOf_unitsOf (isMessageBuffer : Bool) (payload : List UInt8) :
    bytesOf isMessageBuffer (unitsOf isMessageBuffer payload) =
      stored isMessageBuffer payload := by
  cases isMessageBuffer with
  | true => exact List.append_nil _
  | false =>
      show (payload.map fun c => [c]).flatMap (stored false) = payload
      induction payload with
      | nil => rfl
      | cons c payload ih =>
          rw [List.map_cons, List.flatMap_cons, ih]
          rfl

theorem unitsOf_append (us vs : List UInt8) :
    unitsOf false (us ++ vs) = unitsOf false us ++ unitsOf false vs :=
  List.map_append

namespace StreamEvent

def sentUnits (isMessageBuffer : Bool) : StreamEvent → List (List UInt8)
  | .sent payload => unitsOf isMessageBuffer payload
  | .received _ => []

def receivedUnits (isMessageBuffer : Bool) : StreamEvent → List (List UInt8)
  | .sent _ => []
  | .received payload => unitsOf isMessageBuffer payload

end StreamEvent

namespace StreamBuffer

/-- The space a message needs. -/
def Needs (b : StreamBuffer) (pvTxData : List UInt8) (xRequiredSpace : Nat) :
    Prop :=
  b.isMessageBuffer = true →
    xRequiredSpace = pvTxData.length + sbBytesToStoreMessageLength

/-- What the sender knows is so: there is at least the space it has seen, and
what it is about to publish is in its place. -/
def SenderReady (b : StreamBuffer) : SendPhase → Prop
  | .check pvTxData xRequiredSpace => b.Needs pvTxData xRequiredSpace
  | .wait pvTxData xRequiredSpace xSpace
  | .asleep pvTxData xRequiredSpace xSpace
  | .woken pvTxData xRequiredSpace xSpace
  | .retry pvTxData xRequiredSpace xSpace
  | .look pvTxData xRequiredSpace xSpace
  | .copy pvTxData xRequiredSpace xSpace =>
      b.Needs pvTxData xRequiredSpace ∧ xSpace ≤ b.xStreamBufferSpacesAvailable
  | .publish payload xNextHead =>
      payload ≠ [] ∧
      ∃ k, k = b.prvBytesInBuffer + (stored b.isMessageBuffer payload).length ∧
        k < b.xLength ∧ xNextHead = (b.xTail + k) % b.xLength ∧
        window b.pucBuffer b.xLength b.xTail k =
          b.content ++ stored b.isMessageBuffer payload
  | .idle | .completed | .notifying => True

/-- What the receiver knows is so: what it has seen are the first units there
are, and so is what it has copied. -/
def ReceiverReady (b : StreamBuffer) (pending : List (List UInt8)) :
    ReceivePhase → Prop
  | .decide _ xBytesAvailable => ∃ us vs, pending = us ++ vs ∧
      xBytesAvailable = (bytesOf b.isMessageBuffer us).length
  | .publish payload xNextTail => payload ≠ [] ∧
      ∃ vs, pending = unitsOf b.isMessageBuffer payload ++ vs ∧
        xNextTail = (b.xTail + (stored b.isMessageBuffer payload).length) %
          b.xLength
  | _ => True

/-- Nothing but who waits has changed. -/
def SameBytes (b b' : StreamBuffer) : Prop :=
  ∃ x y, b' = { b with xTaskWaitingToReceive := x, xTaskWaitingToSend := y }

end StreamBuffer

namespace StreamBuffer

/-- The receiver has made room by taking `c` bytes. -/
theorem SenderReady.taken {b : StreamBuffer} {p : SendPhase}
    (h : b.SenderReady p) (hsound : b.Sound) {c : Nat}
    (hc : c ≤ b.prvBytesInBuffer) :
    SenderReady { b with xTail := (b.xTail + c) % b.xLength } p := by
  have hlt := hsound.bytes_lt
  have hpos := Nat.zero_lt_of_lt hsound.tail_lt
  have hbytes := hsound.bytes_of_tail hc
  have hsound' : Sound { b with xTail := (b.xTail + c) % b.xLength } :=
    ⟨Nat.mod_lt _ hpos, hsound.head_lt⟩
  have hspaces : b.xStreamBufferSpacesAvailable ≤
      xStreamBufferSpacesAvailable
        { b with xTail := (b.xTail + c) % b.xLength } := by
    rw [hsound.spaces_eq, hsound'.spaces_eq, hbytes]
    show _ ≤ b.xLength - 1 - _
    omega
  cases p with
  | wait | asleep | woken | retry | look | copy =>
      exact ⟨h.1, Nat.le_trans h.2 hspaces⟩
  | publish payload xNextHead =>
      obtain ⟨hne, k, rfl, hk, hnext, hwindow⟩ := h
      refine ⟨hne, _, rfl, ?_, ?_, ?_⟩
      · show _ + (stored b.isMessageBuffer payload).length < b.xLength
        rw [hbytes]
        omega
      · show _ = ((b.xTail + c) % b.xLength + (_ +
          (stored b.isMessageBuffer payload).length)) % b.xLength
        rw [hnext, hbytes, Nat.mod_add_mod]
        congr 1
        omega
      · have hdrop : (window b.pucBuffer b.xLength b.xTail
            (b.prvBytesInBuffer + (stored b.isMessageBuffer payload).length)).drop
              c = _ := drop_window (Nat.le_trans hc (Nat.le_add_right _ _))
        rw [hwindow, List.drop_append_of_le_length (by
          rw [length_content]
          exact hc), ← hsound.content_of_tail hc, ← window_mod] at hdrop
        rw [hdrop, hbytes]
        congr 1
        show b.prvBytesInBuffer - c + (stored b.isMessageBuffer payload).length =
          b.prvBytesInBuffer + (stored b.isMessageBuffer payload).length - c
        omega
  | _ => exact h

theorem needs_requiredSpace {b : StreamBuffer} {pvTxData : List UInt8}
    {mayBlock mayWait : Bool} {xRequiredSpace : Nat}
    (h : b.requiredSpace pvTxData.length mayBlock =
      some (xRequiredSpace, mayWait)) : b.Needs pvTxData xRequiredSpace := by
  intro hmsg
  simp only [requiredSpace, hmsg, if_true] at h
  split at h
  · next hfits =>
      obtain ⟨rfl, -⟩ := Prod.mk.inj (Option.some.inj h)
      have hmod := Nat.mod_le
        (pvTxData.length + sbBytesToStoreMessageLength) (2 ^ 64)
      by_cases hlt : pvTxData.length + sbBytesToStoreMessageLength < 2 ^ 64
      · exact Nat.mod_eq_of_lt hlt
      · have hlow := Nat.mod_lt
          (pvTxData.length + sbBytesToStoreMessageLength)
          (show 0 < 2 ^ 64 by decide)
        unfold sbBytesToStoreMessageLength at *
        omega
  · cases h

theorem needs_requiredSpaceFromISR {b : StreamBuffer} {pvTxData : List UInt8}
    (hlen : pvTxData.length + sbBytesToStoreMessageLength < 2 ^ 64) :
    b.Needs pvTxData (b.requiredSpaceFromISR pvTxData.length) := by
  intro hmsg
  rw [requiredSpaceFromISR, hmsg, if_pos rfl, Nat.mod_eq_of_lt hlen]

end StreamBuffer

namespace StreamSystem

variable {isMessageBuffer : Bool} {xLength : Nat} {es es' : List StreamEvent}
  {pending : List (List UInt8)} {s s' : StreamSystem} {writer reader : TaskHandle}

/-- The buffer holds the units that are pending, and they are what was sent
and not yet received. -/
structure Carries (isMessageBuffer : Bool) (xLength : Nat)
    (es : List StreamEvent) (pending : List (List UInt8)) (s : StreamSystem) :
    Prop where
  sound : s.buffer.Sound
  kind : s.buffer.isMessageBuffer = isMessageBuffer
  length : s.buffer.xLength = xLength
  content : s.buffer.content = bytesOf isMessageBuffer pending
  bytes : isMessageBuffer = false → pending = unitsOf false s.buffer.content
  messages : isMessageBuffer = true → ∀ m ∈ pending, m ≠ []
  units : es.flatMap (StreamEvent.sentUnits isMessageBuffer) =
    es.flatMap (StreamEvent.receivedUnits isMessageBuffer) ++ pending
  sender : s.buffer.SenderReady s.sender
  receiver : s.buffer.ReceiverReady pending s.receiver

theorem sendCompleted_same (s : StreamSystem) :
    SameBytes s.buffer s.sendCompleted.buffer ∧
      s.sendCompleted.receiver = s.receiver := by
  unfold sendCompleted
  split <;> exact ⟨⟨_, _, rfl⟩, rfl⟩

theorem receiveCompleted_same (s : StreamSystem) :
    SameBytes s.buffer s.receiveCompleted.buffer ∧
      s.receiveCompleted.sender = s.sender := by
  unfold receiveCompleted
  split <;> exact ⟨⟨_, _, rfl⟩, rfl⟩

namespace Carries

variable (h : Carries isMessageBuffer xLength es pending s)

include h

/-- A step that leaves the bytes alone. -/
theorem quiet {b' : StreamBuffer} {p : SendPhase} {q : ReceivePhase}
    {n : TaskHandle → Notification} (hb : SameBytes s.buffer b')
    (hp : s.buffer.SenderReady p) (hq : s.buffer.ReceiverReady pending q) :
    Carries isMessageBuffer xLength (es ++ []) pending ⟨b', p, q, n⟩ := by
  obtain ⟨x, y, rfl⟩ := hb
  rw [List.append_nil]
  refine ⟨⟨h.sound.tail_lt, h.sound.head_lt⟩, h.kind, h.length, h.content,
    h.bytes, h.messages, h.units, ?_, ?_⟩
  · cases p <;> exact hp
  · cases q <;> exact hq

/-- The sender moves on. -/
theorem sends {p : SendPhase} (hp : s.buffer.SenderReady p) :
    Carries isMessageBuffer xLength (es ++ []) pending { s with sender := p } :=
  h.quiet ⟨_, _, rfl⟩ hp h.receiver

/-- The receiver moves on. -/
theorem receives {q : ReceivePhase} (hq : s.buffer.ReceiverReady pending q) :
    Carries isMessageBuffer xLength (es ++ []) pending
      { s with receiver := q } :=
  h.quiet ⟨_, _, rfl⟩ h.sender hq

/-- The sender copies: behind the content. -/
theorem copies {pvTxData payload : List UInt8}
    {xRequiredSpace xSpace xNextHead : Nat} {pucBuffer : Nat → UInt8}
    (hphase : s.sender = .copy pvTxData xRequiredSpace xSpace)
    (hcopy : s.buffer.copyMessageIn pvTxData xSpace xRequiredSpace =
      some (pucBuffer, xNextHead, payload)) :
    Carries isMessageBuffer xLength (es ++ []) pending
      { s with
        buffer := { s.buffer with pucBuffer := pucBuffer }
        sender := if payload = [] then .idle
          else .publish payload xNextHead } := by
  obtain ⟨hneeds, hspace⟩ : s.buffer.Needs pvTxData xRequiredSpace ∧
      xSpace ≤ s.buffer.xStreamBufferSpacesAvailable := by
    have hready := h.sender
    rw [hphase] at hready
    exact hready
  obtain ⟨raw, payload', xNextHead', hlen, hcopied, hwhole⟩ :=
    copyMessageIn_eq h.sound hspace hneeds
  obtain ⟨rfl, rfl, rfl⟩ : put s.buffer.pucBuffer s.buffer.xLength
        s.buffer.xHead raw = pucBuffer ∧ xNextHead' = xNextHead ∧
        payload' = payload := by
    rw [hcopied] at hcopy
    simpa using hcopy
  have hlt := h.sound.bytes_lt
  have hspaces := h.sound.spaces_eq
  have hput : put s.buffer.pucBuffer s.buffer.xLength s.buffer.xHead raw =
      put s.buffer.pucBuffer s.buffer.xLength
        (s.buffer.xTail + s.buffer.prvBytesInBuffer) raw := by
    rw [h.sound.head_eq, put_mod]
  have hwindow := window_put s.buffer.pucBuffer raw (n := s.buffer.xLength)
    (r := s.buffer.xTail) (k := s.buffer.prvBytesInBuffer) (by omega)
  rw [← hput] at hwindow
  have hcontent : StreamBuffer.content { s.buffer with
      pucBuffer := put s.buffer.pucBuffer s.buffer.xLength s.buffer.xHead raw } =
      s.buffer.content := by
    show window _ _ _ s.buffer.prvBytesInBuffer = _
    rw [← take_window (Nat.le_add_right _ raw.length), hwindow,
      List.take_left' length_window]
    rfl
  rw [List.append_nil]
  refine ⟨⟨h.sound.tail_lt, h.sound.head_lt⟩, h.kind, h.length,
    hcontent.trans h.content, fun hkind => (h.bytes hkind).trans
      (congrArg _ hcontent.symm), h.messages, h.units, ?_, ?_⟩
  · show SenderReady _ (if payload' = [] then _ else _)
    by_cases hempty : payload' = []
    · rw [if_pos hempty]
      trivial
    · obtain ⟨rfl, hnext⟩ := hwhole hempty
      rw [if_neg hempty]
      refine ⟨hempty, _, rfl, ?_, ?_, ?_⟩
      · refine Nat.lt_of_le_of_lt (Nat.add_le_add_left hlen _) ?_
        show s.buffer.prvBytesInBuffer + _ < s.buffer.xLength
        omega
      · rw [hnext, h.sound.head_eq, Nat.mod_add_mod, Nat.add_assoc]
        rfl
      · exact hwindow.trans (congrArg (· ++ _) hcontent.symm)
  · have hready := h.receiver
    revert hready
    cases s.receiver <;> exact id

/-- The sender moves `xHead`: the payload is there. -/
theorem publishes {payload : List UInt8} {xNextHead : Nat}
    (hphase : s.sender = .publish payload xNextHead) :
    Carries isMessageBuffer xLength (es ++ [.sent payload])
      (pending ++ unitsOf isMessageBuffer payload)
      { s with
        buffer := { s.buffer with xHead := xNextHead }
        sender := .completed } := by
  have hready := h.sender
  rw [hphase] at hready
  obtain ⟨hne, k, hk, hlt, rfl, hwindow⟩ := hready
  rw [h.kind] at hwindow
  have hpos := Nat.zero_lt_of_lt h.sound.tail_lt
  have hbytes := h.sound.bytes_of_head hlt s.buffer.pucBuffer
  have hcontent : StreamBuffer.content { s.buffer with
      xHead := (s.buffer.xTail + k) % s.buffer.xLength } =
      s.buffer.content ++ stored isMessageBuffer payload := by
    rw [← hwindow]
    exact congrArg (window _ _ _) hbytes
  refine ⟨⟨h.sound.tail_lt, Nat.mod_lt _ hpos⟩, h.kind, h.length, ?_,
    fun hkind => ?_, fun hkind m hm => ?_, ?_, trivial, ?_⟩
  · rw [hcontent, h.content, bytesOf_append, bytesOf_unitsOf]
  · subst hkind
    rw [hcontent, unitsOf_append, ← h.bytes rfl]
    rfl
  · rcases List.mem_append.mp hm with hm | hm
    · exact h.messages hkind m hm
    · subst hkind
      rw [List.mem_singleton.mp hm]
      exact hne
  · rw [List.flatMap_append, List.flatMap_append, h.units]
    simp [StreamEvent.sentUnits, StreamEvent.receivedUnits]
  · have hready := h.receiver
    show ReceiverReady _ _ s.receiver
    cases hr : s.receiver with
    | decide xBufferLengthBytes xBytesAvailable =>
        rw [hr] at hready
        obtain ⟨us, vs, hsplit, havail⟩ := hready
        exact ⟨us, vs ++ _, by rw [hsplit, List.append_assoc], havail⟩
    | publish payload' xNextTail =>
        rw [hr] at hready
        obtain ⟨hne', vs, hsplit, hnext⟩ := hready
        exact ⟨hne', vs ++ _, by rw [hsplit, List.append_assoc], hnext⟩
    | _ => trivial

/-- The receiver copies: whole units from the front. -/
theorem readsOut {xBufferLengthBytes xBytesAvailable : Nat}
    (hsmall : xLength ≤ 2 ^ 64)
    (hphase : s.receiver = .decide xBufferLengthBytes xBytesAvailable)
    (hbytes : xBytesAvailable > s.buffer.xBytesToStoreMessageLength) :
    ∃ payload xNextTail,
      s.buffer.copyMessageOut xBufferLengthBytes xBytesAvailable =
        some (payload, xNextTail) ∧
      (payload ≠ [] →
        s.buffer.ReceiverReady pending (.publish payload xNextTail)) := by
  have hready := h.receiver
  rw [hphase] at hready
  obtain ⟨us, vs, rfl, rfl⟩ := hready
  have hcontent := h.content
  rw [← h.kind, bytesOf_append] at hcontent
  have hlen := congrArg List.length hcontent
  rw [length_content, List.length_append] at hlen
  cases hkind : s.buffer.isMessageBuffer with
  | false =>
      rw [hkind] at hlen
      refine ⟨_, _, copyMessageOut_bytes h.sound hkind (by omega), fun hne =>
        ⟨hne, unitsOf false (s.buffer.content.drop
          (min xBufferLengthBytes (bytesOf false us).length)), ?_, ?_⟩⟩
      · rw [hkind, ← unitsOf_append, List.take_append_drop]
        exact h.bytes (h.kind.symm.trans hkind)
      · have htake : (s.buffer.content.take (min xBufferLengthBytes
            (bytesOf false us).length)).length =
            min xBufferLengthBytes (bytesOf false us).length := by
          rw [List.length_take, length_content]
          omega
        rw [hkind, stored, if_neg Bool.false_ne_true, htake]
  | true =>
      cases us with
      | nil => exact absurd hbytes (Nat.not_lt_zero _)
      | cons m us =>
          have hm := h.messages (h.kind.symm.trans hkind) m List.mem_cons_self
          have hfront : s.buffer.content = stored true m ++
              (bytesOf true us ++ bytesOf true vs) := by
            rw [hcontent, hkind, ← List.append_assoc]
            rfl
          have hlt := h.sound.bytes_lt
          have hfit := congrArg List.length hfront
          rw [length_content, List.length_append, length_stored_true] at hfit
          have hlong := h.length
          have havail : (stored true m).length ≤
              (bytesOf true (m :: us)).length := by
            show _ ≤ (stored true m ++ bytesOf true us).length
            rw [List.length_append]
            exact Nat.le_add_right _ _
          have hout := copyMessageOut_message h.sound hkind xBufferLengthBytes
            hfront hm (by omega) havail
          split at hout
          · exact ⟨_, _, hout, fun hne => absurd rfl hne⟩
          · refine ⟨_, _, hout, fun hne => ⟨hne, us ++ vs, ?_, ?_⟩⟩
            · rw [hkind]
              rfl
            · rw [hkind]

/-- The receiver moves `xTail`: the payload is out. -/
theorem consumes {payload : List UInt8} {xNextTail : Nat}
    (hphase : s.receiver = .publish payload xNextTail) :
    ∃ pending', Carries isMessageBuffer xLength (es ++ [.received payload])
      pending'
      { s with
        buffer := { s.buffer with xTail := xNextTail }
        receiver := .completed } := by
  have hready := h.receiver
  rw [hphase, ReceiverReady, h.kind] at hready
  obtain ⟨hne, vs, rfl, rfl⟩ := hready
  have hlt := h.sound.bytes_lt
  have hpos := Nat.zero_lt_of_lt h.sound.tail_lt
  have hsplit := h.content
  rw [bytesOf_append, bytesOf_unitsOf] at hsplit
  have hfit := congrArg List.length hsplit
  rw [length_content, List.length_append] at hfit
  have hk : (stored isMessageBuffer payload).length ≤
      s.buffer.prvBytesInBuffer := by omega
  have hcontent : StreamBuffer.content { s.buffer with
      xTail := (s.buffer.xTail + (stored isMessageBuffer payload).length) %
        s.buffer.xLength } = bytesOf isMessageBuffer vs := by
    rw [h.sound.content_of_tail hk, hsplit, List.drop_left' rfl]
  refine ⟨vs, ⟨Nat.mod_lt _ hpos, h.sound.head_lt⟩, h.kind, h.length, hcontent,
    fun hkind => ?_, fun hkind m hm => h.messages hkind m
      (List.mem_append_right _ hm), ?_, ?_, trivial⟩
  · subst hkind
    have hsame := h.bytes rfl
    rw [hsplit, unitsOf_append] at hsame
    rw [hcontent]
    exact List.append_cancel_left hsame
  · rw [List.flatMap_append, List.flatMap_append, h.units]
    simp [StreamEvent.sentUnits, StreamEvent.receivedUnits]
  · exact h.sender.taken h.sound hk

theorem step (hsmall : xLength ≤ 2 ^ 64) (hstep : Step writer reader s es' s') :
    ∃ pending', Carries isMessageBuffer xLength (es ++ es') pending' s' := by
  have hs := h.sender
  have hr := h.receiver
  cases hstep with
  | @send pvTxData mayBlock mayWait xRequiredSpace hphase hspace =>
      refine ⟨pending, h.sends ?_⟩
      have hneeds := needs_requiredSpace hspace
      split
      · exact hneeds
      · exact ⟨hneeds, Nat.zero_le _⟩
  | sendFromISR hphase hlen =>
      exact ⟨pending, h.sends ⟨needs_requiredSpaceFromISR hlen, Nat.zero_le _⟩⟩
  | sendCheck hphase hspace =>
      rw [hphase] at hs
      exact ⟨pending, h.sends ⟨hs, Nat.le_refl _⟩⟩
  | sendWait hphase hspace hassert =>
      rw [hphase] at hs
      exact ⟨pending, h.quiet ⟨_, _, rfl⟩ ⟨hs, Nat.le_refl _⟩ hr⟩
  | sendSleep hphase | sendWake hphase hready =>
      rw [hphase] at hs
      exact ⟨pending, h.quiet ⟨_, _, rfl⟩ hs hr⟩
  | sendClear hphase =>
      rw [hphase] at hs
      exact ⟨pending, h.quiet ⟨_, _, rfl⟩ hs hr⟩
  | sendAgain hphase =>
      rw [hphase] at hs
      exact ⟨pending, h.sends hs.1⟩
  | sendTimeUp hphase =>
      rw [hphase] at hs
      exact ⟨pending, h.sends hs⟩
  | sendLook hphase =>
      rw [hphase] at hs
      refine ⟨pending, h.sends ⟨hs.1, ?_⟩⟩
      split
      · exact Nat.le_refl _
      · exact hs.2
  | sendCopy hphase hcopy => exact ⟨pending, h.copies hphase hcopy⟩
  | sendPublish hphase => exact ⟨_, h.publishes hphase⟩
  | sendTrigger hphase =>
      refine ⟨pending, h.sends ?_⟩
      split <;> trivial
  | sendNotify hphase =>
      obtain ⟨hsame, hreceiver⟩ := s.sendCompleted_same
      exact ⟨pending, h.quiet hsame trivial (hreceiver ▸ hr)⟩
  | receive hphase =>
      refine ⟨pending, h.receives ?_⟩
      split <;> trivial
  | receiveCheck hphase hbytes =>
      refine ⟨pending, h.receives ⟨pending, [], (List.append_nil _).symm, ?_⟩⟩
      rw [h.kind, ← h.content, length_content]
  | receiveWait hphase hbytes hassert =>
      exact ⟨pending, h.quiet ⟨_, _, rfl⟩ hs trivial⟩
  | receiveSleep hphase | receiveWake hphase hready =>
      exact ⟨pending, h.quiet ⟨_, _, rfl⟩ hs trivial⟩
  | receiveClear hphase => exact ⟨pending, h.quiet ⟨_, _, rfl⟩ hs trivial⟩
  | receiveLook hphase =>
      refine ⟨pending, h.receives ⟨pending, [], (List.append_nil _).symm, ?_⟩⟩
      rw [h.kind, ← h.content, length_content]
  | receiveNothing hphase hbytes => exact ⟨pending, h.receives trivial⟩
  | @receiveCopy payload xBufferLengthBytes xBytesAvailable xNextTail hphase
      hbytes hcopy =>
      refine ⟨pending, h.receives ?_⟩
      by_cases hempty : payload = []
      · rw [if_pos hempty]
        trivial
      · obtain ⟨payload', xNextTail', hread, hready⟩ :=
          h.readsOut hsmall hphase hbytes
        obtain ⟨rfl, rfl⟩ := Prod.mk.inj
          (Option.some.inj (hread.symm.trans hcopy))
        rw [if_neg hempty]
        exact hready hempty
  | receivePublish hphase => exact h.consumes hphase
  | receiveComplete hphase =>
      obtain ⟨hsame, hsender⟩ := s.receiveCompleted_same
      exact ⟨pending, h.quiet hsame (hsender ▸ hs) trivial⟩
  | timeout hblocked => exact ⟨pending, h.quiet ⟨_, _, rfl⟩ hs hr⟩
  | notify => exact ⟨pending, h.quiet ⟨_, _, rfl⟩ hs hr⟩

/-- Neither side runs into an assertion while it copies. -/
theorem copyable (hsmall : xLength ≤ 2 ^ 64) :
    (∀ pvTxData xRequiredSpace xSpace,
      s.sender = .copy pvTxData xRequiredSpace xSpace →
      (s.buffer.copyMessageIn pvTxData xSpace xRequiredSpace).isSome) ∧
    (∀ xBufferLengthBytes xBytesAvailable,
      s.receiver = .decide xBufferLengthBytes xBytesAvailable →
      xBytesAvailable > s.buffer.xBytesToStoreMessageLength →
      (s.buffer.copyMessageOut xBufferLengthBytes xBytesAvailable).isSome) := by
  constructor
  · intro pvTxData xRequiredSpace xSpace hphase
    have hs := h.sender
    rw [hphase] at hs
    obtain ⟨_, _, _, -, hcopied, -⟩ := copyMessageIn_eq h.sound hs.2 hs.1
    rw [hcopied]
    rfl
  · intro xBufferLengthBytes xBytesAvailable hphase hbytes
    obtain ⟨_, _, hread, -⟩ := h.readsOut hsmall hphase hbytes
    rw [hread]
    rfl

end Carries

theorem carries_start {sizeOfBuffer xBufferSizeBytes xTriggerLevelBytes : Nat}
    {pucBuffer : Nat → UInt8} {b : StreamBuffer}
    (hcreate : xStreamBufferGenericCreate sizeOfBuffer xBufferSizeBytes
      xTriggerLevelBytes isMessageBuffer pucBuffer = some b)
    (n : TaskHandle → Notification) :
    xBufferSizeBytes + 1 ≤ 2 ^ 64 ∧
      Carries isMessageBuffer (xBufferSizeBytes + 1) [] [] (start b n) := by
  simp only [xStreamBufferGenericCreate,
    Option.ite_none_right_eq_some] at hcreate
  obtain ⟨-, hfits, heq⟩ := hcreate
  obtain rfl := Option.some.inj heq
  have hlow := Nat.mod_lt (xBufferSizeBytes + 1 + sizeOfBuffer)
    (show 0 < 2 ^ 64 by decide)
  have hzero : prvBytesInBuffer (prvInitialiseNewStreamBuffer pucBuffer
      (xBufferSizeBytes + 1)
      (if xTriggerLevelBytes = 0 then 1 else xTriggerLevelBytes)
      isMessageBuffer) = 0 := by
    simp [prvBytesInBuffer, prvInitialiseNewStreamBuffer]
  have hempty : content (prvInitialiseNewStreamBuffer pucBuffer
      (xBufferSizeBytes + 1)
      (if xTriggerLevelBytes = 0 then 1 else xTriggerLevelBytes)
      isMessageBuffer) = [] := by
    rw [content, hzero, window_zero]
  refine ⟨by omega, ⟨Nat.succ_pos _, Nat.succ_pos _⟩, rfl, rfl, hempty,
    fun _ => ?_, fun _ => List.forall_mem_nil _, rfl, trivial, trivial⟩
  exact (congrArg (unitsOf false) hempty).symm

theorem Runs.carries {s₀ : StreamSystem} (hsmall : xLength ≤ 2 ^ 64)
    (h₀ : Carries isMessageBuffer xLength [] [] s₀)
    (hrun : Runs writer reader s₀ es s) :
    ∃ pending, Carries isMessageBuffer xLength es pending s := by
  induction hrun with
  | refl => exact ⟨[], h₀⟩
  | step _ hstep ih =>
      obtain ⟨pending, hcarries⟩ := ih
      exact hcarries.step hsmall hstep

end StreamSystem

/-! ## Streams and messages -/

namespace StreamEvent

/-- The bytes sent. -/
def sentBytes : StreamEvent → List UInt8
  | .sent payload => payload
  | .received _ => []

def receivedBytes : StreamEvent → List UInt8
  | .sent _ => []
  | .received payload => payload

/-- The message sent. -/
def sentMessage : StreamEvent → Option (List UInt8)
  | .sent payload => some payload
  | .received _ => none

def receivedMessage : StreamEvent → Option (List UInt8)
  | .sent _ => none
  | .received payload => some payload

end StreamEvent

open StreamSystem

theorem flatten_unitsOf (payload : List UInt8) :
    (unitsOf false payload).flatten = payload := by
  rw [← List.flatMap_id]
  exact bytesOf_unitsOf false payload

theorem flatMap_units_false {f : StreamEvent → List (List UInt8)}
    {g : StreamEvent → List UInt8} (h : ∀ e, f e = unitsOf false (g e))
    (es : List StreamEvent) : (es.flatMap f).flatten = es.flatMap g := by
  induction es with
  | nil => rfl
  | cons e es ih =>
      rw [List.flatMap_cons, List.flatten_append, ih, h, flatten_unitsOf,
        List.flatMap_cons]

theorem flatMap_units_true {f : StreamEvent → List (List UInt8)}
    {g : StreamEvent → Option (List UInt8)} (h : ∀ e, f e = (g e).toList)
    (es : List StreamEvent) : es.flatMap f = es.filterMap g := by
  induction es with
  | nil => rfl
  | cons e es ih =>
      rw [List.flatMap_cons, ih, h, List.filterMap_cons]
      cases g e <;> rfl

/-- Whatever a sender and a receiver do at a stream buffer, in whatever order
their steps come: the bytes received and the content of the buffer are the
bytes sent, in their order; the content is never more than the size asked
for, and what is free is the rest; and neither side runs into an assertion
while it copies. -/
theorem stream_fifo {sizeOfBuffer xBufferSizeBytes xTriggerLevelBytes : Nat}
    {pucBuffer : Nat → UInt8} {b : StreamBuffer} {writer reader : TaskHandle}
    {notification : TaskHandle → Notification} {es : List StreamEvent}
    {s : StreamSystem}
    (hcreate : xStreamBufferGenericCreate sizeOfBuffer xBufferSizeBytes
      xTriggerLevelBytes false pucBuffer = some b)
    (hrun : Runs writer reader (start b notification) es s) :
    es.flatMap StreamEvent.sentBytes =
      es.flatMap StreamEvent.receivedBytes ++ s.buffer.content ∧
    s.buffer.content.length = s.buffer.prvBytesInBuffer ∧
    s.buffer.prvBytesInBuffer + s.buffer.xStreamBufferSpacesAvailable =
      xBufferSizeBytes ∧
    (∀ pvTxData xRequiredSpace xSpace,
      s.sender = .copy pvTxData xRequiredSpace xSpace →
      (s.buffer.copyMessageIn pvTxData xSpace xRequiredSpace).isSome) ∧
    (∀ xBufferLengthBytes xBytesAvailable,
      s.receiver = .decide xBufferLengthBytes xBytesAvailable →
      xBytesAvailable > 0 →
      (s.buffer.copyMessageOut xBufferLengthBytes xBytesAvailable).isSome) := by
  obtain ⟨hsmall, hstart⟩ := carries_start hcreate notification
  obtain ⟨pending, h⟩ := hrun.carries hsmall hstart
  have hlt := h.sound.bytes_lt
  have hspaces := h.sound.spaces_eq
  have hlen := h.length
  obtain ⟨hin, hout⟩ := h.copyable hsmall
  refine ⟨?_, length_content _, by omega, hin, fun l a hphase ha =>
    hout l a hphase ?_⟩
  · have hunits := congrArg List.flatten h.units
    rw [List.flatten_append, h.bytes rfl, flatten_unitsOf] at hunits
    rw [flatMap_units_false (g := StreamEvent.sentBytes),
      flatMap_units_false (g := StreamEvent.receivedBytes)] at hunits
    · exact hunits
    · intro e
      cases e <;> rfl
    · intro e
      cases e <;> rfl
  · rw [xBytesToStoreMessageLength, h.kind, if_neg Bool.false_ne_true]
    exact ha

/-- An interrupt sends three bytes and another takes two of them. -/
theorem stream_fifo_interrupts :
    ∃ s : StreamSystem, s.buffer.prvBytesInBuffer = 1 ∧
      ([1, 2, 3] : List UInt8) = [1, 2] ++ s.buffer.content := by
  have hrun : ∃ s : StreamSystem, s.buffer.prvBytesInBuffer = 1 ∧
      Runs 0 1 (start (prvInitialiseNewStreamBuffer (fun _ => 0) 5 1 false)
          fun _ => .initial)
        ([] ++ [] ++ [] ++ [] ++ [.sent [1, 2, 3]] ++ [] ++ [] ++ [] ++
          [.received [1, 2]]) s := by
    refine ⟨_, ?_, .step (.step (.step (.step (.step (.step (.step (.step
      (.step .refl
      (@Step.sendFromISR 0 1 _ [1, 2, 3] rfl (by decide)))
      (@Step.sendLook 0 1 _ [1, 2, 3] 3 0 rfl))
      (@Step.notify 0 1 _ 0 0 .noAction))
      (@Step.sendCopy 0 1 _ [1, 2, 3] [1, 2, 3] 3 4 3 _ rfl rfl))
      (@Step.sendPublish 0 1 _ [1, 2, 3] 3 rfl))
      (@Step.receive 0 1 _ 2 false rfl))
      (@Step.receiveLook 0 1 _ 2 rfl))
      (@Step.receiveCopy 0 1 _ [1, 2] 2 3 2 rfl (by decide) rfl))
      (@Step.receivePublish 0 1 _ [1, 2] 2 rfl)⟩
    rfl
  obtain ⟨s, hcount, hrun⟩ := hrun
  exact ⟨s, hcount, (@stream_fifo 0 4 0 (fun _ => 0) _ 0 1 _ _ _ rfl hrun).1⟩

/-- And at a message buffer: the messages received and those still in the
buffer are the messages sent, whole and in their order; the buffer holds each
with its length in front and nothing else, and knows the length of the first. -/
theorem message_fifo {sizeOfBuffer xBufferSizeBytes xTriggerLevelBytes : Nat}
    {pucBuffer : Nat → UInt8} {b : StreamBuffer} {writer reader : TaskHandle}
    {notification : TaskHandle → Notification} {es : List StreamEvent}
    {s : StreamSystem}
    (hcreate : xStreamBufferGenericCreate sizeOfBuffer xBufferSizeBytes
      xTriggerLevelBytes true pucBuffer = some b)
    (hrun : Runs writer reader (start b notification) es s) :
    ∃ messages : List (List UInt8),
      es.filterMap StreamEvent.sentMessage =
        es.filterMap StreamEvent.receivedMessage ++ messages ∧
      s.buffer.content = messages.flatMap (fun m =>
        littleEndian sbBytesToStoreMessageLength m.length ++ m) ∧
      s.buffer.xStreamBufferNextMessageLengthBytes =
        some (messages.headD []).length ∧
      (∀ m ∈ messages, m ≠ [] ∧
        m.length + sbBytesToStoreMessageLength ≤ xBufferSizeBytes) := by
  obtain ⟨hsmall, hstart⟩ := carries_start hcreate notification
  obtain ⟨messages, h⟩ := hrun.carries hsmall hstart
  have hlt := h.sound.bytes_lt
  have hlen := h.length
  have hcontent := h.content
  have hfits : ∀ m ∈ messages, m ≠ [] ∧
      m.length + sbBytesToStoreMessageLength ≤ xBufferSizeBytes := by
    intro m hm
    refine ⟨h.messages rfl m hm, ?_⟩
    obtain ⟨us, vs, rfl⟩ := List.append_of_mem hm
    have hbytes := congrArg List.length hcontent
    rw [length_content, bytesOf_append, List.length_append] at hbytes
    have hfront : (bytesOf true (m :: vs)).length =
        (stored true m).length + (bytesOf true vs).length := List.length_append
    rw [hfront, length_stored_true] at hbytes
    omega
  refine ⟨messages, ?_, hcontent, ?_, hfits⟩
  · have hunits := h.units
    rw [flatMap_units_true (g := StreamEvent.sentMessage),
      flatMap_units_true (g := StreamEvent.receivedMessage)] at hunits
    · exact hunits
    · intro e
      cases e <;> rfl
    · intro e
      cases e <;> rfl
  · simp only [xStreamBufferNextMessageLengthBytes, h.kind, if_true]
    cases messages with
    | nil =>
        have hzero : s.buffer.prvBytesInBuffer = 0 := by
          rw [← length_content, hcontent]
          rfl
        rw [hzero]
        rfl
    | cons m messages =>
        obtain ⟨hne, hfit⟩ := hfits m List.mem_cons_self
        have hpos := List.length_pos_iff.mpr hne
        have hfront : s.buffer.content = stored true m ++
            bytesOf true messages := hcontent
        have hbytes := congrArg List.length hfront
        rw [length_content, List.length_append, length_stored_true] at hbytes
        obtain ⟨hread, hdecode⟩ := h.sound.length_of_message hfront (by omega)
        rw [if_pos (by omega), hread, Option.map_some, hdecode]
        rfl

/-- A message of two bytes, and a receiver with room for one. -/
theorem message_fifo_interrupts :
    ∃ s : StreamSystem, s.receiver = .idle ∧
      s.buffer.xStreamBufferNextMessageLengthBytes = some 2 ∧
      ∃ messages : List (List UInt8), [[7, 8]] = [] ++ messages ∧
        s.buffer.content = messages.flatMap fun m =>
          littleEndian sbBytesToStoreMessageLength m.length ++ m := by
  have hrun : ∃ s : StreamSystem, s.receiver = .idle ∧
      s.buffer.xStreamBufferNextMessageLengthBytes = some 2 ∧
      Runs 0 1 (start (prvInitialiseNewStreamBuffer (fun _ => 0) 21 1 true)
          fun _ => .initial)
        ([] ++ [] ++ [] ++ [.sent [7, 8]] ++ [] ++ [] ++ []) s := by
    refine ⟨_, ?_, ?_, .step (.step (.step (.step (.step (.step (.step .refl
      (@Step.sendFromISR 0 1 _ [7, 8] rfl (by decide)))
      (@Step.sendLook 0 1 _ [7, 8] 10 0 rfl))
      (@Step.sendCopy 0 1 _ [7, 8] [7, 8] 10 20 10 _ rfl rfl))
      (@Step.sendPublish 0 1 _ [7, 8] 10 rfl))
      (@Step.receive 0 1 _ 1 false rfl))
      (@Step.receiveLook 0 1 _ 1 rfl))
      (@Step.receiveCopy 0 1 _ [] 1 10 0 rfl (by decide) rfl)⟩
    · rfl
    · rfl
  obtain ⟨s, hidle, hnext, hrun⟩ := hrun
  obtain ⟨messages, hsent, hcontent, -⟩ :=
    @message_fifo 0 20 0 (fun _ => 0) _ 0 1 _ _ _ rfl hrun
  exact ⟨s, hidle, hnext, messages, hsent, hcontent⟩

end FreeRtosSim
