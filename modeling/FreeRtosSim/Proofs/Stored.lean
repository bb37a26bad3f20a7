import FreeRtosSim.Kernel.StreamBuffer

/-!
# The storage area of a stream buffer

What the positions of a stream buffer mean: the bytes between `xTail` and
`xHead` are its content, all places but one can be used, and the functions
that copy bytes in and out are writing behind the content and reading from its
front.
-/

namespace FreeRtosSim

namespace StreamBuffer

variable {b : StreamBuffer} {buf : Nat → UInt8} {n r : Nat}

/-- Both positions are in the storage area. -/
structure Sound (b : StreamBuffer) : Prop where
  tail_lt : b.xTail < b.xLength
  head_lt : b.xHead < b.xLength

/-- The bytes between the two positions. -/
def content (b : StreamBuffer) : List UInt8 :=
  window b.pucBuffer b.xLength b.xTail b.prvBytesInBuffer

@[simp] theorem length_content (b : StreamBuffer) :
    b.content.length = b.prvBytesInBuffer := length_window

namespace Sound

variable (h : b.Sound)

include h

theorem bytes_lt : b.prvBytesInBuffer < b.xLength := by
  have htail := h.tail_lt
  have hhead := h.head_lt
  simp only [prvBytesInBuffer]
  split <;> omega

/-- `xHead` is behind the content. -/
theorem head_eq : b.xHead = (b.xTail + b.prvBytesInBuffer) % b.xLength := by
  have htail := h.tail_lt
  have hhead := h.head_lt
  rw [← add_mod_eq htail (Nat.le_of_lt h.bytes_lt)]
  simp only [prvBytesInBuffer]
  split <;> split <;> omega

/-- One place is never used. -/
theorem spaces_eq : b.xStreamBufferSpacesAvailable =
    b.xLength - 1 - b.prvBytesInBuffer := by
  have htail := h.tail_lt
  have hhead := h.head_lt
  simp only [xStreamBufferSpacesAvailable, prvBytesInBuffer]
  split <;> split <;> omega

/-- `xHead` has moved to `k` places behind `xTail`. -/
theorem bytes_of_head {k : Nat} (hk : k < b.xLength) (buf : Nat → UInt8) :
    prvBytesInBuffer { b with
      pucBuffer := buf
      xHead := (b.xTail + k) % b.xLength } = k :=
  sub_mod_eq h.tail_lt hk

/-- `xTail` has moved by `k` of the bytes. -/
theorem bytes_of_tail {k : Nat} (hk : k ≤ b.prvBytesInBuffer) :
    prvBytesInBuffer { b with xTail := (b.xTail + k) % b.xLength } =
      b.prvBytesInBuffer - k := by
  have hlt := h.bytes_lt
  have hhead := h.head_eq
  have hsame : (b.xTail + k) % b.xLength < b.xLength :=
    Nat.mod_lt _ (Nat.zero_lt_of_lt h.tail_lt)
  have hmove := sub_mod_eq (k := b.prvBytesInBuffer - k) hsame (by omega)
  rw [Nat.mod_add_mod, show b.xTail + k + (b.prvBytesInBuffer - k) =
    b.xTail + b.prvBytesInBuffer by omega, ← hhead] at hmove
  exact hmove

/-- What is left is the rest of the content. -/
theorem content_of_tail {k : Nat} (hk : k ≤ b.prvBytesInBuffer) :
    content { b with xTail := (b.xTail + k) % b.xLength } =
      b.content.drop k := by
  have hdrop : b.content.drop k = window b.pucBuffer b.xLength (b.xTail + k)
      (b.prvBytesInBuffer - k) := drop_window hk
  rw [hdrop, ← window_mod]
  exact congrArg (window _ _ _) (h.bytes_of_tail hk)

end Sound

/-! ## Copying -/

/-- Bytes are written round the circle. -/
theorem prvWriteBytesToBuffer_eq (buf : Nat → UInt8) {pucData : List UInt8}
    (hr : r < n) (hpos : pucData ≠ []) (hlen : pucData.length ≤ n) :
    prvWriteBytesToBuffer buf n pucData r =
      some (put buf n r pucData, (r + pucData.length) % n) := by
  have hcount := List.length_pos_iff.mpr hpos
  have hnext := add_mod_eq hr hlen
  simp only [prvWriteBytesToBuffer]
  rw [if_pos ⟨hcount, by omega, fun _ => by omega⟩, hnext]
  congr 2
  by_cases hend : r + pucData.length ≤ n
  · rw [if_neg (by omega), put_eq_copy hend, List.take_of_length_le (by omega)]
  · rw [if_pos (by omega), put_eq_copies hr (by omega) hlen,
      Nat.min_eq_left (by omega)]

/-- And read round the circle. -/
theorem prvReadBytesFromBuffer_eq (buf : Nat → UInt8) {xCount : Nat}
    (hr : r < n) (hpos : xCount ≠ 0) (hlen : xCount ≤ n) :
    prvReadBytesFromBuffer buf n xCount r =
      some (window buf n r xCount, (r + xCount) % n) := by
  have hnext := add_mod_eq hr hlen
  simp only [prvReadBytesFromBuffer]
  rw [if_pos ⟨hpos, by omega, by omega⟩, hnext]
  congr 2
  by_cases hend : r + xCount ≤ n
  · rw [if_neg (by omega), window_eq_piece hend, Nat.min_eq_right (by omega)]
  · rw [if_pos (by omega), window_eq_pieces hr (by omega) hlen,
      Nat.min_eq_left (by omega)]

/-- What a payload is in the buffer. -/
def stored (isMessageBuffer : Bool) (payload : List UInt8) : List UInt8 :=
  if isMessageBuffer then
    littleEndian sbBytesToStoreMessageLength payload.length ++ payload
  else payload

theorem length_stored_true (payload : List UInt8) :
    (stored true payload).length =
      sbBytesToStoreMessageLength + payload.length := by
  rw [stored, if_pos rfl, List.length_append, length_littleEndian]

/-- What is copied in, and where `xHead` goes: a whole payload, or nothing. -/
theorem copyMessageIn_eq (h : b.Sound) {pvTxData : List UInt8}
    {xSpace xRequiredSpace : Nat}
    (hspace : xSpace ≤ b.xStreamBufferSpacesAvailable)
    (hreq : b.isMessageBuffer = true →
      xRequiredSpace = pvTxData.length + sbBytesToStoreMessageLength) :
    ∃ raw payload xNextHead, raw.length ≤ b.xStreamBufferSpacesAvailable ∧
      b.copyMessageIn pvTxData xSpace xRequiredSpace =
        some (put b.pucBuffer b.xLength b.xHead raw, xNextHead, payload) ∧
      (payload ≠ [] → raw = stored b.isMessageBuffer payload ∧
        xNextHead = (b.xHead + raw.length) % b.xLength) := by
  have hfit := h.spaces_eq
  cases hmsg : b.isMessageBuffer with
  | true =>
      have hreq := hreq hmsg
      by_cases hroom : xSpace ≥ xRequiredSpace
      · have hlen := length_littleEndian sbBytesToStoreMessageLength
          pvTxData.length
        have hnonempty : littleEndian sbBytesToStoreMessageLength
            pvTxData.length ≠ [] := by
          rw [← List.length_pos_iff, hlen]
          decide
        have hfirst := prvWriteBytesToBuffer_eq b.pucBuffer h.head_lt hnonempty
          (by rw [hlen]; omega)
        rw [hlen] at hfirst
        by_cases hempty : pvTxData.length ≠ 0
        · have hsecond := prvWriteBytesToBuffer_eq
            (put b.pucBuffer b.xLength b.xHead
              (littleEndian sbBytesToStoreMessageLength pvTxData.length))
            (Nat.mod_lt (b.xHead + sbBytesToStoreMessageLength)
              (Nat.zero_lt_of_lt h.head_lt)) (List.length_pos_iff.mp
                (Nat.pos_of_ne_zero hempty)) (by omega)
          rw [put_mod, Nat.mod_add_mod] at hsecond
          have happend := put_append b.pucBuffer b.xLength b.xHead
            (littleEndian sbBytesToStoreMessageLength pvTxData.length) pvTxData
          rw [hlen] at happend
          refine ⟨stored true pvTxData, pvTxData,
            (b.xHead + sbBytesToStoreMessageLength + pvTxData.length) %
              b.xLength, ?_, ?_, fun _ => ⟨rfl, ?_⟩⟩
          · rw [length_stored_true]
            omega
          · simp only [copyMessageIn, hmsg, if_true, if_pos hroom, hfirst,
              Option.bind_eq_bind, Option.bind_some, if_pos hempty, hsecond,
              ← happend]
            rfl
          · rw [length_stored_true, Nat.add_assoc]
        · refine ⟨littleEndian sbBytesToStoreMessageLength pvTxData.length, [],
            b.xHead, by rw [hlen]; omega, ?_, fun hne => absurd rfl hne⟩
          simp only [copyMessageIn, hmsg, if_true, if_pos hroom, hfirst,
            Option.bind_eq_bind, Option.bind_some, if_neg hempty]
          rfl
      · refine ⟨[], [], b.xHead, Nat.zero_le _, ?_, fun hne => absurd rfl hne⟩
        rw [copyMessageIn, hmsg, if_pos rfl, if_neg hroom]
        rfl
  | false =>
      by_cases hempty : min pvTxData.length xSpace ≠ 0
      · have htake : (pvTxData.take (min pvTxData.length xSpace)).length =
            min pvTxData.length xSpace := by
          rw [List.length_take]
          omega
        have hne : pvTxData.take (min pvTxData.length xSpace) ≠ [] := by
          rw [← List.length_pos_iff, htake]
          exact Nat.pos_of_ne_zero hempty
        have hwrite := prvWriteBytesToBuffer_eq b.pucBuffer h.head_lt hne
          (by rw [htake]; omega)
        refine ⟨_, pvTxData.take (min pvTxData.length xSpace), _, ?_, ?_,
          fun _ => ⟨rfl, rfl⟩⟩
        · rw [stored, if_neg Bool.false_ne_true, htake]
          omega
        · rw [copyMessageIn, hmsg, if_neg Bool.false_ne_true, if_pos hempty,
            hwrite, Option.bind_eq_bind, Option.bind_some]
          rfl
      · refine ⟨[], [], b.xHead, Nat.zero_le _, ?_, fun hne => absurd rfl hne⟩
        rw [copyMessageIn, hmsg, if_neg Bool.false_ne_true, if_neg hempty]
        rfl

/-- From a stream as many bytes are copied out as are there and asked for. -/
theorem copyMessageOut_bytes (h : b.Sound) (hmsg : b.isMessageBuffer = false)
    {xBufferLengthBytes xBytesAvailable : Nat}
    (hle : xBytesAvailable ≤ b.prvBytesInBuffer) :
    b.copyMessageOut xBufferLengthBytes xBytesAvailable =
      some (b.content.take (min xBufferLengthBytes xBytesAvailable),
        (b.xTail + min xBufferLengthBytes xBytesAvailable) % b.xLength) := by
  have hlt := h.bytes_lt
  have htake : b.content.take (min xBufferLengthBytes xBytesAvailable) =
      window b.pucBuffer b.xLength b.xTail
        (min xBufferLengthBytes xBytesAvailable) := take_window (by omega)
  rw [copyMessageOut, hmsg, if_neg Bool.false_ne_true, htake]
  by_cases hempty : min xBufferLengthBytes xBytesAvailable ≠ 0
  · rw [if_pos hempty]
    exact prvReadBytesFromBuffer_eq _ h.tail_lt hempty (by omega)
  · rw [if_neg hempty, Decidable.not_not.mp hempty, Nat.add_zero,
      Nat.mod_eq_of_lt h.tail_lt]
    rfl

/-- The length in front of the first message. -/
theorem Sound.length_of_message (h : b.Sound) {message rest : List UInt8}
    (hcontent : b.content = stored true message ++ rest)
    (hlen : message.length < 2 ^ 64) :
    (prvReadBytesFromBuffer b.pucBuffer b.xLength sbBytesToStoreMessageLength
      b.xTail) =
      some (littleEndian sbBytesToStoreMessageLength message.length,
        (b.xTail + sbBytesToStoreMessageLength) % b.xLength) ∧
    ofLittleEndian (littleEndian sbBytesToStoreMessageLength message.length) =
      message.length := by
  have hlt := h.bytes_lt
  have hbytes := congrArg List.length hcontent
  rw [length_content, List.length_append, length_stored_true] at hbytes
  have hprefix : window b.pucBuffer b.xLength b.xTail
      sbBytesToStoreMessageLength =
        littleEndian sbBytesToStoreMessageLength message.length := by
    rw [← take_window (k := b.prvBytesInBuffer) (by omega)]
    show b.content.take _ = _
    rw [hcontent, stored, if_pos rfl, List.append_assoc,
      List.take_left' (length_littleEndian _ _)]
  have hsize : sbBytesToStoreMessageLength ≠ 0 := by decide
  refine ⟨?_, ofLittleEndian_littleEndian hlen⟩
  rw [prvReadBytesFromBuffer_eq b.pucBuffer h.tail_lt hsize (by omega), hprefix]

/-- From a message buffer the first message is copied out, if it fits. -/
theorem copyMessageOut_message (h : b.Sound) (hmsg : b.isMessageBuffer = true)
    (xBufferLengthBytes : Nat) {xBytesAvailable : Nat}
    {message rest : List UInt8}
    (hcontent : b.content = stored true message ++ rest)
    (hne : message ≠ []) (hlen : message.length < 2 ^ 64)
    (havail : (stored true message).length ≤ xBytesAvailable) :
    b.copyMessageOut xBufferLengthBytes xBytesAvailable =
      some (if message.length > xBufferLengthBytes then ([], b.xTail)
        else (message, (b.xTail + (stored true message).length) %
          b.xLength)) := by
  have hlt := h.bytes_lt
  have hpos := List.length_pos_iff.mpr hne
  have hbytes := congrArg List.length hcontent
  rw [length_content, List.length_append, length_stored_true] at hbytes
  rw [length_stored_true] at havail
  have hmessage : window b.pucBuffer b.xLength
      (b.xTail + sbBytesToStoreMessageLength) message.length = message := by
    have hdrop : b.content.drop sbBytesToStoreMessageLength =
        window b.pucBuffer b.xLength (b.xTail + sbBytesToStoreMessageLength)
          (b.prvBytesInBuffer - sbBytesToStoreMessageLength) :=
      drop_window (by omega)
    rw [hcontent, stored, if_pos rfl, List.append_assoc,
      List.drop_left' (length_littleEndian _ _)] at hdrop
    rw [← take_window (k := b.prvBytesInBuffer - sbBytesToStoreMessageLength)
      (by omega), ← hdrop, List.take_left' rfl]
  obtain ⟨hfirst, hdecode⟩ := h.length_of_message hcontent hlen
  simp only [copyMessageOut, hmsg, if_true, hfirst, Option.bind_eq_bind,
    Option.bind_some, hdecode]
  by_cases hfits : message.length > xBufferLengthBytes
  · rw [if_pos hfits, if_pos hfits, if_neg (by omega)]
    rfl
  · have hsecond := prvReadBytesFromBuffer_eq b.pucBuffer
      (Nat.mod_lt (b.xTail + sbBytesToStoreMessageLength)
        (Nat.zero_lt_of_lt h.tail_lt)) (Nat.ne_of_gt hpos) (by omega)
    rw [window_mod, hmessage, Nat.mod_add_mod, Nat.add_assoc] at hsecond
    rw [if_neg hfits, if_neg hfits,
      show min message.length (xBytesAvailable - sbBytesToStoreMessageLength) =
        message.length by omega, if_pos (Nat.ne_of_gt hpos), hsecond,
      length_stored_true]

end StreamBuffer

end FreeRtosSim
