import FreeRtosSim.Kernel.EventGroup
import FreeRtosSim.Lib.Mask

/-!
# No event is lost

A task waits for bits, and its wait condition is kept in the value of its event
item together with the control bits. Whatever tasks and interrupts do, no
task waits whose condition holds; `xEventGroupSetBits` wakes those whose
condition the new bits meet and no others; a task that is woken so returns
bits that meet its condition, though they may have been cleared in the
meantime; and a bit that is set is there until somebody who waited for it or
somebody who clears it takes it away.
-/

namespace FreeRtosSim

variable {x y : TaskHandle} {s s' : EventSystem} {bits v w : EventBits}
  {clr all mayBlock : Bool} {xTaskPeriod uxPriority : TaskHandle → Nat}
  {tasks : Finset TaskHandle}

theorem prvTestWaitCondition_clear {m : EventBits}
    (h : prvTestWaitCondition bits w all = false) :
    prvTestWaitCondition (bits &&& ~~~m) w all = false := by
  rw [prvTestWaitCondition] at h ⊢
  cases all with
  | false =>
      simp only [if_true, decide_eq_false_iff_not, not_not] at h ⊢
      exact any_of_clear h
  | true =>
      simp only [Bool.true_eq_false, if_false, decide_eq_false_iff_not] at h ⊢
      exact fun hm => h (all_of_clear hm)

namespace EventSystem

/-- The value of the event item of a task that waits. -/
def waitValue (w : EventBits) (clr all : Bool) : EventBits :=
  (w ||| controlBits clr all) ||| itemValueInUse

/-- The value of the event item of a task that was woken. -/
def wokenValue (bits : EventBits) : EventBits :=
  (bits ||| eventUnblockedDueToBitSet) ||| itemValueInUse

/-! ## The value of the event item -/

theorem waitValue_control (hw : w &&& eventEventBitsControlBytes = 0) :
    waitValue w clr all &&& eventEventBitsControlBytes =
      controlBits clr all ||| itemValueInUse := by
  rw [waitValue, BitVec.or_assoc]
  refine or_and_mask hw ?_
  cases clr <;> cases all <;> decide

theorem waitValue_bits (hw : w &&& eventEventBitsControlBytes = 0) :
    waitValue w clr all &&& ~~~eventEventBitsControlBytes = w := by
  rw [waitValue, BitVec.or_assoc]
  refine or_and_not_mask hw ?_
  cases clr <;> cases all <;> decide

/-- A task that nobody woke knows it. -/
theorem waitValue_unblocked (hw : w &&& eventEventBitsControlBytes = 0) :
    waitValue w clr all &&& eventUnblockedDueToBitSet = 0 := by
  have hsplit : eventUnblockedDueToBitSet =
      eventEventBitsControlBytes &&& eventUnblockedDueToBitSet := by decide
  rw [hsplit, ← BitVec.and_assoc, waitValue_control hw]
  cases clr <;> cases all <;> decide

theorem waitValue_clear (hw : w &&& eventEventBitsControlBytes = 0) :
    waitValue w clr all &&& eventEventBitsControlBytes &&&
      eventClearEventsOnExitBit ≠ 0 ↔ clr = true := by
  rw [waitValue_control hw]
  cases clr <;> cases all <;> decide

theorem waitValue_all (hw : w &&& eventEventBitsControlBytes = 0) :
    waitValue w clr all &&& eventEventBitsControlBytes &&& eventWaitForAllBits ≠ 0 ↔
      all = true := by
  rw [waitValue_control hw]
  cases clr <;> cases all <;> decide

theorem matchFound_eq (hw : w &&& eventEventBitsControlBytes = 0) :
    matchFound bits (waitValue w clr all) = prvTestWaitCondition bits w all := by
  simp only [matchFound, waitValue_control hw, waitValue_bits hw]
  rw [prvTestWaitCondition, BitVec.and_comm w bits]
  cases all with
  | false =>
      rw [if_pos (by cases clr <;> decide), if_pos rfl]
  | true =>
      rw [if_neg (by cases clr <;> decide), if_neg (by decide)]

theorem wokenValue_bits (hb : bits &&& eventEventBitsControlBytes = 0) :
    wokenValue bits &&& ~~~eventEventBitsControlBytes = bits := by
  rw [wokenValue, BitVec.or_assoc]
  exact or_and_not_mask hb (by decide)

/-! ## The loop -/

theorem setBitsLoop_group {xs : List TaskHandle} {clear : EventBits} :
    (setBitsLoop xs clear s).1.group.uxEventBits = s.group.uxEventBits ∧
      (setBitsLoop xs clear s).1.phase = s.phase := by
  induction xs generalizing clear s with
  | nil => exact ⟨rfl, rfl⟩
  | cons x xs ih =>
      rw [setBitsLoop]
      split
      · exact ih
      · exact ih

/-- Who is woken is off the list and has the bits. -/
theorem setBitsLoop_spec {xs : List TaskHandle} (clear : EventBits)
    (hxs : xs.Nodup) (hnodup : s.group.xTasksWaitingForBits.Nodup) :
    (setBitsLoop xs clear s).1.group.xTasksWaitingForBits.Nodup ∧
    ∀ y, (y ∈ (setBitsLoop xs clear s).1.group.xTasksWaitingForBits ↔
        y ∈ s.group.xTasksWaitingForBits ∧
          ¬ (y ∈ xs ∧ matchFound s.group.uxEventBits (s.xItemValue y) = true)) ∧
      (setBitsLoop xs clear s).1.xItemValue y =
        if y ∈ xs ∧ matchFound s.group.uxEventBits (s.xItemValue y) = true then
          wokenValue s.group.uxEventBits
        else s.xItemValue y := by
  induction xs generalizing clear s with
  | nil => exact ⟨hnodup, fun y => ⟨by simp [setBitsLoop], by simp [setBitsLoop]⟩⟩
  | cons x xs ih =>
      obtain ⟨hnot, hxs⟩ := List.nodup_cons.mp hxs
      rw [setBitsLoop]
      split
      · next hmatch =>
          obtain ⟨hnd, hall⟩ := @ih (s.vTaskRemoveFromUnorderedEventList x
            (s.group.uxEventBits ||| eventUnblockedDueToBitSet)) _ hxs
            (hnodup.erase x)
          refine ⟨hnd, fun y => ?_⟩
          obtain ⟨hmem, hvalue⟩ := hall y
          rw [hmem, hvalue]
          by_cases hyx : y = x
          · subst hyx
            refine ⟨iff_of_false (fun hin => ?_) fun hin => ?_, ?_⟩
            · exact hnodup.not_mem_erase hin.1
            · exact hin.2 ⟨List.mem_cons_self .., hmatch⟩
            · rw [if_neg fun hin => hnot hin.1, if_pos ⟨List.mem_cons_self .., hmatch⟩]
              exact Function.update_self ..
          · have hval : (s.vTaskRemoveFromUnorderedEventList x
                (s.group.uxEventBits ||| eventUnblockedDueToBitSet)).xItemValue y =
                s.xItemValue y := Function.update_of_ne hyx ..
            have hin : y ∈ (s.vTaskRemoveFromUnorderedEventList x
                (s.group.uxEventBits ||| eventUnblockedDueToBitSet)).group.xTasksWaitingForBits ↔
                y ∈ s.group.xTasksWaitingForBits := List.mem_erase_of_ne hyx
            rw [hval, hin]
            simp only [List.mem_cons, hyx, false_or]
            exact ⟨Iff.rfl, rfl⟩
      · next hmatch =>
          obtain ⟨hnd, hall⟩ := @ih s _ hxs hnodup
          refine ⟨hnd, fun y => ?_⟩
          obtain ⟨hmem, hvalue⟩ := hall y
          rw [hmem, hvalue]
          by_cases hyx : y = x
          · subst hyx
            simp [hnot, hmatch]
          · simp [hyx]

/-- A bit to clear was waited for by a task that is woken and clears it. -/
theorem setBitsLoop_clear {xs : List TaskHandle} {clear : EventBits} {i : Nat}
    (hxs : xs.Nodup) (hi : (setBitsLoop xs clear s).2.getLsbD i = true) :
    clear.getLsbD i = true ∨ ∃ x ∈ xs,
      matchFound s.group.uxEventBits (s.xItemValue x) = true ∧
      s.xItemValue x &&& eventEventBitsControlBytes &&& eventClearEventsOnExitBit ≠ 0 ∧
      (s.xItemValue x &&& ~~~eventEventBitsControlBytes).getLsbD i = true := by
  induction xs generalizing clear s with
  | nil => exact Or.inl hi
  | cons x xs ih =>
      obtain ⟨hnot, hxs⟩ := List.nodup_cons.mp hxs
      rw [setBitsLoop] at hi
      split at hi
      · next hmatch =>
          rcases ih hxs hi with hclear | ⟨y, hy, hrest⟩
          · split at hclear
            · next hclr =>
                rw [BitVec.getLsbD_or, Bool.or_eq_true] at hclear
                rcases hclear with hold | hnew
                · exact Or.inl hold
                · exact Or.inr ⟨x, List.mem_cons_self .., hmatch, hclr, hnew⟩
            · exact Or.inl hclear
          · have hyx : y ≠ x := fun he => hnot (he ▸ hy)
            have hval : (s.vTaskRemoveFromUnorderedEventList x
                (s.group.uxEventBits ||| eventUnblockedDueToBitSet)).xItemValue y =
                s.xItemValue y := Function.update_of_ne hyx ..
            rw [hval] at hrest
            exact Or.inr ⟨y, List.mem_cons_of_mem _ hy, hrest⟩
      · rcases ih hxs hi with hclear | ⟨y, hy, hrest⟩
        · exact Or.inl hclear
        · exact Or.inr ⟨y, List.mem_cons_of_mem _ hy, hrest⟩

theorem xEventGroupSetBits_spec (hnodup : s.group.xTasksWaitingForBits.Nodup)
    (uxBitsToSet : EventBits) :
    (s.xEventGroupSetBits uxBitsToSet).group.xTasksWaitingForBits.Nodup ∧
    ∀ y, (y ∈ (s.xEventGroupSetBits uxBitsToSet).group.xTasksWaitingForBits ↔
        y ∈ s.group.xTasksWaitingForBits ∧
          matchFound (s.group.uxEventBits ||| uxBitsToSet) (s.xItemValue y) = false) ∧
      (s.xEventGroupSetBits uxBitsToSet).xItemValue y =
        if y ∈ s.group.xTasksWaitingForBits ∧
            matchFound (s.group.uxEventBits ||| uxBitsToSet) (s.xItemValue y) = true then
          wokenValue (s.group.uxEventBits ||| uxBitsToSet)
        else s.xItemValue y := by
  obtain ⟨hnd, hall⟩ := setBitsLoop_spec 0
    (s := s.setBits (s.group.uxEventBits ||| uxBitsToSet)) hnodup hnodup
  refine ⟨hnd, fun y => ⟨(hall y).1.trans ?_, (hall y).2⟩⟩
  constructor
  · intro hin
    exact ⟨hin.1, Bool.eq_false_of_not_eq_true fun hm => hin.2 ⟨hin.1, hm⟩⟩
  · intro hin
    exact ⟨hin.1, fun hm => absurd (hm.2.symm.trans hin.2) (by simp)⟩

theorem xEventGroupSetBits_phase (uxBitsToSet : EventBits) :
    (s.xEventGroupSetBits uxBitsToSet).phase = s.phase := setBitsLoop_group.2

/-- `uxBitsToClear` after the loop. -/
def bitsToClear (uxBitsToSet : EventBits) (s : EventSystem) : EventBits :=
  (setBitsLoop s.group.xTasksWaitingForBits 0
    (s.setBits (s.group.uxEventBits ||| uxBitsToSet))).2

theorem xEventGroupSetBits_bits (uxBitsToSet : EventBits) :
    (s.xEventGroupSetBits uxBitsToSet).group.uxEventBits =
      (s.group.uxEventBits ||| uxBitsToSet) &&& ~~~s.bitsToClear uxBitsToSet :=
  congrArg (· &&& ~~~s.bitsToClear uxBitsToSet) setBitsLoop_group.1

/-! ## The invariant -/

structure Sound (tasks : Finset TaskHandle) (s : EventSystem) : Prop where
  users : ∀ x, x ∉ tasks → s.phase x = .outside
  bits : s.group.uxEventBits &&& eventEventBitsControlBytes = 0
  nodup : s.group.xTasksWaitingForBits.Nodup
  calls : ∀ x w clr all, s.phase x = .waiting w clr all →
    w &&& eventEventBitsControlBytes = 0
  listed : ∀ x ∈ s.group.xTasksWaitingForBits, ∃ w clr all,
    s.phase x = .waiting w clr all ∧ s.xItemValue x = waitValue w clr all ∧
      prvTestWaitCondition s.group.uxEventBits w all = false
  woken : ∀ x w clr all, s.phase x = .waiting w clr all →
    x ∉ s.group.xTasksWaitingForBits → s.xItemValue x = waitValue w clr all ∨
      ∃ bits, bits &&& eventEventBitsControlBytes = 0 ∧
        s.xItemValue x = wokenValue bits ∧ prvTestWaitCondition bits w all = true

theorem sound_start {xItemValue : TaskHandle → EventBits} :
    (start xItemValue).Sound tasks where
  users _ _ := rfl
  bits := by
    rw [show (start xItemValue).group.uxEventBits = 0 from rfl]
    decide
  nodup := List.nodup_nil
  calls _ _ _ _ h := EventPhase.noConfusion h
  listed _ hx := absurd hx List.not_mem_nil
  woken _ _ _ _ h := EventPhase.noConfusion h

namespace Sound

variable (h : s.Sound tasks)

include h

/-- Fewer bits. -/
theorem cleared {m : EventBits} :
    (s.setBits (s.group.uxEventBits &&& ~~~m)).Sound tasks where
  users := h.users
  bits := clear_and_zero h.bits
  nodup := h.nodup
  calls := h.calls
  listed x hx := by
    obtain ⟨w, clr, all, hphase, hvalue, hno⟩ := h.listed x hx
    exact ⟨w, clr, all, hphase, hvalue, prvTestWaitCondition_clear hno⟩
  woken := h.woken

theorem item_value (hphase : s.phase x = .waiting w clr all)
    (hx : x ∈ s.group.xTasksWaitingForBits) : s.xItemValue x = waitValue w clr all := by
  obtain ⟨w', clr', all', hphase', hvalue, -⟩ := h.listed x hx
  cases hphase.symm.trans hphase'
  exact hvalue

/-- The code tests what the task asked for. -/
theorem matchFound_waiting (hphase : s.phase x = .waiting w clr all)
    (hx : x ∈ s.group.xTasksWaitingForBits) :
    matchFound bits (s.xItemValue x) = prvTestWaitCondition bits w all := by
  rw [h.item_value hphase hx, matchFound_eq (h.calls x w clr all hphase)]

/-- `xEventGroupSetBits` wakes those whose condition is met. -/
theorem mem_set {uxBitsToSet : EventBits}
    (hphase : s.phase x = .waiting w clr all)
    (hx : x ∈ s.group.xTasksWaitingForBits) :
    x ∈ (s.xEventGroupSetBits uxBitsToSet).group.xTasksWaitingForBits ↔
      prvTestWaitCondition (s.group.uxEventBits ||| uxBitsToSet) w all = false := by
  rw [((xEventGroupSetBits_spec h.nodup uxBitsToSet).2 x).1,
    h.matchFound_waiting hphase hx]
  exact and_iff_right hx

theorem set {uxBitsToSet : EventBits}
    (hset : uxBitsToSet &&& eventEventBitsControlBytes = 0) :
    (s.xEventGroupSetBits uxBitsToSet).Sound tasks := by
  obtain ⟨hnd, hall⟩ := xEventGroupSetBits_spec h.nodup uxBitsToSet
  have hbits := xEventGroupSetBits_bits (s := s) uxBitsToSet
  have hphase := xEventGroupSetBits_phase (s := s) uxBitsToSet
  have hnew : (s.group.uxEventBits ||| uxBitsToSet) &&&
      eventEventBitsControlBytes = 0 := or_and_zero h.bits hset
  refine ⟨hphase ▸ h.users, hbits ▸ clear_and_zero hnew, hnd,
    fun x w clr all hx => ?_, fun x hx => ?_, fun x w clr all hx hnot => ?_⟩
  · exact h.calls x w clr all (hphase ▸ hx)
  · obtain ⟨hin, hno⟩ := (hall x).1.mp hx
    obtain ⟨w, clr, all, hwait, hvalue, -⟩ := h.listed x hin
    refine ⟨w, clr, all, hphase ▸ hwait, ?_, ?_⟩
    · rw [(hall x).2, if_neg fun hm => absurd (hm.2.symm.trans hno) (by simp)]
      exact hvalue
    · rw [hbits]
      exact prvTestWaitCondition_clear ((h.matchFound_waiting hwait hin).symm.trans hno)
  · rw [hphase] at hx
    by_cases hin : x ∈ s.group.xTasksWaitingForBits
    · -- it was on the list and is not any more: the new bits meet its condition
      have hmatch : matchFound (s.group.uxEventBits ||| uxBitsToSet)
          (s.xItemValue x) = true :=
        Bool.eq_true_of_not_eq_false fun hno => hnot ((hall x).1.mpr ⟨hin, hno⟩)
      refine Or.inr ⟨_, hnew, (hall x).2.trans (if_pos ⟨hin, hmatch⟩), ?_⟩
      rwa [h.matchFound_waiting hx hin] at hmatch
    · rw [(hall x).2, if_neg fun hm => hin hm.1]
      exact h.woken x w clr all hx hin

theorem not_listed (hx : s.phase x = .outside) :
    x ∉ s.group.xTasksWaitingForBits := by
  intro hin
  obtain ⟨w, clr, all, hphase, -⟩ := h.listed x hin
  exact EventPhase.noConfusion (hx.symm.trans hphase)

/-- A task that starts to wait. -/
theorem block (hmem : x ∈ tasks) (hx : s.phase x = .outside)
    (hw : w &&& eventEventBitsControlBytes = 0)
    (hno : prvTestWaitCondition s.group.uxEventBits w all = false) :
    (s.block x w clr all).Sound tasks := by
  have hout := h.not_listed hx
  have hself : (s.block x w clr all).phase x = .waiting w clr all :=
    Function.update_self ..
  have hother : ∀ y, y ≠ x → (s.block x w clr all).phase y = s.phase y :=
    fun y hy => Function.update_of_ne hy ..
  have hvalue : ∀ y, y ≠ x → (s.block x w clr all).xItemValue y = s.xItemValue y :=
    fun y hy => Function.update_of_ne hy ..
  have hlist : ∀ y, y ∈ (s.block x w clr all).group.xTasksWaitingForBits ↔
      y ∈ s.group.xTasksWaitingForBits ∨ y = x := fun y =>
    List.mem_append.trans (or_congr_right List.mem_singleton)
  refine ⟨fun y hy => ?_, h.bits, ?_, fun y w' clr' all' hy => ?_, fun y hy => ?_,
    fun y w' clr' all' hy hnot => ?_⟩
  · exact (hother y fun he => hy (he ▸ hmem)).trans (h.users y hy)
  · exact List.nodup_append.mpr ⟨h.nodup, List.nodup_singleton x, fun a ha b hb he =>
      hout (List.mem_singleton.mp hb ▸ he ▸ ha)⟩
  · by_cases hyx : y = x
    · subst hyx
      cases hself.symm.trans hy
      exact hw
    · exact h.calls y w' clr' all' ((hother y hyx).symm.trans hy)
  · by_cases hyx : y = x
    · subst hyx
      exact ⟨w, clr, all, hself, Function.update_self .., hno⟩
    · obtain ⟨w', clr', all', hphase, hv, htest⟩ :=
        h.listed y (((hlist y).mp hy).resolve_right hyx)
      exact ⟨w', clr', all', (hother y hyx).trans hphase, (hvalue y hyx).trans hv, htest⟩
  · have hyx : y ≠ x := fun he => hnot ((hlist y).mpr (Or.inr he))
    rw [hvalue y hyx]
    exact h.woken y w' clr' all' ((hother y hyx).symm.trans hy)
      fun hin => hnot ((hlist y).mpr (Or.inl hin))

/-- A task that returns. -/
theorem leave (hx : x ∉ s.group.xTasksWaitingForBits) :
    ((s.setItemValue x v).setPhase x .outside).Sound tasks := by
  have hself : ((s.setItemValue x v).setPhase x .outside).phase x = .outside :=
    Function.update_self ..
  have hne : ∀ y w clr all,
      ((s.setItemValue x v).setPhase x .outside).phase y = .waiting w clr all →
        y ≠ x ∧ s.phase y = .waiting w clr all := by
    intro y w clr all hy
    by_cases hyx : y = x
    · subst hyx
      exact EventPhase.noConfusion (hself.symm.trans hy)
    · exact ⟨hyx, (Function.update_of_ne hyx ..).symm.trans hy⟩
  have hvalue : ∀ y, y ≠ x →
      ((s.setItemValue x v).setPhase x .outside).xItemValue y = s.xItemValue y :=
    fun y hy => Function.update_of_ne hy ..
  refine ⟨fun y hy => ?_, h.bits, h.nodup,
    fun y w clr all hy => h.calls y w clr all (hne y w clr all hy).2,
    fun y hy => ?_, fun y w clr all hy hnot => ?_⟩
  · by_cases hyx : y = x
    · exact hyx ▸ hself
    · exact (Function.update_of_ne hyx ..).trans (h.users y hy)
  · obtain ⟨w, clr, all, hphase, hv, htest⟩ := h.listed y hy
    have hyx : y ≠ x := fun he => hx (he ▸ hy)
    exact ⟨w, clr, all, (Function.update_of_ne hyx ..).trans hphase,
      (hvalue y hyx).trans hv, htest⟩
  · obtain ⟨hyx, hphase⟩ := hne y w clr all hy
    rw [hvalue y hyx]
    exact h.woken y w clr all hphase hnot

theorem timeUp : (s.removeItem x).Sound tasks := by
  refine ⟨h.users, h.bits, h.nodup.erase x, h.calls,
    fun y hy => h.listed y (List.mem_of_mem_erase hy),
    fun y w clr all hy hnot => ?_⟩
  by_cases hin : y ∈ s.group.xTasksWaitingForBits
  · obtain ⟨w', clr', all', hphase, hv, -⟩ := h.listed y hin
    have hy' : s.phase y = .waiting w clr all := hy
    cases hy'.symm.trans hphase
    exact Or.inl hv
  · exact h.woken y w clr all hy hin

theorem mem (hphase : s.phase x = .waiting w clr all) : x ∈ tasks := by
  by_contra hx
  exact EventPhase.noConfusion ((h.users x hx).symm.trans hphase)

theorem step (hplain : ∀ x ∈ tasks, xTaskPeriod x = 0)
    (hstep : Step xTaskPeriod uxPriority tasks s s') : s'.Sound tasks := by
  cases hstep with
  | set hset => exact h.set hset
  | clear hclear => exact h.cleared
  | @wait x w clr all mayBlock hx hphase hwait hne =>
      rw [waitSection]
      split
      · split
        · exact h.cleared
        · exact h
      · next hno =>
          split
          · exact h
          · exact h.block hx hphase hwait (Bool.eq_false_of_not_eq_true hno)
  | @sync x uxBitsToSet w mayBlock hx hphase hset hwait hne =>
      have hs := h.set hset
      rw [syncSection]
      split
      · exact hs.cleared
      · next hno =>
          split
          · refine hs.block hx ?_ hwait ?_
            · rw [xEventGroupSetBits_phase]
              exact hphase
            · rw [xEventGroupSetBits_bits]
              refine prvTestWaitCondition_clear ?_
              simpa [prvTestWaitCondition] using hno
          · exact hs
  | timeUp hx => exact h.timeUp
  | @finish x w clr all hphase hx =>
      have hs := h.leave (v := BitVec.ofNat 64 (configMaxPriorities - uxPriority x))
        (hx (hplain x (h.mem hphase)))
      rw [finishSection]
      split
      · dsimp only
        split
        · exact hs.cleared
        · exact hs
      · exact hs

end Sound

theorem Runs.sound {xItemValue : TaskHandle → EventBits}
    (hplain : ∀ x ∈ tasks, xTaskPeriod x = 0)
    (hr : Runs xTaskPeriod uxPriority tasks (start xItemValue) s) :
    s.Sound tasks := by
  induction hr with
  | refl => exact sound_start
  | step _ hstep ih => exact ih.step hplain hstep

/-- A bit that does not survive its setting was for a task that is woken and
takes it. -/
theorem Sound.consumed (h : s.Sound tasks) {uxBitsToSet : EventBits} {i : Nat}
    (hi : (s.group.uxEventBits ||| uxBitsToSet).getLsbD i = true)
    (hgone : (s.xEventGroupSetBits uxBitsToSet).group.uxEventBits.getLsbD i = false) :
    ∃ x ∈ s.group.xTasksWaitingForBits,
      x ∉ (s.xEventGroupSetBits uxBitsToSet).group.xTasksWaitingForBits ∧
      ∃ w all, s.phase x = .waiting w true all ∧ w.getLsbD i = true := by
  have hclear : (s.bitsToClear uxBitsToSet).getLsbD i = true := by
    rw [xEventGroupSetBits_bits, BitVec.getLsbD_and, hi, Bool.true_and,
      BitVec.getLsbD_not] at hgone
    have hlt := BitVec.lt_of_getLsbD hi
    simpa [hlt] using hgone
  obtain hzero | ⟨x, hx, hmatch, hclr, hbit⟩ := setBitsLoop_clear
    (s := s.setBits (s.group.uxEventBits ||| uxBitsToSet)) h.nodup hclear
  · simp at hzero
  · obtain ⟨w, clr, all, hphase, hvalue, -⟩ := h.listed x hx
    have hw := h.calls x w clr all hphase
    have hvalue' : (s.setBits (s.group.uxEventBits ||| uxBitsToSet)).xItemValue x =
        waitValue w clr all := hvalue
    rw [hvalue', waitValue_clear hw] at hclr
    rw [hvalue', waitValue_bits hw] at hbit
    subst hclr
    refine ⟨x, hx, fun hin => ?_, w, all, hphase, hbit⟩
    exact absurd (hmatch.symm.trans
      (((xEventGroupSetBits_spec h.nodup uxBitsToSet).2 x).1.mp hin).2) (by simp)

/-- Who was woken returns bits that meet its condition, and leaves the bits
alone. -/
theorem Sound.returned (h : s.Sound tasks) (hphase : s.phase x = .waiting w clr all)
    (hx : x ∉ s.group.xTasksWaitingForBits)
    (hwoken : s.xItemValue x &&& eventUnblockedDueToBitSet ≠ 0) :
    prvTestWaitCondition (s.finishSection uxPriority x w clr all).1 w all = true ∧
      (s.finishSection uxPriority x w clr all).2.group.uxEventBits =
        s.group.uxEventBits := by
  have hval : (s.uxTaskResetEventItemValue uxPriority x).1 = s.xItemValue x := rfl
  rw [finishSection]
  dsimp only
  rw [hval, if_neg hwoken]
  refine ⟨?_, rfl⟩
  rcases h.woken x w clr all hphase hx with hv | ⟨bits, hb, hv, htest⟩
  · rw [hv, waitValue_unblocked (h.calls x w clr all hphase)] at hwoken
    exact absurd rfl hwoken
  · rw [hv]
    exact (wokenValue_bits hb).symm ▸ htest

end EventSystem

open EventSystem in
/-- Whatever tasks without a period and interrupts do at an event group: no
task waits whose condition the bits meet; setting bits wakes the tasks whose
condition the new bits meet, and no others; a bit that does not survive its
setting was for a task that is woken and takes it; and a task that was woken
returns bits that meet its condition, whatever has happened to the bits since.
The control bits stay apart: none is ever set in the group, and the value of
the event item of a task that waits holds just what the task asked for. -/
theorem event_group_wakes {xItemValue : TaskHandle → EventBits}
    (hplain : ∀ x ∈ tasks, xTaskPeriod x = 0)
    (hr : Runs xTaskPeriod uxPriority tasks (start xItemValue) s) :
    (∀ x ∈ s.group.xTasksWaitingForBits, ∃ w clr all,
      s.phase x = .waiting w clr all ∧
        prvTestWaitCondition s.group.uxEventBits w all = false) ∧
    (∀ uxBitsToSet x w clr all, s.phase x = .waiting w clr all →
      x ∈ s.group.xTasksWaitingForBits →
      (x ∉ (s.xEventGroupSetBits uxBitsToSet).group.xTasksWaitingForBits ↔
        prvTestWaitCondition (s.group.uxEventBits ||| uxBitsToSet) w all = true)) ∧
    (∀ uxBitsToSet i, (s.group.uxEventBits ||| uxBitsToSet).getLsbD i = true →
      (s.xEventGroupSetBits uxBitsToSet).group.uxEventBits.getLsbD i = false →
      ∃ x ∈ s.group.xTasksWaitingForBits,
        x ∉ (s.xEventGroupSetBits uxBitsToSet).group.xTasksWaitingForBits ∧
        ∃ w all, s.phase x = .waiting w true all ∧ w.getLsbD i = true) ∧
    (∀ x w clr all, s.phase x = .waiting w clr all →
      x ∉ s.group.xTasksWaitingForBits →
      s.xItemValue x &&& eventUnblockedDueToBitSet ≠ 0 →
      prvTestWaitCondition (s.finishSection uxPriority x w clr all).1 w all = true ∧
        (s.finishSection uxPriority x w clr all).2.group.uxEventBits =
          s.group.uxEventBits) ∧
    s.group.uxEventBits &&& eventEventBitsControlBytes = 0 ∧
    ∀ x w clr all, s.phase x = .waiting w clr all →
      x ∈ s.group.xTasksWaitingForBits →
      s.xItemValue x &&& ~~~eventEventBitsControlBytes = w ∧
      (s.xItemValue x &&& eventEventBitsControlBytes &&&
        eventClearEventsOnExitBit ≠ 0 ↔ clr = true) ∧
      (s.xItemValue x &&& eventEventBitsControlBytes &&&
        eventWaitForAllBits ≠ 0 ↔ all = true) ∧
      s.xItemValue x &&& eventUnblockedDueToBitSet = 0 := by
  have h := hr.sound hplain
  refine ⟨fun x hx => ?_, fun uxBitsToSet x w clr all hphase hx => ?_,
    fun uxBitsToSet i => h.consumed, fun x w clr all => h.returned, h.bits,
    fun x w clr all hphase hx => ?_⟩
  · obtain ⟨w, clr, all, hphase, -, hno⟩ := h.listed x hx
    exact ⟨w, clr, all, hphase, hno⟩
  · rw [h.mem_set hphase hx, Bool.not_eq_false]
  · have hw := h.calls x w clr all hphase
    rw [h.item_value hphase hx]
    exact ⟨waitValue_bits hw, waitValue_clear hw, waitValue_all hw,
      waitValue_unblocked hw⟩

open EventSystem in
/-- Task 1 waits for two bits and clears them, task 2 for one of them; the first
bit wakes task 2, the second one task 1, which takes both. -/
theorem event_group_wakes_two : ∃ s,
    Runs (fun _ => 0) (fun _ => 1) {1, 2} (start fun _ => 0) s ∧
    s.group.xTasksWaitingForBits = [1] ∧ s.group.uxEventBits = 1#64 ∧
    1 ∉ (s.xEventGroupSetBits 2#64).group.xTasksWaitingForBits ∧
    prvTestWaitCondition (s.finishSection (fun _ => 1) 2 1#64 false false).1 1#64
      false = true := by
  have hrun : ∃ s, Runs (fun _ => 0) (fun _ => 1) {1, 2} (start fun _ => 0) s ∧
      s = ((((start fun _ => 0).waitSection 1 3#64 true true true).2.waitSection 2 1#64
        false false true).2).xEventGroupSetBits 1#64 :=
    ⟨_, .step (.step (.step .refl
      (.wait (by decide) (by rfl) (by decide) (by decide)))
      (.wait (by decide) (by rfl) (by decide) (by decide)))
      (.set (by decide)), rfl⟩
  obtain ⟨s, hr, rfl⟩ := hrun
  obtain ⟨-, hset, -, hreturn, -⟩ := event_group_wakes (fun _ _ => rfl) hr
  refine ⟨_, hr, by decide +kernel, by decide +kernel, ?_, ?_⟩
  · exact (hset 2#64 1 3#64 true true (by decide +kernel) (by decide +kernel)).mpr
      (by decide +kernel)
  · exact (hreturn 2 1#64 false false (by decide +kernel) (by decide +kernel)
      (by decide +kernel)).1

end FreeRtosSim
