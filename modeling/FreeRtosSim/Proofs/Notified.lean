import Mathlib.Data.Nat.ModEq
import FreeRtosSim.Kernel.Notify

/-!
# No notification is lost

A task blocks only while it is marked as waiting, and every notification
unmarks it: so a blocked task has not been notified since it blocked. Used as a
counting semaphore, what has been given is what has been taken and what is
still there, up to the width of the value, and a task that takes sleeps only
when nothing is there.
-/

namespace FreeRtosSim

namespace NotifyEvent

def isGiven : NotifyEvent → Bool
  | .given => true
  | _ => false

/-- How many were taken out of the value. -/
def amount : NotifyEvent → Nat
  | .taken true ulReturn => ulReturn.toNat
  | .taken false ulReturn => if ulReturn = 0 then 0 else 1
  | _ => 0

/-- The value is used as a count. -/
def Counts : NotifyEvent → Prop
  | .given | .taken .. | .entered (.take ..) => True
  | _ => False

end NotifyEvent

/-- What has been taken. -/
def takenIn (es : List NotifyEvent) : Nat := (es.map NotifyEvent.amount).sum

/-- What has been given. -/
def givenIn (es : List NotifyEvent) : Nat := es.countP NotifyEvent.isGiven

namespace Notification

variable {n : Notification}

theorem takeExit_amount (n : Notification) (xClearCountOnExit : Bool) :
    NotifyEvent.amount (.taken xClearCountOnExit (n.takeExit
        xClearCountOnExit).1) +
      (n.takeExit xClearCountOnExit).2.ulNotifiedValue.toNat =
    n.ulNotifiedValue.toNat := by
  by_cases hzero : n.ulNotifiedValue = 0
  · cases xClearCountOnExit <;> simp [takeExit, NotifyEvent.amount, hzero]
  · cases xClearCountOnExit with
    | true =>
        simp only [takeExit, NotifyEvent.amount, ne_eq, hzero,
          not_false_eq_true, if_true]
        exact Nat.add_zero _
    | false =>
        have hpos : n.ulNotifiedValue.toNat ≠ 0 := fun heq =>
          hzero (BitVec.eq_of_toNat_eq heq)
        have hone : (n.ulNotifiedValue - 1).toNat =
            n.ulNotifiedValue.toNat - 1 := by
          bv_omega
        simp only [takeExit, NotifyEvent.amount, ne_eq, hzero,
          not_false_eq_true, if_true, if_false, Bool.false_eq_true, hone]
        omega

/-- A notification leaves nobody blocked who was marked as waiting. -/
theorem not_blocked_of_notify (h : n.blocked = true → n.ucNotifyState = .waiting)
    (ulValue : BitVec 32) (eAction : NotifyAction) :
    (n.xTaskGenericNotify ulValue eAction).2.blocked = false := by
  simp only [xTaskGenericNotify]
  split
  · rfl
  · next hstate => exact Bool.eq_false_iff.mpr fun hb => hstate (h hb)

theorem not_blocked_of_give (h : n.blocked = true → n.ucNotifyState = .waiting) :
    n.vTaskGenericNotifyGiveFromISR.blocked = false := by
  simp only [vTaskGenericNotifyGiveFromISR]
  split
  · rfl
  · next hstate => exact Bool.eq_false_iff.mpr fun hb => hstate (h hb)

end Notification

open Notification

namespace NotifySystem

variable {s s' : NotifySystem} {es es' : List NotifyEvent}

/-- A blocked task is in a call and marked as waiting; if it waits to take,
there is nothing to take. -/
structure Waits (s : NotifySystem) : Prop where
  state : s.notification.blocked = true →
    s.notification.ucNotifyState = .waiting
  call : s.notification.blocked = true → s.call ≠ none
  empty : s.notification.blocked = true → ∀ xClearCountOnExit mayBlock,
    s.call = some (.take xClearCountOnExit mayBlock) →
      s.notification.ulNotifiedValue = 0

theorem Waits.of_ready (h : s.notification.blocked = false) : s.Waits :=
  have hnot : ¬ s.notification.blocked = true := Bool.eq_false_iff.mp h
  ⟨fun hb => absurd hb hnot, fun hb => absurd hb hnot, fun hb => absurd hb hnot⟩

theorem Waits.entry (h : s.notification.blocked = false) (call : NotifyCall) :
    Waits ⟨call.entry s.notification, some call⟩ := by
  cases call with
  | take xClearCountOnExit mayBlock =>
      simp only [NotifyCall.entry, takeEntry]
      split
      · next hzero => exact ⟨fun _ => rfl, fun _ => by simp, fun _ _ _ _ => hzero⟩
      · exact .of_ready h
  | wait ulBitsToClearOnEntry ulBitsToClearOnExit mayBlock =>
      simp only [NotifyCall.entry, waitEntry]
      split
      · exact ⟨fun _ => rfl, fun _ => by simp, fun _ _ _ hcall => by cases hcall⟩
      · exact .of_ready h

theorem Waits.step (h : s.Waits) (hstep : Step s es s') : s'.Waits := by
  cases hstep with
  | @enter call hcall =>
      have hready : s.notification.blocked = false :=
        Bool.eq_false_iff.mpr fun hb => h.call hb hcall
      exact .entry hready call
  | @leave call hcall hready =>
      refine .of_ready ?_
      cases call with
      | take xClearCountOnExit mayBlock => exact hready
      | wait ulBitsToClearOnEntry ulBitsToClearOnExit mayBlock =>
          simp only [NotifyCall.exit, waitExit]
          split <;> exact hready
  | timeout => exact .of_ready rfl
  | notify => exact .of_ready (not_blocked_of_notify h.state _ _)
  | giveFromISR => exact .of_ready (not_blocked_of_give h.state)
  | stateClear =>
      simp only [xTaskGenericNotifyStateClear]
      split
      · next hstate =>
          refine .of_ready (Bool.eq_false_iff.mpr fun hb => ?_)
          rw [h.state hb] at hstate
          cases hstate
      · exact h
  | valueClear =>
      refine ⟨h.state, h.call, fun hb xClearCountOnExit mayBlock hcall => ?_⟩
      have hzero := h.empty hb _ _ hcall
      simp only [ulTaskGenericNotifyValueClear, hzero]
      exact BitVec.zero_and

/-- What has been given is what has been taken and what is there, as far as
the value can count. -/
def Balanced (es : List NotifyEvent) (s : NotifySystem) : Prop :=
  takenIn es + s.notification.ulNotifiedValue.toNat ≡ givenIn es [MOD 2 ^ 32] ∧
  takenIn es + s.notification.ulNotifiedValue.toNat ≤ givenIn es

theorem Balanced.congr (h : Balanced es s)
    (hsum : takenIn es' + s'.notification.ulNotifiedValue.toNat =
      takenIn es + s.notification.ulNotifiedValue.toNat)
    (hgiven : givenIn es' = givenIn es) : Balanced es' s' := by
  unfold Balanced
  rw [hsum, hgiven]
  exact h

theorem Balanced.give (h : Balanced es s) {n : Notification}
    (hn : n.ulNotifiedValue = s.notification.ulNotifiedValue + 1)
    (call : Option NotifyCall) : Balanced (es ++ [.given]) ⟨n, call⟩ := by
  obtain ⟨hmod, hle⟩ := h
  have htaken : takenIn (es ++ [.given]) = takenIn es := by
    simp [takenIn, NotifyEvent.amount]
  have hgiven : givenIn (es ++ [.given]) = givenIn es + 1 := by
    simp [givenIn, NotifyEvent.isGiven, List.countP_append]
  have hvalue : (s.notification.ulNotifiedValue + 1).toNat =
      (s.notification.ulNotifiedValue.toNat + 1) % 2 ^ 32 := BitVec.toNat_add ..
  unfold Balanced
  rw [htaken, hgiven, hn, hvalue]
  refine ⟨?_, ?_⟩
  · have hnext := (Nat.mod_modEq (s.notification.ulNotifiedValue.toNat + 1)
      (2 ^ 32)).add_left (takenIn es)
    exact hnext.trans (hmod.add_right 1)
  · have hmodle := Nat.mod_le (s.notification.ulNotifiedValue.toNat + 1) (2 ^ 32)
    omega

theorem Balanced.step (h : Balanced es s) (hstep : Step s es' s')
    (hcounts : ∀ e ∈ es', e.Counts) : Balanced (es ++ es') s' := by
  cases hstep with
  | @enter call hcall =>
      cases call with
      | take xClearCountOnExit mayBlock =>
          have hvalue : (s.notification.takeEntry mayBlock).ulNotifiedValue =
              s.notification.ulNotifiedValue := by
            unfold takeEntry
            split <;> rfl
          refine h.congr ?_ ?_
          · simp only [NotifyCall.entry, hvalue, takenIn, List.map_append,
              List.sum_append, List.map_cons, NotifyEvent.amount, List.map_nil,
              List.sum_cons, List.sum_nil, Nat.add_zero]
          · simp [givenIn, NotifyEvent.isGiven, List.countP_append]
      | wait => exact (hcounts _ (List.mem_singleton_self _)).elim
  | @leave call hcall hready =>
      cases call with
      | take xClearCountOnExit mayBlock =>
          have hamount := takeExit_amount s.notification xClearCountOnExit
          refine h.congr ?_ ?_
          · simp only [NotifyCall.exit, takenIn, List.map_append,
              List.sum_append, List.map_cons, List.map_nil, List.sum_cons,
              List.sum_nil]
            omega
          · simp [givenIn, NotifyCall.exit, NotifyEvent.isGiven,
              List.countP_append]
      | wait => exact (hcounts _ (List.mem_singleton_self _)).elim
  | timeout =>
      rw [List.append_nil]
      exact h
  | @notify ulValue eAction =>
      have hcount := hcounts _ (List.mem_singleton_self _)
      split at hcount
      · next hinc =>
          subst hinc
          rw [if_pos rfl]
          exact h.give rfl _
      · exact hcount.elim
  | giveFromISR => exact h.give rfl _
  | stateClear => exact (hcounts _ (List.mem_singleton_self _)).elim
  | valueClear => exact (hcounts _ (List.mem_singleton_self _)).elim

theorem Runs.waits (hrun : Runs es s) : s.Waits := by
  induction hrun with
  | start => exact .of_ready rfl
  | step _ hstep ih => exact ih.step hstep

theorem Runs.balanced (hrun : Runs es s) (hcounts : ∀ e ∈ es, e.Counts) :
    Balanced es s := by
  induction hrun with
  | start => exact ⟨Nat.ModEq.refl _, Nat.le_refl _⟩
  | step _ hstep ih =>
      refine (ih fun e he => hcounts e (List.mem_append_left _ he)).step hstep
        fun e he => hcounts e (List.mem_append_right _ he)

end NotifySystem

/-- Whatever a task and those who notify it do, in whatever order: while the
task is blocked, it is marked as waiting and the next notification puts it
back, and if it waits to take, there is nothing to take. As long as the value
is only given and taken, nothing is lost up to its width; and with fewer gives
than it can count, every one of them has been taken or is still there. -/
theorem notify_counts {es : List NotifyEvent} {s : NotifySystem}
    (hrun : NotifySystem.Runs es s) :
    (s.notification.blocked = true →
      s.notification.ucNotifyState = .waiting ∧
      ∀ xClearCountOnExit mayBlock,
        s.call = some (.take xClearCountOnExit mayBlock) →
          s.notification.ulNotifiedValue = 0) ∧
    (∀ ulValue eAction,
      (s.notification.xTaskGenericNotify ulValue eAction).2.blocked = false) ∧
    s.notification.vTaskGenericNotifyGiveFromISR.blocked = false ∧
    ((∀ e ∈ es, e.Counts) →
      takenIn es + s.notification.ulNotifiedValue.toNat ≡ givenIn es
        [MOD 2 ^ 32] ∧
      (givenIn es < 2 ^ 32 →
        givenIn es = takenIn es + s.notification.ulNotifiedValue.toNat)) := by
  have hwaits := hrun.waits
  refine ⟨fun hb => ⟨hwaits.state hb, hwaits.empty hb⟩,
    not_blocked_of_notify hwaits.state, not_blocked_of_give hwaits.state,
    fun hcounts => ?_⟩
  obtain ⟨hmod, hle⟩ := hrun.balanced hcounts
  refine ⟨hmod, fun hlt => ?_⟩
  exact (Nat.ModEq.eq_of_lt_of_lt hmod (Nat.lt_of_le_of_lt hle hlt) hlt).symm

/-- A task that takes sleeps until an interrupt gives. -/
theorem notify_counts_given :
    let es : List NotifyEvent :=
      [.entered (.take false true), .given, .taken false 1]
    givenIn es = 1 ∧ givenIn es = takenIn es + (0 : BitVec 32).toNat := by
  intro es
  have hrun : NotifySystem.Runs es ⟨⟨0, .notWaiting, false⟩, none⟩ :=
    .step (.step (.step .start (.enter rfl)) .giveFromISR)
      (@NotifySystem.Step.leave ⟨⟨1, .received, false⟩, _⟩ (.take false true)
        rfl rfl)
  have hcounts : ∀ e ∈ es, e.Counts := by
    simp [es, NotifyEvent.Counts]
  exact ⟨rfl, ((notify_counts hrun).2.2.2 hcounts).2 (by decide)⟩

end FreeRtosSim
