import FreeRtosSim.Proofs.Passes
import FreeRtosSim.Sim.Priorities

/-!
# A job from tick to tick

What one tick makes of the block of a periodic task of any priority, with
nothing but the block in sight. At the end of a tick the task waits in the
middle of a period, or it is ready with a job of the present period that can
still be finished. The accounting takes a tick from the job that runs and a
tick of slack from every other; `killTasks` takes away the jobs of priority 1
whose slack that was. Above priority 1 nothing takes them away, so there a job
without slack has to be the one that runs.
-/

namespace FreeRtosSim

variable {p : PriorityTask} {alg : Algorithm} {b : TCB} {t late : Nat}

/-- The block is that of a task created with these arguments. -/
structure Suits (p : PriorityTask) (b : TCB) : Prop where
  period : b.xTaskPeriod = p.period
  duration : b.xTaskDuration = p.duration
  priority : b.uxPriority = p.uxPriority

/-- The task has a job of the period that `t` is in, with ticks left to run,
and its deadline is missed by `late` at most. -/
structure Working (p : PriorityTask) (t late : Nat) (b : TCB) : Prop where
  ready : b.pxContainer = some (.ready p.uxPriority)
  aligned : p.period ∣ b.startTime
  begun : b.startTime ≤ t
  some_left : 1 ≤ b.xRemainingTicks
  bounded : b.xRemainingTicks ≤ p.duration
  inTime : p.period < portMaxDelay →
    t + b.xRemainingTicks ≤ b.startTime + p.period + late

/-- At the end of a tick. -/
structure Standing (p : PriorityTask) (t : Nat) (b : TCB) : Prop extends Suits p b where
  place : b.pxContainer = some .wait ∧ t % p.period ≠ 0 ∨
    Working p t 0 b ∧ (b.startTime = t → b.xRemainingTicks = p.duration)

/-- When the accounting is done. -/
structure Charged (p : PriorityTask) (t : Nat) (b : TCB) : Prop extends Suits p b where
  place : b.pxContainer = some .wait ∨
    Working p t (if p.uxPriority = 1 then 1 else 0) b ∧ b.startTime < t

/-- Between the two passes. -/
structure Spared (p : PriorityTask) (t : Nat) (b : TCB) : Prop extends Suits p b where
  place : b.pxContainer = some .wait ∨ Working p t 0 b ∧ b.startTime < t

/-- Its deadline has not come. -/
theorem Working.before (h : Working p t 0 b) (ht : t < 2 ^ 31) :
    t < b.startTime + p.period := by
  have hleft := h.some_left
  rcases Nat.lt_or_ge p.period portMaxDelay with hp | hp
  · have := h.inTime hp
    omega
  · rw [portMaxDelay] at hp
    omega

/-- A job that was there before is not released in this tick. -/
theorem Working.not_due (h : Working p t 0 b) (ht : t < 2 ^ 31) (hlt : b.startTime < t) :
    t % p.period ≠ 0 := by
  intro hdue
  have hbefore := h.before ht
  obtain ⟨k, hk⟩ := h.aligned
  obtain ⟨m, hm⟩ := Nat.dvd_of_mod_eq_zero hdue
  rw [hk, hm] at hlt
  rw [hk, hm, ← Nat.mul_succ] at hbefore
  have hkm := Nat.lt_of_mul_lt_mul_left hlt
  have hmk := Nat.lt_of_mul_lt_mul_left hbefore
  omega

/-- The laxity test, as long as the job is a tick late at most. -/
theorem Working.isHopeless_iff (h : Working p t late b) (hs : Suits p b) (ht : t < 2 ^ 31)
    (hlate : late ≤ 1) :
    isHopeless t b ↔ p.period < portMaxDelay ∧
      b.startTime + p.period < t + b.xRemainingTicks := by
  have hb := h.bounded
  have hd := p.duration_le
  have hpos := p.priority_pos
  have hmax := p.period_le
  have hlag : tickSub t b.startTime = t - b.startTime :=
    tickSub_of_le (by omega) h.begun
  rw [isHopeless, hlag, hs.priority, hs.period]
  rcases Nat.lt_or_ge p.period portMaxDelay with hp | hp
  · have hin := h.inTime hp
    have hbegun := h.begun
    have hle : t - b.startTime + b.xRemainingTicks < 2 ^ 64 := by
      rw [portMaxDelay] at hp
      omega
    rw [tickAdd_of_lt hle]
    omega
  · have hle : tickAdd (t - b.startTime) b.xRemainingTicks < 2 ^ 64 :=
      Nat.mod_lt _ (by decide)
    rw [portMaxDelay] at hp ⊢
    omega

theorem Working.not_hopeless (h : Working p t 0 b) (hs : Suits p b) (ht : t < 2 ^ 31) :
    ¬ isHopeless t b := by
  rw [h.isHopeless_iff hs ht (by omega)]
  rintro ⟨hp, hlt⟩
  have := h.inTime hp
  omega

/-! ## The accounting -/

theorem Standing.working (h : Standing p t b) (hr : ∃ k, b.pxContainer = some (.ready k)) :
    Working p t 0 b ∧ (b.startTime = t → b.xRemainingTicks = p.duration) := by
  rcases h.place with ⟨hw, -⟩ | hj
  · obtain ⟨k, hk⟩ := hr
    rw [hw] at hk
    exact absurd hk (by simp)
  · exact hj

/-- The job that runs. -/
theorem Standing.charge (h : Standing p t b) (ht : t + 1 < 2 ^ 31)
    (hr : ∃ k, b.pxContainer = some (.ready k)) :
    Charged p (t + 1) (chargeBlock (t + 1) b) := by
  obtain ⟨hj, -⟩ := h.working hr
  have hleft := hj.some_left
  have hbegun := hj.begun
  have hpos : b.xTaskPeriod ≠ 0 := by
    have := p.duration_pos
    have := p.duration_le
    rw [h.period]
    omega
  rw [chargeBlock, if_pos hpos]
  dsimp only
  split
  · next hdone =>
      -- the last tick: the deadline has not passed, so the task goes to sleep
      have hlag : tickSub (t + 1) b.startTime = t + 1 - b.startTime :=
        tickSub_of_le (by omega) (by omega)
      have hin : t + 1 - b.startTime ≤ p.period := by
        have := hj.before (by omega)
        omega
      rw [completeBlock, if_pos (by rw [hlag, h.period]; exact hin)]
      exact ⟨⟨h.period, h.duration, h.priority⟩, Or.inl rfl⟩
  · next hmore =>
      refine ⟨⟨h.period, h.duration, h.priority⟩, Or.inr ⟨?_, by dsimp only; omega⟩⟩
      have hbound := hj.bounded
      refine
        { ready := hj.ready
          aligned := hj.aligned
          begun := by dsimp only; omega
          some_left := Nat.pos_of_ne_zero hmore
          bounded := by dsimp only; omega
          inTime := fun hp => ?_ }
      have hin := hj.inTime hp
      dsimp only
      omega

/-- A job that does not run, above priority 1 with slack. -/
theorem Standing.passedBy (h : Standing p t b)
    (hslack : 2 ≤ p.uxPriority → b.pxContainer = some (.ready p.uxPriority) →
      p.period < portMaxDelay → t + b.xRemainingTicks ≠ b.startTime + p.period) :
    Charged p (t + 1) b := by
  refine ⟨h.toSuits, ?_⟩
  rcases h.place with ⟨hw, -⟩ | ⟨hj, -⟩
  · exact Or.inl hw
  · have hbegun := hj.begun
    refine Or.inr ⟨{ hj with begun := by omega, inTime := fun hp => ?_ }, by omega⟩
    have hin := hj.inTime hp
    split
    · omega
    · next hone =>
        have hpos := p.priority_pos
        have hne := hslack (by omega) hj.ready hp
        omega

/-! ## The two passes -/

/-- `killTasks` on the block of any task. -/
def reapBlock (t : Nat) (b : TCB) : TCB :=
  if b.pxContainer = some (.ready 1) then killBlock t b else b

/-- `wakeTasks` on the block of any task. -/
def rouseBlock (alg : Algorithm) (t : Nat) (b : TCB) : TCB :=
  if b.pxContainer = some .wait then wakeBlock alg t b else b

theorem Charged.reap (h : Charged p t b) (ht : t < 2 ^ 31) : Spared p t (reapBlock t b) := by
  rw [reapBlock]
  rcases h.place with hw | ⟨hj, hlt⟩
  · rw [if_neg (by rw [hw]; simp)]
    exact ⟨h.toSuits, Or.inl hw⟩
  by_cases hone : p.uxPriority = 1
  · rw [if_pos hone] at hj
    have hiff := hj.isHopeless_iff h.toSuits ht (by omega)
    rw [if_pos (by rw [hj.ready, hone]), killBlock]
    split
    · exact ⟨⟨h.period, h.duration, h.priority⟩, Or.inl rfl⟩
    · next hfine =>
        refine ⟨h.toSuits, Or.inr ⟨{ hj with inTime := fun hp => ?_ }, hlt⟩⟩
        rw [hiff] at hfine
        have hnot : ¬ b.startTime + p.period < t + b.xRemainingTicks :=
          fun hl => hfine ⟨hp, hl⟩
        omega
  · rw [if_neg hone] at hj
    rw [if_neg (by rw [hj.ready]; simpa using hone)]
    exact ⟨h.toSuits, Or.inr ⟨hj, hlt⟩⟩

theorem Spared.rouse (h : Spared p t b) (halg : alg ≠ .rto) :
    Standing p t (rouseBlock alg t b) := by
  rw [rouseBlock]
  rcases h.place with hw | ⟨hj, hlt⟩
  · rw [if_pos hw, wakeBlock]
    have hover : ¬ passedOver alg b := fun ho => halg ho.1
    by_cases hdue : isDue t b
    · rw [if_pos hdue, if_neg hover]
      have hd := p.duration_pos
      have hle := p.duration_le
      have hdvd : t % p.period = 0 := h.period ▸ hdue.2
      refine ⟨⟨h.period, h.duration, h.priority⟩, Or.inr ⟨?_, fun _ => h.duration⟩⟩
      exact
        { ready := congrArg (fun k => some (ListId.ready k)) h.priority
          aligned := Nat.dvd_of_mod_eq_zero hdvd
          begun := Nat.le_refl t
          some_left := by
            rw [show b.xTaskDuration = p.duration from h.duration]
            exact hd
          bounded := Nat.le_of_eq h.duration
          inTime := fun _ => by
            dsimp only
            rw [h.duration]
            omega }
    · rw [if_neg hdue]
      refine ⟨h.toSuits, Or.inl ⟨hw, fun hz => hdue ⟨?_, ?_⟩⟩⟩
      · have := p.priority_pos
        rw [h.priority]
        omega
      · rw [h.period]
        exact hz
  · rw [if_neg (by rw [hj.ready]; simp)]
    exact ⟨h.toSuits, Or.inr ⟨hj, fun he => absurd he (Nat.ne_of_lt hlt)⟩⟩

/-- What `Enforced` asks of a task, read off its block. -/
theorem Standing.released (h : Standing p t b) (ht : t < 2 ^ 31) (hdue : t % p.period = 0) :
    b.xRemainingTicks = p.duration ∧ b.startTime = t ∧
      b.pxContainer = some (.ready p.uxPriority) := by
  rcases h.place with ⟨-, hne⟩ | ⟨hj, hfull⟩
  · exact absurd hdue hne
  · have hstart : b.startTime = t := by
      by_contra hne
      have hbegun := hj.begun
      exact hj.not_due ht (by omega) hdue
    exact ⟨hfull hstart, hstart, hj.ready⟩

theorem Standing.feasible (h : Standing p t b) (ht : t < 2 ^ 31)
    (hr : ∃ k, b.pxContainer = some (.ready k)) : ¬ isHopeless t b :=
  (h.working hr).1.not_hopeless h.toSuits ht

end FreeRtosSim
