import FreeRtosSim.Sim.Admission

/-!
# The task set generator

`startTaskSetGenerator` and the functions it calls. What it gets from the C
library is a parameter: the results of `rand` in the order of the calls, and
`pow`. A `double` is a value of an ordered field with a floor, and its
arithmetic is exact. The fields `u` of `Task_Set` are only used here and are
kept beside the rest.

The loops that draw until a test is passed run on fuel; the generator
returns when some amount of fuel gives a result. `calculateHiperperiod` has
no `return`; where its value is used it is read as what it has stored.
-/

namespace FreeRtosSim

/-- `RAND_MAX`. -/
def randMax : Nat := 2147483647

def lowestPeriod : Int := 20
def highestPeriod : Int := 100
def maxHiperperiod : Int := 10000
def lowestWh : Int := 0
def highestWh : Int := 5

/-- What the generator asks of the C library: the result of each call of
`rand`, and `pow`. -/
structure Libc (K : Type*) where
  rand : Nat → Nat
  pow : K → K → K

/-- The globals of `taskSetGenerator.c`, and how often `rand` was called. -/
structure Generator (K : Type*) where
  sim : Simulator
  u : Nat → K
  drawn : Nat

/-- The conversion of an `int` to `TickType_t`. -/
def tickOfInt (z : Int) : Nat := (z % 2 ^ 64).toNat

/-! ## `calculateHiperperiod` -/

/-- The recursion of `GCD`; the second argument gets smaller in every round. -/
def gcdLoop : Nat → Int → Int → Int
  | 0, a, _ => a
  | n + 1, a, b => if b = 0 then a else gcdLoop n b (a.tmod b)

def GCD (a b : Int) : Int := gcdLoop (b.natAbs + 1) a b

def LCM (a b : Int) : Int := wrapInt (a.tdiv (GCD a b) * b)

/-- The loop of `calculateHiperperiod`, over the indices still to come. -/
def hiperperiodLoop (sim : Simulator) : List Nat → Int → Int
  | [], temp => temp
  | i :: l, temp =>
      let temp := LCM (sim.taskSet i).getTaskPeriod temp
      if temp < 0 then maxHiperperiod + 1 else hiperperiodLoop sim l temp

def calculateHiperperiod (sim : Simulator) : Simulator :=
  let temp := hiperperiodLoop sim (List.range' 1 (sim.taskCnt - 1))
    (sim.taskSet 0).getTaskPeriod
  { sim with hiperperiod := temp }

/-! ## The random choices -/

section Draw

variable {K : Type*} [Field K] [LinearOrder K] [FloorRing K] (libc : Libc K)

/-- `rand_0_to_1` for the call number `m`. -/
def rand0To1 (m : Nat) : K := (libc.rand m : K) / (randMax : K)

namespace Generator

/-- One more call of `rand`. -/
def draw (g : Generator K) : Generator K := { g with drawn := g.drawn + 1 }

/-- One round of the loop of `calculateUtilization`, on `sum_u` and the
globals. -/
def utilizationStep (acc : K × Generator K) (i : Nat) : K × Generator K :=
  let (sumU, g) := acc
  let pot : K := 1 / (((g.sim.taskCnt : Int) - (i : Int) : Int) : K)
  let nextSumU := sumU * libc.pow (rand0To1 libc g.drawn) pot
  (nextSumU, { g.draw with u := Function.update g.u (i - 1) (sumU - nextSumU) })

def calculateUtilization (utilization : K) (g : Generator K) : Generator K :=
  let (sumU, g) := (List.range' 1 (g.sim.taskCnt - 1)).foldl
    (utilizationStep libc) (utilization, g)
  { g with u := Function.update g.u (g.sim.taskCnt - 1) sumU }

def checkUtilization (g : Generator K) : Nat :=
  if (List.range g.sim.taskCnt).any (fun i => decide (7 / 10 ≤ g.u i)) then 0
  else 1

/-- The value `generatePeriods` makes of a draw. -/
def periodOf (r : K) : Int :=
  castInt (r * ((highestPeriod - lowestPeriod + 1 : Int) : K) +
    (lowestPeriod : K))

/-- The value `generateWeaklyHard` makes of a draw. -/
def weaklyHardOf (r : K) : Int :=
  castInt (r * ((highestWh - lowestWh + 1 : Int) : K) + (lowestWh : K))

/-- Draw for one field of every task. -/
def drawEach (f : K → PeriodicTask → PeriodicTask) (g : Generator K) :
    Generator K :=
  (List.range g.sim.taskCnt).foldl (fun g i =>
    { g.draw with sim := g.sim.modify i (f (rand0To1 libc g.drawn)) }) g

def generatePeriods (g : Generator K) : Generator K :=
  g.drawEach libc fun r t => { t with period := tickOfInt (periodOf r) }

/-- A draw is never negative, so the constraint is a natural number. -/
def generateWeaklyHard (g : Generator K) : Generator K :=
  g.drawEach libc fun r t =>
    { t with weaklyHardConstraint := (weaklyHardOf r).toNat }

/-- The value `calculateTaskDuration` stores for a task. -/
def durationOf (t : PeriodicTask) (u : K) : Nat :=
  let tmp := (t.getTaskPeriod : K) * u + 1 / 2
  let duration := tickOfInt (castInt tmp)
  if duration = 0 then duration + 1 else duration

def calculateTaskDuration (g : Generator K) : Generator K :=
  let sim := (List.range g.sim.taskCnt).foldl
    (fun s i => s.modify i fun t => { t with duration := durationOf t (g.u i) })
    g.sim
  { g with sim }

end Generator

/-- The duration `calculateTaskDuration` rounds to, as a number: the product,
the sum and the conversion are exact. -/
def exactDuration (period : Int) (u : K) : Int :=
  let duration := castInt ((period : K) * u + 1 / 2)
  if duration = 0 then duration + 1 else duration

/-! ## `startTaskSetGenerator` -/

/-- `while(1){ body; if(test) break; }` -/
def loopUntil {σ : Type*} (test : σ → Bool) (body : σ → σ) : Nat → σ → Option σ
  | 0, _ => none
  | n + 1, s => if test (body s) then some (body s)
      else loopUntil test body n (body s)

namespace Generator

/-- The globals before `main` runs, with `TASK_CNT` set. -/
def zeroed (n : Nat) : Generator K where
  sim :=
    { taskCnt := n
      taskSet := fun _ =>
        { period := 0
          duration := 0
          weaklyHardConstraint := 0
          numOfPeriods := 0
          report := fun _ => false
          missedDeadlines := 0
          timesKilled := 0
          weaklyHardBroken := 0 }
      weaklyHard := 1
      hiperperiod := 0 }
  u := fun _ => 0
  drawn := 0

/-- The first two loops: utilisations and periods. -/
def choosePeriods (fuel : Nat) (utilization : K) (g : Generator K) :
    Option (Generator K) := do
  let g ← loopUntil (fun g => g.checkUtilization = 1)
    (calculateUtilization libc utilization) fuel g
  loopUntil (fun g => g.sim.hiperperiod < maxHiperperiod)
    (fun g => let g := g.generatePeriods libc
      { g with sim := calculateHiperperiod g.sim }) fuel g

/-- The third loop. -/
def chooseWeaklyHard (fuel : Nat) (g : Generator K) : Option (Generator K) :=
  loopUntil (fun g => checkNesseryCondition g.sim = 1 ∧
    checkSufficientCondition g.sim = 1) (generateWeaklyHard libc) fuel g

/-- What comes after the loops. -/
def finish (g : Generator K) : Generator K :=
  let g := (g.generateWeaklyHard libc).calculateTaskDuration
  let sim := (calculateHiperperiod g.sim).calculateNumOfPeriods
  { g with sim := sim.resetTimesKilled.resetReports }

def startTaskSetGenerator (fuel : Nat) (utilization : K) (n : Nat) :
    Option (Generator K) := do
  let g ← choosePeriods libc fuel utilization (zeroed n)
  let g ← chooseWeaklyHard libc fuel g
  return g.finish libc

end Generator

end Draw

end FreeRtosSim
