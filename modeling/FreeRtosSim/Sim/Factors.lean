import FreeRtosSim.Sim.Generator

/-!
# The sampling loop with its factors given

`calculateUtilization` uses a call of `rand` only as the factor in `[0, 1]`
that `rand_0_to_1` makes of it. Here the factors themselves are the input, so
that they may be any numbers of the interval; the loop of the generator is the
one whose factors are quotients by `RAND_MAX`.
-/

namespace FreeRtosSim

section Factors

variable {K : Type*} [Field K] (factor : Nat → K) (pow : K → K → K)

namespace Generator

/-- One round of the loop of `calculateUtilization`. -/
def factorStep (acc : K × Generator K) (i : Nat) : K × Generator K :=
  let (sumU, g) := acc
  let pot : K := 1 / (((g.sim.taskCnt : Int) - (i : Int) : Int) : K)
  let nextSumU := sumU * pow (factor g.drawn) pot
  (nextSumU, { g.draw with u := Function.update g.u (i - 1) (sumU - nextSumU) })

/-- `calculateUtilization`. -/
def sampleUtilization (utilization : K) (g : Generator K) : Generator K :=
  let (sumU, g) := (List.range' 1 (g.sim.taskCnt - 1)).foldl
    (factorStep factor pow) (utilization, g)
  { g with u := Function.update g.u (g.sim.taskCnt - 1) sumU }

theorem calculateUtilization_eq (libc : Libc K) :
    calculateUtilization libc = sampleUtilization (rand0To1 libc) libc.pow := rfl

end Generator

variable [LinearOrder K] [FloorRing K]

/-- The first loop of `startTaskSetGenerator`. -/
def Generator.chooseUtilization (fuel : Nat) (utilization : K) (n : Nat) :
    Option (Generator K) :=
  loopUntil (fun g => g.checkUtilization = 1)
    (Generator.sampleUtilization factor pow utilization) fuel (Generator.zeroed n)

/-- `(double)(atoi(argv[1])/100.)` in `main`. -/
def utilizationArg (k : Nat) : K := (k : K) / 100

/-- `pow` stays in `[0, 1]` for the bases and exponents of the loop. -/
def PowInUnit (pow : K → K → K) : Prop :=
  ∀ x e : K, 0 ≤ x → x ≤ 1 → 0 < e → e ≤ 1 → 0 ≤ pow x e ∧ pow x e ≤ 1

/-- And it reaches all of `[0, 1]`. -/
def PowOnto (pow : K → K → K) : Prop :=
  ∀ y e : K, 0 ≤ y → y ≤ 1 → 0 < e → e ≤ 1 → ∃ x, 0 ≤ x ∧ x ≤ 1 ∧ pow x e = y

/-- Every factor is in `[0, 1]`. -/
def FactorsInUnit (factor : Nat → K) : Prop := ∀ m, 0 ≤ factor m ∧ factor m ≤ 1

end Factors

end FreeRtosSim
