import Mathlib.Algebra.BigOperators.Intervals
import Mathlib.Data.List.Nodup

/-!
# Folding a step that touches one element at a time

A loop over distinct elements whose step reads and writes only what is
observed of the element in hand. Such a loop acts on every element
independently: the order does not matter to the observation, and a flag the
steps may clear survives exactly when no element clears it.
-/

namespace FreeRtosSim

variable {σ ι β : Type*}

/-- From the invariant `I` and the precondition `P` on its observation, the
step at `x` keeps `I`, acts on the observation of `x` as `f x`, and leaves
every other observation alone. -/
structure PointwiseStep (obs : σ → ι → β) (step : σ → ι → σ)
    (f : ι → β → β) (I : σ → Prop) (P : ι → β → Prop) : Prop where
  inv : ∀ s x, I s → P x (obs s x) → I (step s x)
  self : ∀ s x, I s → P x (obs s x) → obs (step s x) x = f x (obs s x)
  other : ∀ s x y, I s → P x (obs s x) → y ≠ x → obs (step s x) y = obs s y

namespace PointwiseStep

variable {obs : σ → ι → β} {step : σ → ι → σ} {f : ι → β → β}
  {I : σ → Prop} {P : ι → β → Prop}

/-- The step may be used under a stronger precondition only. -/
theorem strengthen (h : PointwiseStep obs step f I P) (P' : ι → β → Prop)
    (hP : ∀ x b, P' x b → P x b) : PointwiseStep obs step f I P' where
  inv s x hs hx := h.inv s x hs (hP x _ hx)
  self s x hs hx := h.self s x hs (hP x _ hx)
  other s x y hs hx hy := h.other s x y hs (hP x _ hx) hy

/-- The step keeps something else as well, on elements where `Q` holds. -/
theorem also (h : PointwiseStep obs step f I P) {J : σ → Prop} {Q : ι → β → Prop}
    (hJ : ∀ s x, I s → J s → P x (obs s x) → Q x (obs s x) → J (step s x)) :
    PointwiseStep obs step f (fun s => I s ∧ J s) (fun x b => P x b ∧ Q x b) where
  inv s x hs hx := ⟨h.inv s x hs.1 hx.1, hJ s x hs.1 hs.2 hx.1 hx.2⟩
  self s x hs hx := h.self s x hs.1 hx.1
  other s x y hs hx hy := h.other s x y hs.1 hx.1 hy

/-- A loop that leaves `c` out does not touch what is observed of it. -/
theorem freeze (h : PointwiseStep obs step f I P) (c : ι) (b : β) :
    PointwiseStep obs step f (fun s => I s ∧ obs s c = b)
      (fun x b' => P x b' ∧ c ≠ x) :=
  h.also fun s x hs hc hx hne => (h.other s x c hs hx hne).trans hc

/-- The precondition of the elements still to come is not touched. -/
theorem pre_of_cons (h : PointwiseStep obs step f I P) {s : σ} {x : ι}
    {l : List ι} (hs : I s) (hnd : (x :: l).Nodup)
    (hP : ∀ y ∈ x :: l, P y (obs s y)) : ∀ y ∈ l, P y (obs (step s x) y) := by
  intro y hy
  have hne : y ≠ x := fun he => (List.nodup_cons.mp hnd).1 (he ▸ hy)
  rw [h.other s x y hs (hP x (by simp)) hne]
  exact hP y (List.mem_cons_of_mem _ hy)

theorem foldl_inv (h : PointwiseStep obs step f I P) :
    ∀ (l : List ι) (s : σ), l.Nodup → I s → (∀ x ∈ l, P x (obs s x)) →
      I (l.foldl step s) := by
  intro l
  induction l with
  | nil => intro s _ hs _; exact hs
  | cons x l ih =>
      intro s hnd hs hP
      exact ih _ (List.nodup_cons.mp hnd).2 (h.inv s x hs (hP x (by simp)))
        (h.pre_of_cons hs hnd hP)

theorem foldl_obs (h : PointwiseStep obs step f I P) [DecidableEq ι] :
    ∀ (l : List ι) (s : σ), l.Nodup → I s → (∀ x ∈ l, P x (obs s x)) →
      ∀ y, obs (l.foldl step s) y =
        if y ∈ l then f y (obs s y) else obs s y := by
  intro l
  induction l with
  | nil => intro s _ _ _ y; rfl
  | cons x l ih =>
      intro s hnd hs hP y
      have hx := hP x (by simp)
      have hxl := (List.nodup_cons.mp hnd).1
      rw [List.foldl_cons, ih _ (List.nodup_cons.mp hnd).2 (h.inv s x hs hx)
        (h.pre_of_cons hs hnd hP)]
      by_cases hyx : y = x
      · subst hyx
        rw [if_neg hxl, if_pos (by simp), h.self s y hs hx]
      · rw [h.other s x y hs hx hyx]
        simp [hyx]

/-- A relation every step establishes and that composes relates the ends of
the loop. -/
theorem foldl_rel (h : PointwiseStep obs step f I P) {R : σ → σ → Prop}
    (hrefl : ∀ s, R s s) (htrans : ∀ {a b c}, R a b → R b c → R a c)
    (hR : ∀ s x, I s → P x (obs s x) → R s (step s x)) :
    ∀ (l : List ι) (s : σ), l.Nodup → I s → (∀ x ∈ l, P x (obs s x)) →
      R s (l.foldl step s) := by
  intro l
  induction l with
  | nil => intro s _ _ _; exact hrefl s
  | cons x l ih =>
      intro s hnd hs hP
      have hx := hP x (by simp)
      exact htrans (hR s x hs hx)
        (ih _ (List.nodup_cons.mp hnd).2 (h.inv s x hs hx)
          (h.pre_of_cons hs hnd hP))

theorem foldl_flag (h : PointwiseStep obs step f I P) {Q : σ → Prop}
    {G : ι → β → Prop}
    (hQ : ∀ s x, I s → P x (obs s x) →
      (Q (step s x) ↔ Q s ∧ G x (obs s x))) :
    ∀ (l : List ι) (s : σ), l.Nodup → I s → (∀ x ∈ l, P x (obs s x)) →
      (Q (l.foldl step s) ↔ Q s ∧ ∀ x ∈ l, G x (obs s x)) := by
  intro l
  induction l with
  | nil => intro s _ _ _; simp
  | cons x l ih =>
      intro s hnd hs hP
      have hx := hP x (by simp)
      have hxl := (List.nodup_cons.mp hnd).1
      have hsame : ∀ y ∈ l, obs (step s x) y = obs s y := fun y hy =>
        h.other s x y hs hx fun he => hxl (he ▸ hy)
      rw [List.foldl_cons, ih _ (List.nodup_cons.mp hnd).2 (h.inv s x hs hx)
        (h.pre_of_cons hs hnd hP), hQ s x hs hx, List.forall_mem_cons, and_assoc]
      refine and_congr_right fun _ => and_congr_right fun _ => ?_
      exact forall₂_congr fun y hy => by rw [hsame y hy]

/-- What the steps note down is a matter of the observations the loop began
with. -/
theorem foldl_log (h : PointwiseStep obs step f I P) {γ : Type*}
    {log : ι → σ → List γ} {g : ι → β → List γ}
    (hlog : ∀ s x, I s → P x (obs s x) → log x s = g x (obs s x)) :
    ∀ (l : List ι) (s : σ) (acc : List γ), l.Nodup → I s →
      (∀ x ∈ l, P x (obs s x)) →
      (l.foldl (fun p x => (step p.1 x, p.2 ++ log x p.1)) (s, acc)).2 =
        acc ++ l.flatMap fun x => g x (obs s x) := by
  intro l
  induction l with
  | nil => intro s acc _ _ _; simp
  | cons x l ih =>
      intro s acc hnd hs hP
      have hx := hP x (by simp)
      have hxl := (List.nodup_cons.mp hnd).1
      have hsame : ∀ y ∈ l, g y (obs (step s x) y) = g y (obs s y) := fun y hy => by
        rw [h.other s x y hs hx fun he => hxl (he ▸ hy)]
      rw [List.foldl_cons, ih _ _ (List.nodup_cons.mp hnd).2 (h.inv s x hs hx)
        (h.pre_of_cons hs hnd hP), hlog s x hs hx, List.flatMap_cons,
        List.append_assoc, List.flatMap_congr hsame]

/-- A part of the state that each step changes or not, as the observation
tells. -/
theorem foldl_view (h : PointwiseStep obs step f I P) {γ : Type*} (view : σ → γ)
    (put : γ → ι → γ) (p : ι → β → Bool)
    (hview : ∀ s x, I s → P x (obs s x) →
      view (step s x) = if p x (obs s x) = true then put (view s) x else view s) :
    ∀ (l : List ι) (s : σ), l.Nodup → I s → (∀ x ∈ l, P x (obs s x)) →
      view (l.foldl step s) =
        (l.filter fun x => p x (obs s x)).foldl put (view s) := by
  intro l
  induction l with
  | nil => intro s _ _ _; rfl
  | cons x l ih =>
      intro s hnd hs hP
      have hx := hP x (by simp)
      have hxl := (List.nodup_cons.mp hnd).1
      have hsame : l.filter (fun y => p y (obs (step s x) y)) =
          l.filter fun y => p y (obs s y) := by
        refine List.filter_congr fun y hy => ?_
        rw [h.other s x y hs hx fun he => hxl (he ▸ hy)]
      rw [List.foldl_cons, ih _ (List.nodup_cons.mp hnd).2 (h.inv s x hs hx)
        (h.pre_of_cons hs hnd hP), hsame, hview s x hs hx, List.filter_cons]
      by_cases hp : p x (obs s x) = true
      · rw [if_pos hp, if_pos hp, List.foldl_cons]
      · rw [if_neg hp, if_neg hp]

end PointwiseStep

/-- A summing loop over `0 .. n - 1`. -/
theorem foldl_add_eq_sum {M : Type*} [AddCommMonoid M] (f : Nat → M) (n : Nat) :
    (List.range n).foldl (fun acc i => acc + f i) 0 =
      ∑ i ∈ Finset.range n, f i := by
  induction n with
  | zero => rfl
  | succ n ih =>
      rw [List.range_succ, List.foldl_append, ih, Finset.sum_range_succ]
      rfl

theorem ok_of_toOption {ε α : Type*} {r : Except ε α} {a : α} (h : r.toOption = some a) :
    r = .ok a := by
  cases r with
  | error e => exact absurd h (by simp [Except.toOption])
  | ok b => rw [Option.some_inj.mp h]

/-- A monadic loop over `0 .. n - 1` whose rounds keep an indexed invariant
never fails. -/
theorem foldlM_range {ε : Type*} {f : σ → Nat → Except ε σ}
    {I : Nat → σ → Prop} {n : Nat}
    (hstep : ∀ k < n, ∀ s, I k s → ∃ s', f s k = .ok s' ∧ I (k + 1) s')
    {s : σ} (h0 : I 0 s) : ∃ s', (List.range n).foldlM f s = .ok s' ∧ I n s' := by
  induction n with
  | zero => exact ⟨s, rfl, h0⟩
  | succ n ih =>
      obtain ⟨s', hs', hI⟩ := ih fun k hk => hstep k (Nat.lt_succ_of_lt hk)
      obtain ⟨s'', hs'', hI'⟩ := hstep n (Nat.lt_succ_self n) s' hI
      refine ⟨s'', ?_, hI'⟩
      rw [List.range_succ, List.foldlM_append, hs']
      simp only [List.foldlM_cons, List.foldlM_nil, bind, Except.bind, hs'']
      rfl

end FreeRtosSim
