import Mathlib.Analysis.SpecialFunctions.Exp
import Mathlib.Algebra.BigOperators.Fin

namespace RealRlhf.Ppo

open Finset

/-!
# The PPO actor and critic losses

`actor_loss_fn` and `critic_loss_fn` of `impl/model/utils/ppo_functional.py`, on tensors of
`n` entries in real arithmetic. Both take an optional `loss_mask`. With a mask they average
over its valid entries; without one they average over all entries. The losses and the
importance weight of the two paths agree when the mask is all true. The clip ratio does not:
the masked path divides the count of clipped entries by the count of valid ones, and the
unmasked path returns the bare count.
-/

/-- `torch.clamp(x, lo, hi)`. -/
noncomputable def clamp (x lo hi : ℝ) : ℝ :=
  min (max x lo) hi

/-- `mask.count_nonzero()` as a real number. -/
def countNonzero {n : Nat} (mask : Fin n → Bool) : ℝ :=
  ((univ.filter fun i => mask i = true).card : ℝ)

/-- The statistics `dict(clip_ratio=..., importance_weight=...)` of `actor_loss_fn`. -/
structure ActorStats where
  clipRatio : ℝ
  importanceWeight : ℝ

section Actor

variable {n : Nat}

/-- `ratio`: `exp(logprobs - old_logprobs)`, zeroed off the mask. -/
noncomputable def actorRatio (logprobs oldLogprobs : Fin n → ℝ) (lossMask : Option (Fin n → Bool)) (i : Fin n) : ℝ :=
  match lossMask with
  | some mask => if mask i then Real.exp (logprobs i - oldLogprobs i) else 0
  | none => Real.exp (logprobs i - oldLogprobs i)

/-- `actor_loss_fn(logprobs, old_logprobs, advantages, eps_clip, loss_mask)`: the loss and its statistics. -/
noncomputable def actorLossFn (logprobs oldLogprobs advantages : Fin n → ℝ) (epsClip : ℝ)
    (lossMask : Option (Fin n → Bool)) : ℝ × ActorStats :=
  let ratio := actorRatio logprobs oldLogprobs lossMask
  let pgLoss1 := fun i => -advantages i * ratio i
  let pgLoss2 := fun i => -advantages i * clamp (ratio i) (1 - epsClip) (1 + epsClip)
  let clipMask := fun i => decide (pgLoss1 i < pgLoss2 i)
  match lossMask with
  | some mask =>
      ((∑ i, if mask i then max (pgLoss1 i) (pgLoss2 i) else 0) / countNonzero mask,
        ⟨countNonzero (fun i => clipMask i && mask i) / countNonzero mask,
          (∑ i, if mask i then ratio i else 0) / countNonzero mask⟩)
  | none => ((∑ i, max (pgLoss1 i) (pgLoss2 i)) / n, ⟨countNonzero clipMask, (∑ i, ratio i) / n⟩)

/-- An all-true mask zeroes no ratio. -/
@[simp]
theorem actorRatio_all_true
    (logprobs oldLogprobs : Fin n → ℝ) :
    actorRatio logprobs oldLogprobs (some fun _ => true) = actorRatio logprobs oldLogprobs none :=
  rfl

/-- An all-true mask counts every entry. -/
@[simp]
theorem countNonzero_all_true :
    countNonzero (fun _ : Fin n => true) = n := by
  simp [countNonzero]

/-- Under an all-true mask the actor loss and importance weight are those without a mask, and the clip ratio is the unmasked count over `n`. -/
theorem actorLossFn_all_true
    (logprobs oldLogprobs advantages : Fin n → ℝ)
    (epsClip : ℝ) :
    (actorLossFn logprobs oldLogprobs advantages epsClip (some fun _ => true)).1 =
        (actorLossFn logprobs oldLogprobs advantages epsClip none).1 ∧
      (actorLossFn logprobs oldLogprobs advantages epsClip (some fun _ => true)).2.importanceWeight =
        (actorLossFn logprobs oldLogprobs advantages epsClip none).2.importanceWeight ∧
      (actorLossFn logprobs oldLogprobs advantages epsClip (some fun _ => true)).2.clipRatio =
        (actorLossFn logprobs oldLogprobs advantages epsClip none).2.clipRatio / n := by
  simp only [actorLossFn, if_true, actorRatio_all_true, countNonzero_all_true, Bool.and_true, and_self]

end Actor

section Critic

variable {n : Nat}

/-- `torch.nn.functional.huber_loss(x, y, reduction="none", delta=delta)` on one entry. -/
noncomputable def huberLoss (delta x y : ℝ) : ℝ :=
  if |x - y| < delta then (x - y) ^ 2 / 2 else delta * (|x - y| - delta / 2)

/-- `torch.nn.functional.mse_loss(x, y, reduction="none")` on one entry. -/
def mseLoss (x y : ℝ) : ℝ :=
  (x - y) ^ 2

/-- The per-entry loss of `loss_fn_type`: Huber with `delta = 10`, squared error, or `NotImplementedError`. -/
noncomputable def criticLossOf (lossFnType : String) : Option (ℝ → ℝ → ℝ) :=
  if lossFnType = "huber" then some (huberLoss 10)
  else if lossFnType = "mse" then some mseLoss
  else none

/-- `critic_loss_fn(value, old_value, target_value, value_eps_clip, loss_mask, loss_fn_type)`: the value loss and `clip_ratio`. -/
noncomputable def criticLossFn (value oldValue targetValue : Fin n → ℝ) (valueEpsClip : ℝ)
    (lossMask : Option (Fin n → Bool)) (lossFnType : String) : Option (ℝ × ℝ) := do
  let lossFn ← criticLossOf lossFnType
  let valueLossOriginal := fun i => lossFn (value i) (targetValue i)
  let valueClipped := fun i => oldValue i + clamp (value i - oldValue i) (-valueEpsClip) valueEpsClip
  let valueLossClipped := fun i => lossFn (valueClipped i) (targetValue i)
  let valueLoss := fun i => max (valueLossOriginal i) (valueLossClipped i)
  let clipMask := fun i => decide (valueLossClipped i > valueLossOriginal i)
  match lossMask with
  | some mask =>
      pure ((∑ i, if mask i then valueLoss i else 0) / countNonzero mask,
        countNonzero (fun i => clipMask i && mask i) / countNonzero mask)
  | none => pure ((∑ i, valueLoss i) / n, countNonzero clipMask)

/-- Under an all-true mask the value loss is the one without a mask, and the clip ratio is the unmasked count over `n`. -/
theorem criticLossFn_all_true
    (value oldValue targetValue : Fin n → ℝ)
    (valueEpsClip : ℝ)
    (lossFnType : String) :
    (criticLossFn value oldValue targetValue valueEpsClip (some fun _ => true) lossFnType).map Prod.fst =
        (criticLossFn value oldValue targetValue valueEpsClip none lossFnType).map Prod.fst ∧
      (criticLossFn value oldValue targetValue valueEpsClip (some fun _ => true) lossFnType).map Prod.snd =
        (criticLossFn value oldValue targetValue valueEpsClip none lossFnType).map fun result => result.2 / (n : ℝ) := by
  cases lossOf : criticLossOf lossFnType <;>
    simp only [criticLossFn, lossOf, if_true, countNonzero_all_true, Bool.and_true, Option.pure_def,
      Option.bind_eq_bind, Option.none_bind, Option.some_bind, Option.map_none', Option.map_some', and_self]

end Critic

/--
On two entries, each clipped, an all-true mask and no mask give different clip ratios: `1`
with the mask and `2` without it, for the actor (`logprobs = 1`, `old_logprobs = 0`,
`advantages = 1`, `eps_clip = 1/5`) as for the Huber critic (`value = 1`, `old_value = 0`,
`target_value = 1`, `value_eps_clip = 1/2`).
-/
theorem lossFn_clip_ratio_counts_without_mask :
    (actorLossFn (fun _ : Fin 2 => 1) (fun _ => 0) (fun _ => 1) (1 / 5) (some fun _ => true)).2.clipRatio = 1 ∧
      (actorLossFn (fun _ : Fin 2 => 1) (fun _ => 0) (fun _ => 1) (1 / 5) none).2.clipRatio = 2 ∧
      (criticLossFn (fun _ : Fin 2 => 1) (fun _ => 0) (fun _ => 1) (1 / 2) (some fun _ => true) "huber").map
          Prod.snd = some 1 ∧
      (criticLossFn (fun _ : Fin 2 => 1) (fun _ => 0) (fun _ => 1) (1 / 2) none "huber").map Prod.snd = some 2 := by
  have twoBelowE : (2 : ℝ) < Real.exp 1 := by
    have := Real.add_one_lt_exp (one_ne_zero : (1 : ℝ) ≠ 0)
    norm_num at this
    exact this
  have actorClipped : clamp (Real.exp 1) (1 - 5⁻¹) (1 + 5⁻¹) < Real.exp 1 := by
    rw [clamp, max_eq_left (by linarith), min_eq_right (by linarith)]
    linarith
  have criticClipped : huberLoss 10 1 1 < huberLoss 10 (clamp 1 (-2⁻¹) 2⁻¹) 1 := by
    norm_num [huberLoss, clamp, abs_of_neg]
  simp only [actorLossFn, actorRatio, criticLossFn, criticLossOf, countNonzero, if_true, sub_zero, neg_mul, one_mul,
    one_div, neg_lt_neg_iff, actorClipped, criticClipped, zero_add, gt_iff_lt, decide_True, Bool.and_self,
    Bool.and_true, decide_eq_true_eq, filter_True, filter_const, card_univ, Fintype.card_fin, Nat.cast_ofNat,
    Option.pure_def, Option.bind_eq_bind, Option.some_bind, Option.map_some', ne_eq, OfNat.ofNat_ne_zero,
    not_false_eq_true, div_self, and_self]

end RealRlhf.Ppo
