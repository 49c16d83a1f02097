import Mathlib
import RealRlhf.Ppo.Functional

namespace RealRlhf.Ppo

open Finset

/-!
# The memory-efficient PPO actor loss

`memory_efficient_ppo_loss_fn` of `impl/model/utils/ppo_functional.py` computes the per-token
PPO objective straight from the logits, with a hand-written backward pass. With one
model-parallel rank it calls `_MemoryEfficientPPOActorLossFn`, which reads `log_softmax` at
each label. With several it calls `_VocabParallelMemoryEfficientPPOLoss`: each rank holds a
contiguous partition of the vocabulary, and the row maximum, the label's logit and the sum of
exponentials are all-reduced across the ranks.

Tensors are functions on `Fin`: `logits` has `N` rows of `V` entries, and the loss has one
entry per position that `build_leave_one_indices` selects. That helper
(`impl/model/utils/functional.py`) and `VocabUtility` are not under `src/`: the selected rows
are a parameter `leaveOneIndices : Fin M → Fin N`, and each rank's vocabulary range is read
from a `VocabSplit`. `cu_seqlens` is only passed to that helper, and the `float16` cast of
the backward is not modelled (real arithmetic).

Two facts follow for every input. The vocab-parallel forward rebuilds
`log Σ exp - logit[label]`, the negated log-probability, so its ratio is
`exp(-log_softmax[label] - old_logprob)` (`vocabParallelForward_eq`). Both backward passes
gate the gradient on `pg_loss1 > pg_loss2` together with `1 - ε ≤ ratio ≤ 1 + ε`; inside the
clip range the two losses are equal, so the gate is never open and both return zero
(`memoryEfficientBackward_eq_zero`, `vocabParallelBackward_eq_zero`).
-/

section Rows

variable {V : Nat}

/-- `torch.nn.functional.log_softmax(row, dim=-1)[label]`. -/
noncomputable def logSoftmax (row : Fin V → ℝ) (label : Fin V) : ℝ :=
  row label - Real.log (∑ v, Real.exp (row v))

/-- `torch.nn.functional.softmax(row, dim=-1)`. -/
noncomputable def softmax (row : Fin V → ℝ) (v : Fin V) : ℝ :=
  Real.exp (row v) / ∑ w, Real.exp (row w)

end Rows

/-- `labels = torch.nn.functional.pad(packed_input_ids[1:], (0, 1), value=0)`: each token's successor, and `0` after the last one. -/
def shiftLabels {N V : Nat} [NeZero V] (packedInputIds : Fin N → Fin V) (i : Fin N) : Fin V :=
  if h : i.val + 1 < N then packedInputIds ⟨i.val + 1, h⟩ else 0

/-- `ratio = torch.where(ppo_loss_mask, torch.exp(new_logprobs - old_logprobs), 0)`, after `new_logprobs * ppo_loss_mask`. -/
noncomputable def ppoRatio (newLogprob oldLogprob : ℝ) (mask : Bool) : ℝ :=
  let newLogprob := newLogprob * if mask then 1 else 0
  if mask then Real.exp (newLogprob - oldLogprob) else 0

/-- The forward's output `torch.max(pg_loss1, pg_loss2)` at one position, from its ratio. -/
noncomputable def ppoTokenLoss (ratio advantage epsClip : ℝ) : ℝ :=
  max (-advantage * ratio) (-advantage * clamp ratio (1 - epsClip) (1 + epsClip))

/-- `grad_new_logp` of both backward passes at one position, with `g_ = -grad_output * advantages`. -/
noncomputable def ppoGradNewLogprob (ratio advantage epsClip gradOutput : ℝ) (mask : Bool) : ℝ :=
  let clippedRatio := clamp ratio (1 - epsClip) (1 + epsClip)
  let pgLoss1 := -advantage * ratio
  let pgLoss2 := -advantage * clippedRatio
  let g := -gradOutput * advantage
  let gradRatio := if pgLoss1 > pgLoss2 ∧ (1 - epsClip ≤ ratio ∧ ratio ≤ 1 + epsClip) then g else 0
  if mask then gradRatio * ratio else 0

/-- `_grad_new_logp = zeros(N)` followed by `_grad_new_logp[leave_one_indices] = grad_new_logp`. -/
def scatterLeaveOne {M N : Nat} (leaveOneIndices : Fin M → Fin N) (values : Fin M → ℝ) : Fin N → ℝ :=
  (List.finRange M).foldl (fun acc j => Function.update acc (leaveOneIndices j) (values j)) 0

/-- Inside the clip range the clipped and unclipped losses coincide, so the backward's gate `pg_loss1_larger_mask & unclip_mask` is never open and `grad_new_logp` is zero. -/
theorem ppoGradNewLogprob_eq_zero
    (ratio advantage epsClip gradOutput : ℝ)
    (mask : Bool) :
    ppoGradNewLogprob ratio advantage epsClip gradOutput mask = 0 := by
  have gateClosed : ¬(-advantage * ratio > -advantage * clamp ratio (1 - epsClip) (1 + epsClip) ∧
      (1 - epsClip ≤ ratio ∧ ratio ≤ 1 + epsClip)) := by
    rintro ⟨larger, aboveLow, belowHigh⟩
    rw [clamp, max_eq_left aboveLow, min_eq_left belowHigh] at larger
    exact lt_irrefl _ larger
  simp only [ppoGradNewLogprob]
  rw [if_neg gateClosed]
  simp

/-- Scattering zeros leaves the zero tensor. -/
theorem scatterLeaveOne_zero
    {M N : Nat}
    (leaveOneIndices : Fin M → Fin N) :
    scatterLeaveOne leaveOneIndices (fun _ => 0) = 0 := by
  unfold scatterLeaveOne
  generalize List.finRange M = positions
  induction positions with
  | nil => rfl
  | cons j positions ih => simpa using ih

/-- With a negative advantage and a ratio at or above `1 - ε`, the clipped loss never exceeds the unclipped one, so the loss is `-advantage * ratio`. -/
theorem ppoTokenLoss_of_neg
    {ratio advantage epsClip : ℝ}
    (negative : advantage < 0)
    (aboveLow : 1 - epsClip ≤ ratio) :
    ppoTokenLoss ratio advantage epsClip = -advantage * ratio := by
  have clippedLe : clamp ratio (1 - epsClip) (1 + epsClip) ≤ ratio := by
    rw [clamp, max_eq_left aboveLow]
    exact min_le_left _ _
  exact max_eq_left (mul_le_mul_of_nonneg_left clippedLe (by linarith))

section SingleRank

variable {N V M : Nat} [NeZero V]

/-- `_MemoryEfficientPPOActorLossFn.forward`: the loss at output position `j`. -/
noncomputable def memoryEfficientForward
    (logits : Fin N → Fin V → ℝ)
    (packedInputIds : Fin N → Fin V)
    (leaveOneIndices : Fin M → Fin N)
    (ppoLossMask : Fin M → Bool)
    (oldLogprobs advantages : Fin M → ℝ)
    (epsClip : ℝ)
    (j : Fin M) : ℝ :=
  let i := leaveOneIndices j
  let ratio := ppoRatio (logSoftmax (logits i) (shiftLabels packedInputIds i)) (oldLogprobs j) (ppoLossMask j)
  ppoTokenLoss ratio (advantages j) epsClip

/-- `_MemoryEfficientPPOActorLossFn.backward`: entry `(i, v)` of the gradient it returns for `logits`, `(softmax - onehot(label)) * _grad_new_logp`. -/
noncomputable def memoryEfficientBackward
    (logits : Fin N → Fin V → ℝ)
    (packedInputIds : Fin N → Fin V)
    (leaveOneIndices : Fin M → Fin N)
    (ppoLossMask : Fin M → Bool)
    (oldLogprobs advantages : Fin M → ℝ)
    (epsClip : ℝ)
    (gradOutput : Fin M → ℝ)
    (i : Fin N)
    (v : Fin V) : ℝ :=
  let ratio := fun j =>
    ppoRatio (logSoftmax (logits (leaveOneIndices j)) (shiftLabels packedInputIds (leaveOneIndices j)))
      (oldLogprobs j) (ppoLossMask j)
  let gradNewLogp := scatterLeaveOne leaveOneIndices fun j =>
    ppoGradNewLogprob (ratio j) (advantages j) epsClip (gradOutput j) (ppoLossMask j)
  (softmax (logits i) v + if v = shiftLabels packedInputIds i then -1 else 0) * gradNewLogp i

/-- The single-rank backward returns zero for every input. -/
theorem memoryEfficientBackward_eq_zero
    (logits : Fin N → Fin V → ℝ)
    (packedInputIds : Fin N → Fin V)
    (leaveOneIndices : Fin M → Fin N)
    (ppoLossMask : Fin M → Bool)
    (oldLogprobs advantages : Fin M → ℝ)
    (epsClip : ℝ)
    (gradOutput : Fin M → ℝ) :
    memoryEfficientBackward logits packedInputIds leaveOneIndices ppoLossMask oldLogprobs advantages epsClip
      gradOutput = 0 := by
  funext i v
  simp [memoryEfficientBackward, ppoGradNewLogprob_eq_zero, scatterLeaveOne_zero]

end SingleRank

/-- A split of the vocabulary into contiguous partitions `[start r, stop r)`, one per model-parallel rank: every token id lies in the partition of exactly one rank, its `owner`. -/
structure VocabSplit (vocabSize worldSize : Nat) where
  /-- `vocab_start_index` of each rank. -/
  start : Fin worldSize → Nat
  /-- `vocab_end_index` of each rank. -/
  stop : Fin worldSize → Nat
  /-- The rank whose partition holds a token id. -/
  owner : Fin vocabSize → Fin worldSize
  owner_iff : ∀ v r, owner v = r ↔ start r ≤ v.val ∧ v.val < stop r
  nonempty : ∀ r, start r < stop r
  stop_le : ∀ r, stop r ≤ vocabSize

namespace VocabSplit

variable {V W : Nat}
variable (split : VocabSplit V W)

/-- The token ids of rank `r`'s logits partition. -/
def partition (r : Fin W) : Finset (Fin V) :=
  univ.filter fun v => split.start r ≤ v.val ∧ v.val < split.stop r

/-- `target_mask` of rank `r`: the label lies outside its partition. -/
def targetMask (r : Fin W) (target : Fin V) : Bool :=
  decide (target.val < split.start r ∨ split.stop r ≤ target.val)

/-- A rank's partition is the fibre of `owner`. -/
theorem partition_eq_owner
    (r : Fin W) :
    split.partition r = univ.filter fun v => split.owner v = r := by
  ext v
  simp [partition, split.owner_iff]

/-- No partition is empty, so `torch.max` over it is defined. -/
theorem partition_nonempty
    (r : Fin W) :
    (split.partition r).Nonempty :=
  ⟨⟨split.start r, (split.nonempty r).trans_le (split.stop_le r)⟩, by simp [partition, split.nonempty r]⟩

/-- Summing each rank's partial sum over the ranks sums over the whole vocabulary. -/
theorem sum_partition
    (f : Fin V → ℝ) :
    ∑ r, ∑ v ∈ split.partition r, f v = ∑ v, f v := by
  simp only [partition_eq_owner]
  exact sum_fiberwise univ split.owner f

/-- A label is unmasked exactly on its owner's rank. -/
theorem targetMask_eq
    (r : Fin W)
    (target : Fin V) :
    split.targetMask r target = !decide (split.owner target = r) := by
  rw [targetMask, Bool.eq_iff_iff]
  simp only [decide_eq_true_eq, Bool.not_eq_true', decide_eq_false_iff_not, split.owner_iff]
  omega

end VocabSplit

section VocabParallel

variable {N V M W : Nat} [NeZero V]

/-- `logits_max` on rank `rank` after the `MAX` all-reduce: each rank's `torch.max` over its partition, then the maximum over the ranks. -/
noncomputable def vocabParallelLogitsMax (split : VocabSplit V W) (rank : Fin W) (row : Fin V → ℝ) : ℝ :=
  univ.sup' ⟨rank, mem_univ rank⟩ fun r => (split.partition r).sup' (split.partition_nonempty r) row

/-- `new_logprobs` of `_VocabParallelMemoryEfficientPPOLoss.forward` at one row: `log(sum_exp_logits) - predicted_logits`, both summed over the ranks by all-reduce. -/
noncomputable def vocabParallelNewLogprob (split : VocabSplit V W) (rank : Fin W) (row : Fin V → ℝ)
    (target : Fin V) : ℝ :=
  let logitsMax := vocabParallelLogitsMax split rank row
  let predictedLogits := ∑ r, if split.targetMask r target then 0 else row target - logitsMax
  let sumExpLogits := ∑ r, ∑ v ∈ split.partition r, Real.exp (row v - logitsMax)
  Real.log sumExpLogits - predictedLogits

/-- `_VocabParallelMemoryEfficientPPOLoss.forward` on rank `rank`: the loss at output position `j`. -/
noncomputable def vocabParallelForward
    (split : VocabSplit V W)
    (rank : Fin W)
    (logits : Fin N → Fin V → ℝ)
    (packedInputIds : Fin N → Fin V)
    (leaveOneIndices : Fin M → Fin N)
    (ppoLossMask : Fin M → Bool)
    (oldLogprobs advantages : Fin M → ℝ)
    (epsClip : ℝ)
    (j : Fin M) : ℝ :=
  let i := leaveOneIndices j
  let ratio := ppoRatio (vocabParallelNewLogprob split rank (logits i) (shiftLabels packedInputIds i))
    (oldLogprobs j) (ppoLossMask j)
  ppoTokenLoss ratio (advantages j) epsClip

/-- `_VocabParallelMemoryEfficientPPOLoss.backward` on rank `rank`: entry `(i, v)`, for `v` in the rank's partition, of the gradient it returns for its logits partition. -/
noncomputable def vocabParallelBackward
    (split : VocabSplit V W)
    (rank : Fin W)
    (logits : Fin N → Fin V → ℝ)
    (packedInputIds : Fin N → Fin V)
    (leaveOneIndices : Fin M → Fin N)
    (ppoLossMask : Fin M → Bool)
    (oldLogprobs advantages : Fin M → ℝ)
    (epsClip : ℝ)
    (gradOutput : Fin M → ℝ)
    (i : Fin N)
    (v : Fin V) : ℝ :=
  let ratio := fun j =>
    ppoRatio (vocabParallelNewLogprob split rank (logits (leaveOneIndices j))
      (shiftLabels packedInputIds (leaveOneIndices j))) (oldLogprobs j) (ppoLossMask j)
  let gradNewLogp := scatterLeaveOne leaveOneIndices fun j =>
    ppoGradNewLogprob (ratio j) (advantages j) epsClip (gradOutput j) (ppoLossMask j)
  let target := shiftLabels packedInputIds i
  let logitsMax := vocabParallelLogitsMax split rank (logits i)
  let softmax := Real.exp (logits i v - logitsMax) /
    ∑ r, ∑ w ∈ split.partition r, Real.exp (logits i w - logitsMax)
  let maskedTarget := if split.targetMask rank target then 0 else target.val - split.start rank
  let softmaxUpdate : ℝ := if split.targetMask rank target then 0 else 1
  (softmax - if v.val = split.start rank + maskedTarget then softmaxUpdate else 0) * gradNewLogp i

/-- `memory_efficient_ppo_loss_fn`: the single-rank function when the model-parallel world size is `1`, the vocab-parallel one otherwise. -/
noncomputable def memoryEfficientPpoLossFn
    (split : VocabSplit V W)
    (rank : Fin W)
    (logits : Fin N → Fin V → ℝ)
    (packedInputIds : Fin N → Fin V)
    (leaveOneIndices : Fin M → Fin N)
    (ppoLossMask : Fin M → Bool)
    (oldLogprobs advantages : Fin M → ℝ)
    (epsClip : ℝ)
    (j : Fin M) : ℝ :=
  if W = 1 then memoryEfficientForward logits packedInputIds leaveOneIndices ppoLossMask oldLogprobs advantages epsClip j
  else vocabParallelForward split rank logits packedInputIds leaveOneIndices ppoLossMask oldLogprobs advantages epsClip j

omit [NeZero V] in
/-- Whatever the all-reduced maximum, the vocab-parallel `new_logprobs` is `log Σ exp(row) - row[target]`, the negated `log_softmax` at the label. -/
theorem vocabParallelNewLogprob_eq
    (split : VocabSplit V W)
    (rank : Fin W)
    (row : Fin V → ℝ)
    (target : Fin V) :
    vocabParallelNewLogprob split rank row target = -logSoftmax row target := by
  set logitsMax := vocabParallelLogitsMax split rank row
  have predicted : (∑ r, if split.targetMask r target then 0 else row target - logitsMax) =
      row target - logitsMax := by
    simp [split.targetMask_eq]
  have sumExp : ∑ r, ∑ v ∈ split.partition r, Real.exp (row v - logitsMax) =
      (∑ v, Real.exp (row v)) / Real.exp logitsMax := by
    rw [split.sum_partition, sum_div]
    simp only [Real.exp_sub]
  have sumPos : 0 < ∑ v, Real.exp (row v) := sum_pos (fun v _ => Real.exp_pos _) ⟨target, mem_univ _⟩
  simp only [vocabParallelNewLogprob, logSoftmax, predicted, sumExp]
  rw [Real.log_div sumPos.ne' (Real.exp_pos _).ne', Real.log_exp]
  ring

/-- On every rank and for every split, the vocab-parallel forward is the PPO loss of the ratio `exp(-log_softmax[label] - old_logprob)`. -/
theorem vocabParallelForward_eq
    (split : VocabSplit V W)
    (rank : Fin W)
    (logits : Fin N → Fin V → ℝ)
    (packedInputIds : Fin N → Fin V)
    (leaveOneIndices : Fin M → Fin N)
    (ppoLossMask : Fin M → Bool)
    (oldLogprobs advantages : Fin M → ℝ)
    (epsClip : ℝ)
    (j : Fin M) :
    vocabParallelForward split rank logits packedInputIds leaveOneIndices ppoLossMask oldLogprobs advantages
        epsClip j =
      ppoTokenLoss (ppoRatio (-logSoftmax (logits (leaveOneIndices j)) (shiftLabels packedInputIds (leaveOneIndices j)))
        (oldLogprobs j) (ppoLossMask j)) (advantages j) epsClip := by
  simp only [vocabParallelForward, vocabParallelNewLogprob_eq]

/--
On uniform logits over two tokens (label `0`, `old_logprobs = 0`, `advantages = 1`,
`eps_clip = 1/5`), the PPO objective of `log_softmax` is `-1/2`. The single-rank path returns
it; on every split over two ranks the vocab-parallel path returns `-6/5`, the loss of the ratio
`2` instead of `1/2`.
-/
theorem memoryEfficientPpoLossFn_parallel_negates_logprob :
    ppoTokenLoss (Real.exp (logSoftmax (fun _ : Fin 2 => 0) 0 - 0)) 1 (1 / 5) = -1 / 2 ∧
      (∀ (split : VocabSplit 2 1) (leaveOneIndices : Fin 1 → Fin 2),
        memoryEfficientPpoLossFn split 0 (fun _ _ => 0) (fun _ => 0) leaveOneIndices (fun _ => true)
          (fun _ => 0) (fun _ => 1) (1 / 5) 0 = -1 / 2) ∧
      ∀ (split : VocabSplit 2 2) (rank : Fin 2) (leaveOneIndices : Fin 1 → Fin 2),
        memoryEfficientPpoLossFn split rank (fun _ _ => 0) (fun _ => 0) leaveOneIndices (fun _ => true)
          (fun _ => 0) (fun _ => 1) (1 / 5) 0 = -6 / 5 := by
  have logTwo : logSoftmax (fun _ : Fin 2 => 0) 0 = -Real.log 2 := by
    norm_num [logSoftmax]
  have halfRatio : Real.exp (-Real.log 2) = 2⁻¹ := by
    rw [Real.exp_neg, Real.exp_log two_pos]
  have singleRank : ppoTokenLoss 2⁻¹ 1 5⁻¹ = -1 / 2 := by
    norm_num [ppoTokenLoss, clamp]
  have twoRanks : ppoTokenLoss 2 1 5⁻¹ = -6 / 5 := by
    norm_num [ppoTokenLoss, clamp]
  refine ⟨by simp [logTwo, halfRatio, singleRank], fun split leaveOneIndices => ?_,
    fun split rank leaveOneIndices => ?_⟩
  · simp [memoryEfficientPpoLossFn, memoryEfficientForward, ppoRatio, shiftLabels, logTwo, halfRatio, singleRank]
  · simp [memoryEfficientPpoLossFn, vocabParallelForward_eq, ppoRatio, shiftLabels, logTwo, Real.exp_log, twoRanks]

/-- Every rank's backward returns zero for every input. -/
theorem vocabParallelBackward_eq_zero
    (split : VocabSplit V W)
    (rank : Fin W)
    (logits : Fin N → Fin V → ℝ)
    (packedInputIds : Fin N → Fin V)
    (leaveOneIndices : Fin M → Fin N)
    (ppoLossMask : Fin M → Bool)
    (oldLogprobs advantages : Fin M → ℝ)
    (epsClip : ℝ)
    (gradOutput : Fin M → ℝ) :
    vocabParallelBackward split rank logits packedInputIds leaveOneIndices ppoLossMask oldLogprobs advantages
      epsClip gradOutput = 0 := by
  funext i v
  simp [vocabParallelBackward, ppoGradNewLogprob_eq_zero, scatterLeaveOne_zero]

end VocabParallel

/--
Along the line of logits `![0, t]` in every row (label `0`, mask true, `old_logprobs = 0`,
`advantages = -1`, `eps_clip = 3/2`), the single-rank output moves at rate `-1/4` and the
vocab-parallel output at rate `1` through `t = 0`, where the ratios `1/2` and `2` lie strictly
inside the clip range. Both backward passes return zero there (`grad_output = 1`), so neither
pairs with that direction to the derivative.
-/
theorem memoryEfficient_backward_not_gradient :
    (∀ leaveOneIndices : Fin 1 → Fin 2,
      HasDerivAt (fun t : ℝ => memoryEfficientForward (fun _ : Fin 2 => ![0, t]) (fun _ => 0) leaveOneIndices
        (fun _ => true) (fun _ => 0) (fun _ => -1) (3 / 2) 0) (-1 / 4) 0 ∧
      memoryEfficientBackward (fun _ : Fin 2 => ![0, 0]) (fun _ => 0) leaveOneIndices (fun _ => true)
        (fun _ => 0) (fun _ => -1) (3 / 2) (fun _ => 1) = 0) ∧
    ∀ (split : VocabSplit 2 2) (rank : Fin 2) (leaveOneIndices : Fin 1 → Fin 2),
      HasDerivAt (fun t : ℝ => vocabParallelForward split rank (fun _ : Fin 2 => ![0, t]) (fun _ => 0)
        leaveOneIndices (fun _ => true) (fun _ => 0) (fun _ => -1) (3 / 2) 0) 1 0 ∧
      vocabParallelBackward split rank (fun _ : Fin 2 => ![0, 0]) (fun _ => 0) leaveOneIndices (fun _ => true)
        (fun _ => 0) (fun _ => -1) (3 / 2) (fun _ => 1) = 0 := by
  have singleRankRatio : ∀ t : ℝ, Real.exp (logSoftmax ![0, t] 0) = (1 + Real.exp t)⁻¹ := by
    intro t
    have sumExp : ∑ v, Real.exp (![0, t] v) = 1 + Real.exp t := by simp [Fin.sum_univ_two]
    rw [logSoftmax, sumExp, Real.exp_sub, Real.exp_log (by positivity)]
    simp
  have unclipped : ∀ ratio : ℝ, 0 < ratio → ppoTokenLoss ratio (-1) (3 / 2) = ratio := by
    intro ratio positive
    rw [ppoTokenLoss_of_neg (by norm_num) (by linarith), neg_neg, one_mul]
  refine ⟨fun leaveOneIndices => ⟨?_, memoryEfficientBackward_eq_zero ..⟩,
    fun split rank leaveOneIndices => ⟨?_, vocabParallelBackward_eq_zero ..⟩⟩
  · have closedForm : (fun t : ℝ => memoryEfficientForward (fun _ : Fin 2 => ![0, t]) (fun _ => 0)
        leaveOneIndices (fun _ => true) (fun _ => 0) (fun _ => -1) (3 / 2) 0) = fun t => (1 + Real.exp t)⁻¹ := by
      funext t
      simp only [memoryEfficientForward, ppoRatio, shiftLabels]
      simp only [dite_eq_ite, ite_self, if_true, mul_one, sub_zero, singleRankRatio]
      exact unclipped _ (by positivity)
    rw [closedForm]
    exact (((Real.hasDerivAt_exp 0).const_add 1).inv (by positivity)).congr_deriv (by norm_num)
  · have closedForm : (fun t : ℝ => vocabParallelForward split rank (fun _ : Fin 2 => ![0, t]) (fun _ => 0)
        leaveOneIndices (fun _ => true) (fun _ => 0) (fun _ => -1) (3 / 2) 0) = fun t => 1 + Real.exp t := by
      funext t
      simp only [vocabParallelForward_eq, ppoRatio, shiftLabels]
      simp only [dite_eq_ite, ite_self, if_true, mul_one, sub_zero, Real.exp_neg, singleRankRatio, inv_inv]
      exact unclipped _ (by positivity)
    rw [closedForm]
    exact ((Real.hasDerivAt_exp 0).const_add 1).congr_deriv (by norm_num)

end RealRlhf.Ppo
