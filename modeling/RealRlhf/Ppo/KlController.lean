import Mathlib.Algebra.Order.Field.Basic
import Mathlib.Algebra.Order.Field.Rat
import Mathlib.Algebra.Order.BigOperators.GroupWithZero.List
import Mathlib.Tactic.Linarith
import Mathlib.Tactic.NormNum
import RealRlhf.Ppo.Padded

namespace RealRlhf.Ppo

/-!
# The KL controllers

`AdaptiveKLController` of `impl/model/utils/ppo_functional.py` scales its coefficient at each
update by `1 + e * n_steps / horizon`, where `e` is the relative error of the measured KL against
the target, clipped to `[-0.2, 0.2]`. The bound is the double that the literal `0.2` denotes,
`3602879701896397 / 2 ^ 54`, just above `1 / 5`; the arithmetic of the update is exact on
rationals. One update moves the coefficient by at most the bound times `n_steps / horizon` of
its value (`mult_bounds`), up while the KL is above the target and down while it is below
(`one_le_mult`, `mult_le_one`). Over updates that each cover fewer than `5 * horizon` steps a
multiplier lies in `[-1, 1]` while the KL is below the target, so the coefficient moves one way
while the KL stays on one side of the target (`run_value_monotone`). `FixedKLController` keeps
its coefficient.
-/

/-- `AdaptiveKLController(init_kl_coef, target, horizon)`: its `value`, `target` and `horizon`. -/
structure AdaptiveKlController where
  value : ℚ
  target : ℚ
  horizon : ℚ
  deriving DecidableEq, Repr

namespace AdaptiveKlController

/-- The clip bound `0.2`, as the double nearest to `1 / 5`. -/
def clipBound : ℚ :=
  3602879701896397 / 18014398509481984

/-- `proportional_error = torch.clip(current / target - 1, -0.2, 0.2)`. -/
def proportionalError (ctl : AdaptiveKlController) (current : ℚ) : ℚ :=
  clip (current / ctl.target - 1) (-clipBound) clipBound

/-- `mult = 1 + proportional_error * n_steps / self.horizon`. -/
def mult (ctl : AdaptiveKlController) (current nSteps : ℚ) : ℚ :=
  1 + ctl.proportionalError current * nSteps / ctl.horizon

/-- `update(current, n_steps)`: `self.value = self.value * mult`. -/
def update (ctl : AdaptiveKlController) (current nSteps : ℚ) : AdaptiveKlController :=
  { ctl with value := ctl.value * ctl.mult current nSteps }

/-- The controller after `update(current, n_steps)` for each `(current, n_steps)` in turn. -/
def run (ctl : AdaptiveKlController) (updates : List (ℚ × ℚ)) : AdaptiveKlController :=
  updates.foldl (fun ctl update => ctl.update update.1 update.2) ctl

@[simp] theorem update_target (ctl : AdaptiveKlController) (current nSteps : ℚ) :
    (ctl.update current nSteps).target = ctl.target :=
  rfl

@[simp] theorem update_horizon (ctl : AdaptiveKlController) (current nSteps : ℚ) :
    (ctl.update current nSteps).horizon = ctl.horizon :=
  rfl

@[simp] theorem run_nil (ctl : AdaptiveKlController) :
    ctl.run [] = ctl :=
  rfl

@[simp] theorem run_cons (ctl : AdaptiveKlController) (update : ℚ × ℚ) (updates : List (ℚ × ℚ)) :
    ctl.run (update :: updates) = (ctl.update update.1 update.2).run updates :=
  rfl

variable {ctl : AdaptiveKlController} {current nSteps : ℚ}

/-- The clipped error lies in `[-0.2, 0.2]`. -/
theorem proportionalError_bounds (ctl : AdaptiveKlController) (current : ℚ) :
    -clipBound ≤ ctl.proportionalError current ∧ ctl.proportionalError current ≤ clipBound := by
  rw [proportionalError, clip]
  exact ⟨le_min (le_max_right _ _) (by norm_num [clipBound]), min_le_right _ _⟩

/-- Each update multiplies the coefficient by at most `1 + 0.2 * n_steps / horizon` and at least `1 - 0.2 * n_steps / horizon`. -/
theorem mult_bounds
    (positiveHorizon : 0 < ctl.horizon)
    (nonnegSteps : 0 ≤ nSteps) :
    1 - clipBound * (nSteps / ctl.horizon) ≤ ctl.mult current nSteps ∧
      ctl.mult current nSteps ≤ 1 + clipBound * (nSteps / ctl.horizon) := by
  obtain ⟨lower, upper⟩ := ctl.proportionalError_bounds current
  have ratio : 0 ≤ nSteps / ctl.horizon := div_nonneg nonnegSteps positiveHorizon.le
  rw [mult, mul_div_assoc, sub_eq_add_neg, ← neg_mul]
  exact ⟨add_le_add_left (mul_le_mul_of_nonneg_right lower ratio) 1,
    add_le_add_left (mul_le_mul_of_nonneg_right upper ratio) 1⟩

/-- At or above the target the error is not negative, and the coefficient does not shrink. -/
theorem one_le_mult
    (positiveTarget : 0 < ctl.target)
    (positiveHorizon : 0 < ctl.horizon)
    (nonnegSteps : 0 ≤ nSteps)
    (above : ctl.target ≤ current) :
    1 ≤ ctl.mult current nSteps := by
  have error : 0 ≤ ctl.proportionalError current := by
    refine le_min (le_max_of_le_left ?_) (by norm_num [clipBound])
    rw [sub_nonneg, one_le_div positiveTarget]
    exact above
  rw [mult, mul_div_assoc, le_add_iff_nonneg_right]
  exact mul_nonneg error (div_nonneg nonnegSteps positiveHorizon.le)

/-- At or below the target the error is not positive, and the coefficient does not grow. -/
theorem mult_le_one
    (positiveTarget : 0 < ctl.target)
    (positiveHorizon : 0 < ctl.horizon)
    (nonnegSteps : 0 ≤ nSteps)
    (below : current ≤ ctl.target) :
    ctl.mult current nSteps ≤ 1 := by
  have error : ctl.proportionalError current ≤ 0 := by
    refine min_le_of_left_le (max_le ?_ (by norm_num [clipBound]))
    rw [sub_nonpos, div_le_one positiveTarget]
    exact below
  rw [mult, mul_div_assoc, add_le_iff_nonpos_right]
  exact mul_nonpos_of_nonpos_of_nonneg error (div_nonneg nonnegSteps positiveHorizon.le)

/-- An update covering fewer than `5 * horizon` steps multiplies the coefficient by at least `-1`: five times the clip bound is `1 + 2 ^ -54`. -/
theorem neg_one_le_mult
    (positiveHorizon : 0 < ctl.horizon)
    (nonnegSteps : 0 ≤ nSteps)
    (short : nSteps < 5 * ctl.horizon) :
    -1 ≤ ctl.mult current nSteps := by
  have ratio : nSteps / ctl.horizon < 5 := (div_lt_iff₀ positiveHorizon).mpr (by linarith)
  have scaled : clipBound * (nSteps / ctl.horizon) ≤ clipBound * 5 :=
    mul_le_mul_of_nonneg_left ratio.le (by norm_num [clipBound])
  have fiveBounds : clipBound * 5 < 2 := by norm_num [clipBound]
  linarith [(@mult_bounds ctl current nSteps positiveHorizon nonnegSteps).1]

/-- A sample controller: coefficient `0.1`, target KL `6`, horizon `10000`. -/
def sample : AdaptiveKlController :=
  ⟨1 / 10, 6, 10000⟩

/-- While the KL stays at or above the target, the coefficient never shrinks. -/
theorem le_run_value_of_above
    (positiveTarget : 0 < ctl.target)
    (positiveHorizon : 0 < ctl.horizon)
    (nonnegValue : 0 ≤ ctl.value)
    {updates : List (ℚ × ℚ)}
    (nonnegSteps : ∀ update ∈ updates, 0 ≤ update.2)
    (above : ∀ update ∈ updates, ctl.target ≤ update.1) :
    ctl.value ≤ (ctl.run updates).value := by
  induction updates generalizing ctl with
  | nil => exact le_rfl
  | cons update updates inductionHypothesis =>
      have grows : ctl.value ≤ (ctl.update update.1 update.2).value :=
        le_mul_of_one_le_right nonnegValue
          (one_le_mult positiveTarget positiveHorizon (nonnegSteps _ (List.mem_cons_self _ _))
            (above _ (List.mem_cons_self _ _)))
      exact grows.trans (@inductionHypothesis (ctl.update update.1 update.2) positiveTarget positiveHorizon
        (nonnegValue.trans grows) (fun u member => nonnegSteps u (List.mem_cons_of_mem _ member))
        fun u member => above u (List.mem_cons_of_mem _ member))

/-- While the KL stays at or below the target, over updates shorter than `5 * horizon`, every multiplier lies in `[-1, 1]`, so the coefficient never grows in size. -/
theorem abs_run_value_le_of_below
    (positiveTarget : 0 < ctl.target)
    (positiveHorizon : 0 < ctl.horizon)
    {updates : List (ℚ × ℚ)}
    (shortUpdates : ∀ update ∈ updates, 0 ≤ update.2 ∧ update.2 < 5 * ctl.horizon)
    (below : ∀ update ∈ updates, update.1 ≤ ctl.target) :
    |(ctl.run updates).value| ≤ |ctl.value| := by
  induction updates generalizing ctl with
  | nil => exact le_rfl
  | cons update updates inductionHypothesis =>
      obtain ⟨nonneg, short⟩ := shortUpdates update (List.mem_cons_self _ _)
      have bounded : |ctl.mult update.1 update.2| ≤ 1 :=
        abs_le.mpr ⟨neg_one_le_mult positiveHorizon nonneg short,
          mult_le_one positiveTarget positiveHorizon nonneg (below _ (List.mem_cons_self _ _))⟩
      have shrinks : |(ctl.update update.1 update.2).value| ≤ |ctl.value| := by
        rw [AdaptiveKlController.update, abs_mul]
        exact mul_le_of_le_one_right (abs_nonneg _) bounded
      exact (@inductionHypothesis (ctl.update update.1 update.2) positiveTarget positiveHorizon
        (fun u member => shortUpdates u (List.mem_cons_of_mem _ member))
        fun u member => below u (List.mem_cons_of_mem _ member)).trans shrinks

/-- While the KL stays at or below the target, over updates shorter than `5 * horizon`, a coefficient that is not negative never grows. -/
theorem run_value_le_of_below
    (positiveTarget : 0 < ctl.target)
    (positiveHorizon : 0 < ctl.horizon)
    (nonnegValue : 0 ≤ ctl.value)
    {updates : List (ℚ × ℚ)}
    (shortUpdates : ∀ update ∈ updates, 0 ≤ update.2 ∧ update.2 < 5 * ctl.horizon)
    (below : ∀ update ∈ updates, update.1 ≤ ctl.target) :
    (ctl.run updates).value ≤ ctl.value :=
  calc (ctl.run updates).value ≤ |(ctl.run updates).value| := le_abs_self _
    _ ≤ |ctl.value| := abs_run_value_le_of_below positiveTarget positiveHorizon shortUpdates below
    _ = ctl.value := abs_of_nonneg nonnegValue

/--
Over updates that each cover fewer than `5 * horizon` steps, the coefficient never shrinks while
the measured KL stays at or above the target, and never grows while it stays at or below it.
-/
theorem run_value_monotone
    (positiveTarget : 0 < ctl.target)
    (positiveHorizon : 0 < ctl.horizon)
    (nonnegValue : 0 ≤ ctl.value)
    {updates : List (ℚ × ℚ)}
    (shortUpdates : ∀ update ∈ updates, 0 ≤ update.2 ∧ update.2 < 5 * ctl.horizon) :
    ((∀ update ∈ updates, ctl.target ≤ update.1) → ctl.value ≤ (ctl.run updates).value) ∧
      ((∀ update ∈ updates, update.1 ≤ ctl.target) → (ctl.run updates).value ≤ ctl.value) :=
  ⟨le_run_value_of_above positiveTarget positiveHorizon nonnegValue fun update member => (shortUpdates update member).1,
    run_value_le_of_below positiveTarget positiveHorizon nonnegValue shortUpdates⟩

/-- On the sample controller, two updates with the KL above the target of `6` do not lower the coefficient. -/
theorem run_value_monotone_sample :
    0 < sample.target ∧ 0 < sample.horizon ∧ 0 ≤ sample.value ∧
      (∀ update ∈ [((8 : ℚ), (512 : ℚ)), (7, 1024)], 0 ≤ update.2 ∧ update.2 < 5 * sample.horizon) ∧
      ((∀ update ∈ [((8 : ℚ), (512 : ℚ)), (7, 1024)], sample.target ≤ update.1) →
        sample.value ≤ (sample.run [(8, 512), (7, 1024)]).value) ∧
      ((∀ update ∈ [((8 : ℚ), (512 : ℚ)), (7, 1024)], update.1 ≤ sample.target) →
        (sample.run [(8, 512), (7, 1024)]).value ≤ sample.value) :=
  have target : 0 < sample.target := by norm_num [sample]
  have horizon : 0 < sample.horizon := by norm_num [sample]
  have value : 0 ≤ sample.value := by norm_num [sample]
  have short : ∀ update ∈ [((8 : ℚ), (512 : ℚ)), (7, 1024)], 0 ≤ update.2 ∧ update.2 < 5 * sample.horizon := by
    norm_num [sample]
  ⟨target, horizon, value, short, run_value_monotone target horizon value short⟩

end AdaptiveKlController

/-- `FixedKLController(kl_coef)`: its `value`. -/
structure FixedKlController where
  value : ℚ
  deriving DecidableEq, Repr

/-- `FixedKLController.update(current, n_steps)`: `pass`. -/
def FixedKlController.update (ctl : FixedKlController) (_current _nSteps : ℚ) : FixedKlController :=
  ctl

end RealRlhf.Ppo
