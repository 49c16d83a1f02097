import Mathlib.Data.List.FinRange
import RealRlhf.Base.Lists
import Mathlib.Data.Fin.VecNotation
import RealRlhf.Ppo.Gae

namespace RealRlhf.Ppo

/-!
# Padded batches against the packed path

`get_advantages_and_returns` and `compute_rewards` of `impl/model/utils/ppo_functional.py` work
on padded batches, one row of `max_seqlen - 1` steps per sequence; `_pygae1d_nolp_misalign` and
`get_packed_rewards` work on the same sequences put end to end. The batch dimension is `Fin bs`
and each row is the list of its steps, as in the packed tensors.

The padded loop runs over every row at once. Projected to one row, each of its passes is a pass of
the packed loop on that row alone (`gaeStep_row`), so the closed form of `Ppo/Gae.lean` carries
over row by row (`getAdvantagesAndReturns_eq`), and on a batch of equal lengths the two paths
return the same numbers.
-/

/-- A padded tensor of shape `[bs, width]`: one row of `width` entries for each sequence. -/
structure Padded (bs width : Nat) where
  row : Fin bs → List ℚ
  rowLength : ∀ i, (row i).length = width

/-- The rows of a batch put end to end, as the packed path lays the batch out. -/
def packRows {bs : Nat} (rows : Fin bs → List ℚ) : List ℚ :=
  (List.finRange bs).flatMap rows

/-- Row `j` of a batch, and nothing past the batch: the rows as blocks indexed by `Nat`. -/
def rowBlock {bs : Nat} (rows : Fin bs → List ℚ) (j : Nat) : List ℚ :=
  if h : j < bs then rows ⟨j, h⟩ else []

/-- Packing the rows is putting the blocks `rowBlock` together. -/
theorem packRows_eq_flatten
    {bs : Nat}
    (rows : Fin bs → List ℚ) :
    packRows rows = ((List.range bs).map (rowBlock rows)).flatten := by
  have asBlocks : (List.finRange bs).map rows = (List.finRange bs).map (rowBlock rows ∘ Fin.val) :=
    List.map_congr_left fun i _ => by simp [rowBlock]
  rw [packRows, List.flatMap_def, asBlocks, ← List.map_map, List.map_coe_finRange]

/-- Rows of equal width `w` pack into `bs * w` entries. -/
theorem length_packRows
    {bs w : Nat}
    (rows : Fin bs → List ℚ)
    (rowLength : ∀ i, (rows i).length = w) :
    (packRows rows).length = bs * w := by
  have blockLengths : ∀ j, (rowBlock rows j).length = (List.replicate bs w).getD j 0 := fun j => by
    by_cases h : j < bs <;> simp [rowBlock, h, rowLength, List.getElem?_replicate]
  have packed := length_flatten_blocks _ _ blockLengths
  rw [List.length_replicate] at packed
  rw [packRows_eq_flatten, packed]
  simp

/-- Entry `t` of row `j` of rows of equal width `w` sits at `j * w + t` of the packing. -/
theorem getD_packRows
    {bs w : Nat}
    (rows : Fin bs → List ℚ)
    (rowLength : ∀ i, (rows i).length = w)
    (j : Fin bs)
    {t : Nat}
    (inRow : t < w) :
    (packRows rows).getD (j * w + t) 0 = (rows j).getD t 0 := by
  have blockLengths : ∀ j, (rowBlock rows j).length = (List.replicate bs w).getD j 0 := fun j => by
    by_cases h : j < bs <;> simp [rowBlock, h, rowLength, List.getElem?_replicate]
  have offset : ((List.replicate bs w).take j).sum = j * w := by
    simp [List.take_replicate, Nat.min_eq_left j.isLt.le]
  have block := getD_flatten_blocks _ _ blockLengths j (by simp) t (by simpa using inRow)
  rw [List.length_replicate, offset] at block
  rw [packRows_eq_flatten, block]
  simp [rowBlock]

/-- A discounted sum reads its residuals only below `len`. -/
theorem discountedSum_congr
    {delta delta' : Nat → ℚ}
    (rho : ℚ)
    (t len : Nat)
    (agree : ∀ u < len, delta u = delta' u) :
    discountedSum delta rho t len = discountedSum delta' rho t len := by
  unfold discountedSum
  exact congrArg List.sum (List.map_congr_left fun k mem => by
    rw [agree (t + k) (by simp at mem; omega)])

/-! ## The padded loop -/

/-- The loop state of `get_advantages_and_returns`: the rows of `values`, written through `nextvalues`, `lastgaelam` of every row, and `advantages_reversed`, one column per pass. -/
structure PaddedGaeState (bs : Nat) where
  values : Fin bs → List ℚ
  lastgaelam : Fin bs → ℚ
  advantagesReversed : List (Fin bs → ℚ)

/-- Row `i` of the padded loop state as a state of the packed loop on that row alone, with `returns_reversed` supplied. -/
def PaddedGaeState.row {bs : Nat} (state : PaddedGaeState bs) (i : Fin bs) (returnsReversed : List ℚ) :
    GaeState × ℚ :=
  (⟨state.values i, state.advantagesReversed.map (· i), returnsReversed⟩, state.lastgaelam i)

section PaddedLoop

variable {bs : Nat} (rewards : Fin bs → List ℚ) (seqNoEosMask : Fin bs → ℚ) (gamma lam : ℚ) (length : Nat)

/-- Pass `t` of `for t in reversed(range(length))` on every row at once; at `t = length - 1`, `nextvalues *= seq_no_eos_mask` scales column `t + 1` of `values` in place. -/
def paddedGaeStep (state : PaddedGaeState bs) (t : Nat) : PaddedGaeState bs :=
  let values :=
    if t = length - 1 then fun i => (state.values i).modify (· * seqNoEosMask i) (t + 1) else state.values
  let nextvalues := fun i => (values i).getD (t + 1) 0
  let delta := fun i => (rewards i).getD t 0 + gamma * nextvalues i - (values i).getD t 0
  let lastgaelam := fun i => delta i + gamma * lam * state.lastgaelam i
  ⟨values, lastgaelam, state.advantagesReversed ++ [lastgaelam]⟩

/-- Projected to row `i`, a pass of the padded loop is the pass of the packed loop on that row, with offsets `0`. -/
theorem gaeStep_row
    (state : PaddedGaeState bs)
    (i : Fin bs)
    (returnsReversed : List ℚ)
    (t : Nat) :
    gaeStep (rewards i) (seqNoEosMask i) gamma lam 0 0 length (state.row i returnsReversed) t =
      (paddedGaeStep rewards seqNoEosMask gamma lam length state t).row i
        (returnsReversed ++ [(paddedGaeStep rewards seqNoEosMask gamma lam length state t).lastgaelam i +
          ((paddedGaeStep rewards seqNoEosMask gamma lam length state t).values i).getD t 0]) := by
  by_cases last : t = length - 1 <;>
    simp only [gaeStep, paddedGaeStep, PaddedGaeState.row, last, ↓reduceIte, zero_add, List.getD_eq_getElem?_getD,
      List.getElem?_modify_eq, Option.map_eq_map, ne_eq, add_right_eq_self, one_ne_zero, not_false_eq_true,
      List.getElem?_modify_ne, List.map_append, List.map_cons, List.map_nil]

/-- Projected to row `i`, the padded loop over any passes is the packed loop over the same passes on that row. -/
theorem foldl_gaeStep_row
    (i : Fin bs) :
    ∀ (ts : List Nat) (state : PaddedGaeState bs) (returnsReversed : List ℚ), ∃ returnsReversed',
      ts.foldl (gaeStep (rewards i) (seqNoEosMask i) gamma lam 0 0 length) (state.row i returnsReversed) =
        (ts.foldl (paddedGaeStep rewards seqNoEosMask gamma lam length) state).row i returnsReversed'
  | [], _, returnsReversed => ⟨returnsReversed, rfl⟩
  | t :: ts, state, returnsReversed => by
      rw [List.foldl_cons, gaeStep_row, List.foldl_cons]
      exact foldl_gaeStep_row i ts _ _

/-- Each pass appends one column and keeps every row of `values` at its length. -/
theorem foldl_paddedGaeStep_shape :
    ∀ (ts : List Nat) (state : PaddedGaeState bs),
      (ts.foldl (paddedGaeStep rewards seqNoEosMask gamma lam length) state).advantagesReversed.length =
          state.advantagesReversed.length + ts.length ∧
        ∀ i, ((ts.foldl (paddedGaeStep rewards seqNoEosMask gamma lam length) state).values i).length =
          (state.values i).length
  | [], _ => ⟨rfl, fun _ => rfl⟩
  | t :: ts, state => by
      obtain ⟨columns, rows⟩ := foldl_paddedGaeStep_shape ts (paddedGaeStep rewards seqNoEosMask gamma lam length state t)
      refine ⟨by rw [List.foldl_cons, columns]; simp [paddedGaeStep]; omega, fun i => (rows i).trans ?_⟩
      by_cases last : t = length - 1 <;> simp only [paddedGaeStep, last, ↓reduceIte, List.length_modify]

/-- Over the whole loop, row `i` collects the advantages of the packed closed form with offsets `0`, and its `values` keep their entries below `length`. -/
theorem foldl_paddedGaeStep_closed_form
    (values : Fin bs → List ℚ)
    (i : Fin bs) :
    ((List.range length).reverse.foldl (paddedGaeStep rewards seqNoEosMask gamma lam length)
        ⟨values, fun _ => 0, []⟩).advantagesReversed.map (· i) =
        (List.range length).reverse.map (gaeAdvantage (rewards i) (values i) (seqNoEosMask i) gamma lam 0 0 length) ∧
      ∀ k < length, (((List.range length).reverse.foldl (paddedGaeStep rewards seqNoEosMask gamma lam length)
        ⟨values, fun _ => 0, []⟩).values i).getD k 0 = (values i).getD k 0 := by
  obtain ⟨returnsReversed', projected⟩ :=
    foldl_gaeStep_row rewards seqNoEosMask gamma lam length i (List.range length).reverse ⟨values, fun _ => 0, []⟩ []
  obtain ⟨values', packed, kept⟩ :=
    foldl_gaeStep_sequence (rewards i) (values i) (seqNoEosMask i) gamma lam 0 0 length ⟨values i, [], []⟩
      fun _ _ => rfl
  have rows := congrArg Prod.fst projected
  simp only [PaddedGaeState.row, List.map_nil] at rows
  rw [packed] at rows
  simp only [GaeState.mk.injEq, List.nil_append] at rows
  exact ⟨rows.2.1.symm, fun k below => by rw [← rows.1]; exact kept k (by omega)⟩

end PaddedLoop

/--
`get_advantages_and_returns(gamma, lam, values, rewards, seq_no_eos_mask)`; `none` where the
assertion on the shapes fails or `torch.stack` meets an empty list.
-/
def getAdvantagesAndReturns {bs valuesWidth length : Nat} (gamma lam : ℚ) (values : Padded bs valuesWidth)
    (rewards : Padded bs length) (seqNoEosMask : Fin bs → ℚ) : Option ((Fin bs → List ℚ) × (Fin bs → List ℚ)) := do
  guard (valuesWidth = length + 1)
  let final := (List.range length).reverse.foldl (paddedGaeStep rewards.row seqNoEosMask gamma lam length)
    ⟨values.row, fun _ => 0, []⟩
  guard (!final.advantagesReversed.isEmpty)
  let advantages := fun i => final.advantagesReversed.reverse.map (· i)
  pure (advantages, fun i => (advantages i).zipWith (· + ·) (final.values i).dropLast)

/-- Adding a list of `n` entries to the map of `f` over `range n` adds entry by entry. -/
theorem zipWith_add_map_range
    (f : Nat → ℚ)
    {n : Nat}
    (l : List ℚ)
    (lLength : l.length = n) :
    ((List.range n).map f).zipWith (· + ·) l = (List.range n).map fun t => f t + l.getD t 0 := by
  apply List.ext_getElem (by simp [lLength])
  intro t inZip _
  simp only [List.length_zipWith, List.length_map, List.length_range] at inZip
  simp [List.getElem?_eq_getElem (show t < l.length by omega)]

/--
With `values` one column wider than `rewards` and some step, `get_advantages_and_returns`
returns, in row `i`, the packed closed form on that row alone, with offsets `0` and
`seq_no_eos_mask[i]` as the bootstrap flag, and as returns those plus the original `values[i, t]`.
-/
theorem getAdvantagesAndReturns_some
    {bs valuesWidth length : Nat}
    (gamma lam : ℚ)
    (values : Padded bs valuesWidth)
    (rewards : Padded bs length)
    (seqNoEosMask : Fin bs → ℚ)
    (width : valuesWidth = length + 1)
    (someStep : 0 < length) :
    getAdvantagesAndReturns gamma lam values rewards seqNoEosMask =
      some (fun i => (List.range length).map
          (gaeAdvantage (rewards.row i) (values.row i) (seqNoEosMask i) gamma lam 0 0 length),
        fun i => (List.range length).map fun t =>
          gaeAdvantage (rewards.row i) (values.row i) (seqNoEosMask i) gamma lam 0 0 length t + (values.row i).getD t 0) := by
  obtain ⟨columns, rowLengths⟩ := foldl_paddedGaeStep_shape rewards.row seqNoEosMask gamma lam length
    (List.range length).reverse ⟨values.row, fun _ => 0, []⟩
  have closed := foldl_paddedGaeStep_closed_form rewards.row seqNoEosMask gamma lam length values.row
  simp only [getAdvantagesAndReturns, width, guard, if_true, Option.pure_def, Option.bind_eq_bind, Option.some_bind]
  set final := (List.range length).reverse.foldl (paddedGaeStep rewards.row seqNoEosMask gamma lam length)
    ⟨values.row, fun _ => 0, []⟩
  have someColumn : final.advantagesReversed.isEmpty = false := by
    rw [Bool.eq_false_iff, ne_eq, List.isEmpty_iff, ← List.length_eq_zero, columns]
    simp [Nat.pos_iff_ne_zero.mp someStep]
  have advantages : ∀ i, final.advantagesReversed.reverse.map (· i) =
      (List.range length).map (gaeAdvantage (rewards.row i) (values.row i) (seqNoEosMask i) gamma lam 0 0 length) :=
    fun i => by rw [List.map_reverse, (closed i).1, ← List.map_reverse, List.reverse_reverse]
  simp only [someColumn, Bool.not_false, if_true, Option.some_bind, advantages]
  refine congrArg some (Prod.ext rfl (funext fun i => ?_))
  dsimp only
  rw [zipWith_add_map_range _ _ (by simp [rowLengths i, values.rowLength i, width])]
  refine List.map_congr_left fun t mem => ?_
  rw [List.mem_range] at mem
  rw [List.getD_eq_getElem?_getD, List.getElem?_dropLast, if_pos (by simp [rowLengths i, values.rowLength i, width, mem]),
    ← List.getD_eq_getElem?_getD, (closed i).2 t mem]

/--
`get_advantages_and_returns` answers exactly when `values` has one column more than `rewards`
and there is some step; then row `i` of the advantages is the packed closed form on that row
alone, with offsets `0` and `seq_no_eos_mask[i]` as the bootstrap flag, and the returns add the
original `values[i, t]`.
-/
theorem getAdvantagesAndReturns_eq
    {bs valuesWidth length : Nat}
    (gamma lam : ℚ)
    (values : Padded bs valuesWidth)
    (rewards : Padded bs length)
    (seqNoEosMask : Fin bs → ℚ) :
    getAdvantagesAndReturns gamma lam values rewards seqNoEosMask =
      if valuesWidth = length + 1 ∧ 0 < length then
        some (fun i => (List.range length).map
            (gaeAdvantage (rewards.row i) (values.row i) (seqNoEosMask i) gamma lam 0 0 length),
          fun i => (List.range length).map fun t =>
            gaeAdvantage (rewards.row i) (values.row i) (seqNoEosMask i) gamma lam 0 0 length t + (values.row i).getD t 0)
      else none := by
  split_ifs with shape
  · exact getAdvantagesAndReturns_some gamma lam values rewards seqNoEosMask shape.1 shape.2
  · by_cases width : valuesWidth = length + 1
    · -- no step: `torch.stack` meets an empty list
      obtain rfl : length = 0 := by omega
      simp [getAdvantagesAndReturns, width]
    · simp [getAdvantagesAndReturns, width]

/-! ## The padded loop against the packed one -/

/-- Under the assumptions of the packed closed form, `_pygae1d_nolp_misalign` returns the sequences' advantages and returns block after block. -/
theorem pygae1dNolpMisalign_eq_blocks
    (lengths : List Nat)
    (rewards values bootstrap : List ℚ)
    (gamma lam : ℚ)
    (someReward : 0 < lengths.sum)
    (rewardsLength : rewards.length = lengths.sum)
    (valuesLength : values.length = lengths.sum + lengths.length)
    (flags : lengths.length ≤ bootstrap.length) :
    pygae1dNolpMisalign rewards values (short1cuSeqlens lengths) bootstrap gamma lam =
      some (((List.range lengths.length).map (sequenceAdvantages rewards values bootstrap gamma lam lengths)).flatten,
        ((List.range lengths.length).map (sequenceReturns rewards values bootstrap gamma lam lengths)).flatten) := by
  obtain ⟨values', run⟩ := foldlM_gaeSequence rewards values bootstrap gamma lam lengths flags lengths.length le_rfl
    ⟨values, [], []⟩ fun _ _ => rfl
  have advantagesLength := length_flatten_blocks (sequenceAdvantages rewards values bootstrap gamma lam lengths) lengths
    fun j => by simp [sequenceAdvantages]
  have someAdvantage : ∃ i < lengths.length, sequenceAdvantages rewards values bootstrap gamma lam lengths i ≠ [] := by
    by_contra noAdvantage
    push_neg at noAdvantage
    have empty : ((List.range lengths.length).map (sequenceAdvantages rewards values bootstrap gamma lam lengths)).flatten =
        [] := List.flatten_eq_nil_iff.mpr (by simpa using noAdvantage)
    rw [empty] at advantagesLength
    simp at advantagesLength
    omega
  simp only [pygae1dNolpMisalign, length_short1cuSeqlens, Nat.add_sub_cancel]
  simp [rewardsLength, valuesLength, run, someAdvantage, List.reverse_flatten, List.map_reverse, Function.comp_def]

/-- Step `t` of sequence `j` of a packed batch of equal lengths has the advantage of row `j` on its own. -/
theorem gaeAdvantage_packRows
    {bs length : Nat}
    (values : Padded bs (length + 1))
    (rewards : Padded bs length)
    (bootstrap gamma lam : ℚ)
    (j : Fin bs)
    (t : Nat) :
    gaeAdvantage (packRows rewards.row) (packRows values.row) bootstrap gamma lam (j * length) (j * length + j) length t =
      gaeAdvantage (rewards.row j) (values.row j) bootstrap gamma lam 0 0 length t := by
  refine discountedSum_congr _ _ _ fun u below => ?_
  have nextValue : j * length + j + u + 1 = j * (length + 1) + (u + 1) := by ring
  have value : j * length + j + u = j * (length + 1) + u := by ring
  simp only [gaeDelta, Nat.zero_add]
  rw [getD_packRows _ rewards.rowLength j below, nextValue, getD_packRows _ values.rowLength j (by omega), value,
    getD_packRows _ values.rowLength j (by omega)]

/--
On a batch of `bs > 0` sequences of `length > 0` steps each, packing the rows and running
`_pygae1d_nolp_misalign` with `short1cu_seqlens` of the lengths and `seq_no_eos_mask` as the
bootstrap flags gives the advantages and returns of `get_advantages_and_returns`, packed.
-/
theorem pygae1dNolpMisalign_packRows
    {bs length : Nat}
    (gamma lam : ℚ)
    (values : Padded bs (length + 1))
    (rewards : Padded bs length)
    (seqNoEosMask : Fin bs → ℚ)
    (someSequence : 0 < bs)
    (someStep : 0 < length) :
    ∃ advantages returns,
      getAdvantagesAndReturns gamma lam values rewards seqNoEosMask = some (advantages, returns) ∧
        pygae1dNolpMisalign (packRows rewards.row) (packRows values.row) (short1cuSeqlens (List.replicate bs length))
            ((List.finRange bs).map seqNoEosMask) gamma lam =
          some (packRows advantages, packRows returns) := by
  refine ⟨_, _, getAdvantagesAndReturns_some gamma lam values rewards seqNoEosMask rfl someStep, ?_⟩
  have offsets : ∀ j : Fin bs, ((List.replicate bs length).take j).sum = j * length ∧
      (List.replicate bs length).getD j 0 = length ∧ ((List.finRange bs).map seqNoEosMask).getD j 0 = seqNoEosMask j :=
    fun j => ⟨by simp [List.take_replicate, Nat.min_eq_left j.isLt.le], by simp [List.getElem?_replicate],
      by simp [List.getD_eq_getElem?_getD]⟩
  rw [pygae1dNolpMisalign_eq_blocks _ _ _ _ _ _ (by simp [Nat.mul_pos someSequence someStep])
      (by simp [length_packRows _ rewards.rowLength]) (by simp [length_packRows _ values.rowLength, Nat.mul_succ])
      (by simp)]
  rw [List.length_replicate]
  conv_rhs => rw [packRows_eq_flatten, packRows_eq_flatten]
  refine congrArg some (Prod.ext (congrArg List.flatten (List.map_congr_left fun j mem => ?_))
    (congrArg List.flatten (List.map_congr_left fun j mem => ?_)))
  all_goals
    rw [List.mem_range] at mem
    obtain ⟨offset, stepCount, bootstrap⟩ := offsets ⟨j, mem⟩
    simp only [sequenceAdvantages, sequenceReturns, rowBlock, dif_pos mem, offset, stepCount, bootstrap]
    refine List.map_congr_left fun t step => ?_
  · exact gaeAdvantage_packRows values rewards _ gamma lam ⟨j, mem⟩ t
  · rw [List.mem_range] at step
    have value : j * length + j + t = j * (length + 1) + t := by ring
    rw [value, getD_packRows _ values.rowLength ⟨j, mem⟩ (by omega)]
    exact congrArg (· + _) (gaeAdvantage_packRows values rewards _ gamma lam ⟨j, mem⟩ t)

/-- The agreement on a batch of two sequences of two steps, the first bootstrapped and the second not. -/
theorem pygae1dNolpMisalign_packRows_two_sequences :
    0 < 2 ∧ 0 < 2 ∧ ∃ advantages returns,
      getAdvantagesAndReturns (1 / 2) (1 / 2) (⟨![[0, 1, 2], [3, 4, 5]], by decide⟩ : Padded 2 3)
          (⟨![[1, 1], [2, 0]], by decide⟩ : Padded 2 2) ![1, 0] = some (advantages, returns) ∧
        pygae1dNolpMisalign (packRows ![[1, 1], [2, 0]]) (packRows ![[0, 1, 2], [3, 4, 5]])
            (short1cuSeqlens (List.replicate 2 2)) ((List.finRange 2).map ![1, 0]) (1 / 2) (1 / 2) =
          some (packRows advantages, packRows returns) :=
  ⟨by decide, by decide, pygae1dNolpMisalign_packRows _ _ _ _ _ (by decide) (by decide)⟩

/-! ## Rewards -/

/-- `torch.clamp(x, lo, hi)`, which `Tensor.clip` also is, on rationals. -/
def clip (x lo hi : ℚ) : ℚ :=
  min (max x lo) hi

/--
`compute_rewards(kl_ctl, clip_reward_value, log_probs, ref_log_probs, reward_score, eos_indices,
seq_no_eos_mask)` on a padded batch, EOS indices being token positions; `none` where `scatter_`
meets an index `eos_indices[i] - 1` outside the row.
-/
def computeRewards {bs width : Nat} (klCtl clipRewardValue : ℚ) (logProbs refLogProbs : Padded bs width)
    (rewardScore : Fin bs → ℚ) (eosIndices : Fin bs → Nat) (seqNoEosMask : Fin bs → ℚ) :
    Option ((Fin bs → List ℚ) × (Fin bs → List ℚ)) := do
  let klRewards := fun i =>
    ((logProbs.row i).zipWith (fun lp ref => -klCtl * (lp - ref)) (refLogProbs.row i)).mapIdx fun j r =>
      if eosIndices i ≤ j then 0 else r
  let rewardClip := fun i => clip (rewardScore i) (-clipRewardValue) clipRewardValue
  guard (∀ i, 0 < eosIndices i ∧ eosIndices i ≤ width)
  let scoreRewards := fun i => (List.range width).map fun j =>
    (if j = eosIndices i - 1 then rewardClip i else 0) * (1 - seqNoEosMask i)
  pure (klRewards, fun i => (klRewards i).zipWith (· + ·) (scoreRewards i))

/-- Python's index `k` into `n` entries: a negative index counts from the end; `none` is the `IndexError`. -/
def pythonIndex (n : Nat) (k : Int) : Option Nat :=
  if 0 ≤ k ∧ k < n then some k.toNat else if -(n : Int) ≤ k ∧ k < 0 then some (k + n).toNat else none

/--
`get_packed_rewards(kl_ctl, clip_reward_value, log_probs, ref_log_probs, reward_score,
short1cu_seqlens, seq_no_eos_mask)`; `none` where an index `short1cu_seqlens[i + 1] - 1` falls
outside `tot_rewards`. The indexed `+=` reads every indexed entry before it writes any, and
writes in index order, so of two equal indices the later one wins.
-/
def getPackedRewards (klCtl clipRewardValue : ℚ) (logProbs refLogProbs rewardScore : List ℚ)
    (short1cuSeqlens : List Nat) (seqNoEosMask : List Bool) : Option (List ℚ × List ℚ) := do
  let totRewards := logProbs.zipWith (fun lp ref => -klCtl * (lp - ref)) refLogProbs
  let klRewards := totRewards
  let rewardScore := rewardScore.map fun score => clip score (-clipRewardValue) clipRewardValue
  let indices ← short1cuSeqlens.tail.mapM fun (c : Nat) => pythonIndex totRewards.length ((c : Int) - 1)
  let increments := seqNoEosMask.zipWith (fun noEos score => if noEos then 0 else score) rewardScore
  pure (klRewards, (indices.zip increments).foldl
    (fun rewards (k, increment) => rewards.set k (totRewards.getD k 0 + increment)) totRewards)

/-- An index in range reads where it points. -/
theorem pythonIndex_of_lt
    {n k : Nat}
    (below : k < n) :
    pythonIndex n k = some k := by
  rw [pythonIndex, if_pos (by omega)]
  rfl

/-- `short1cu_seqlens` is `0` followed by the sums of the first `j + 1` lengths. -/
theorem scanl_add_eq :
    ∀ (lengths : List Nat) (start : Nat),
      lengths.scanl (· + ·) start = start :: (List.range lengths.length).map fun j => start + (lengths.take (j + 1)).sum
  | [], _ => rfl
  | length :: lengths, start => by
      rw [List.scanl_cons, scanl_add_eq lengths, List.length_cons, List.range_succ_eq_map]
      simp [Nat.add_assoc]

/-- Writing position `Σ_{j<i} R_j + t` of blocks put together writes entry `t` of block `i`. -/
theorem set_flatten_blocks
    (blocks : Nat → List ℚ)
    (a : ℚ) :
    ∀ (lengths : List Nat), (∀ j, (blocks j).length = lengths.getD j 0) →
      ∀ i < lengths.length, ∀ t < lengths.getD i 0,
        ((List.range lengths.length).map blocks).flatten.set ((lengths.take i).sum + t) a =
          ((List.range lengths.length).map fun j => if j = i then (blocks j).set t a else blocks j).flatten
  | [], _, _, beyond, _, _ => absurd beyond (Nat.not_lt_zero _)
  | length :: lengths, blockLengths, 0, _, t, step => by
      rw [List.length_cons, List.range_succ_eq_map, List.map_cons, List.flatten_cons, List.map_cons,
        List.flatten_cons, List.take_zero, List.sum_nil, Nat.zero_add,
        List.set_append_left _ _ (by simpa [blockLengths 0] using step)]
      simp [Function.comp_def]
  | length :: lengths, blockLengths, i + 1, below, t, step => by
      rw [List.length_cons, List.range_succ_eq_map, List.map_cons, List.flatten_cons, List.map_cons,
        List.flatten_cons, List.map_map, List.map_map, List.set_append_right _ _ (by simp [blockLengths 0]; omega)]
      simp only [List.take_succ_cons, List.sum_cons, blockLengths 0, List.getD_cons_zero]
      rw [show length + (lengths.take i).sum + t - length = (lengths.take i).sum + t by omega,
        set_flatten_blocks (blocks ∘ Nat.succ) a lengths (fun j => blockLengths (j + 1)) i
          (by simpa using below) t (by simpa using step)]
      simp [Function.comp_def]

section LastEntries

variable (blocks : Nat → List ℚ) (increment : Nat → ℚ) (lengths : List Nat)

/-- Block `j` with `increment j` added to its last entry. -/
def addToLast (j : Nat) : List ℚ :=
  (blocks j).set (lengths.getD j 0 - 1) ((blocks j).getD (lengths.getD j 0 - 1) 0 + increment j)

/--
Writing, for each of the first `m` blocks, the entry before the next block's offset with the
packing's own entry plus `increment j`, as `tot_rewards[short1cu_seqlens[1:] - 1] += ...` does,
adds each increment to the last entry of its own block when no block is empty.
-/
theorem foldl_set_last_blocks
    (blockLengths : ∀ j, (blocks j).length = lengths.getD j 0)
    (nonempty : ∀ j < lengths.length, 0 < lengths.getD j 0) :
    ∀ m ≤ lengths.length,
      ((List.range m).map fun j => ((lengths.take (j + 1)).sum - 1, increment j)).foldl
          (fun rewards (k, v) => rewards.set k (((List.range lengths.length).map blocks).flatten.getD k 0 + v))
          ((List.range lengths.length).map blocks).flatten =
        ((List.range lengths.length).map fun j =>
          if j < m then addToLast blocks increment lengths j else blocks j).flatten
  | 0, _ => by simp
  | m + 1, within => by
      have earlier := foldl_set_last_blocks blockLengths nonempty m (by omega)
      have lastOffset : (lengths.take (m + 1)).sum - 1 = (lengths.take m).sum + (lengths.getD m 0 - 1) := by
        have := nonempty m within
        rw [List.sum_take_succ _ _ within, ← List.getD_eq_getElem _ 0 within]
        omega
      have lastEntry := getD_flatten_blocks blocks lengths blockLengths m within (lengths.getD m 0 - 1)
        (by have := nonempty m within; omega)
      have updatedLengths : ∀ j, (if j < m then addToLast blocks increment lengths j else blocks j).length =
          lengths.getD j 0 := fun j => by
        by_cases before : j < m <;> simp [before, addToLast, blockLengths]
      rw [List.range_succ, List.map_append, List.foldl_append, earlier, List.map_singleton, List.foldl_cons,
        List.foldl_nil]
      dsimp only
      rw [lastOffset, lastEntry, set_flatten_blocks _ _ lengths updatedLengths m within _ (by have := nonempty m within; omega)]
      refine congrArg List.flatten (List.map_congr_left fun j _ => ?_)
      by_cases current : j = m
      · simp [current, addToLast]
      · simp only [current, if_false]
        by_cases before : j < m <;> simp [before, show j < m + 1 ↔ j < m by omega]

end LastEntries

/-- Combining two packings of blocks of equal lengths entry by entry combines them block by block. -/
theorem zipWith_flatten_blocks
    (f : ℚ → ℚ → ℚ)
    (left right : Nat → List ℚ) :
    ∀ n, (∀ j < n, (left j).length = (right j).length) →
      ((List.range n).map left).flatten.zipWith f ((List.range n).map right).flatten =
        ((List.range n).map fun j => (left j).zipWith f (right j)).flatten
  | 0, _ => rfl
  | n + 1, sameLengths => by
      have prefixLengths : ((List.range n).map left).flatten.length = ((List.range n).map right).flatten.length := by
        simp only [List.length_flatten, List.map_map]
        exact congrArg List.sum (List.map_congr_left fun j mem => sameLengths j (by simp at mem; omega))
      rw [List.range_succ, List.map_append, List.map_append, List.map_append, List.flatten_append, List.flatten_append,
        List.flatten_append, List.zipWith_append _ _ _ _ _ prefixLengths,
        zipWith_flatten_blocks f left right n fun j below => sameLengths j (by omega)]
      simp

/-- Combining two packed batches with rows of equal lengths entry by entry combines them row by row. -/
theorem zipWith_packRows
    {bs : Nat}
    (f : ℚ → ℚ → ℚ)
    (left right : Fin bs → List ℚ)
    (sameLengths : ∀ i, (left i).length = (right i).length) :
    (packRows left).zipWith f (packRows right) = packRows fun i => (left i).zipWith f (right i) := by
  rw [packRows_eq_flatten, packRows_eq_flatten, packRows_eq_flatten,
    zipWith_flatten_blocks f _ _ bs fun j below => by simp [rowBlock, below, sameLengths]]
  exact congrArg List.flatten (List.map_congr_left fun j _ => by by_cases below : j < bs <;> simp [rowBlock, below])

/-- Zeroing a row from entry `n` on leaves its first `n` entries. -/
theorem take_mapIdx_zero_from
    (l : List ℚ)
    (n : Nat) :
    (l.mapIdx fun j r => if n ≤ j then 0 else r).take n = l.take n := by
  refine List.ext_getElem? fun j => ?_
  by_cases before : j < n <;> simp [List.getElem?_take, List.getElem?_mapIdx, before, Nat.not_le.mpr]

/-- Past entry `n`, a row zeroed from `n` on reads `0`. -/
theorem getD_mapIdx_zero_from
    (l : List ℚ)
    {n j : Nat}
    (after : n ≤ j) :
    (l.mapIdx fun j r => if n ≤ j then 0 else r).getD j 0 = 0 := by
  cases entry : l[j]? <;> simp [List.getD_eq_getElem?_getD, List.getElem?_mapIdx, entry, after]

/-- The first `L` entries of a row plus a score row holding `score * scale` at `L - 1` are the row's first `L` entries with that added to the last. -/
theorem take_add_scoreRow
    (kl : List ℚ)
    (score scale : ℚ)
    {L width : Nat}
    (klLength : kl.length = width)
    (nonempty : 0 < L)
    (within : L ≤ width) :
    (kl.zipWith (· + ·) ((List.range width).map fun j => (if j = L - 1 then score else 0) * scale)).take L =
      (kl.take L).set (L - 1) ((kl.take L).getD (L - 1) 0 + score * scale) := by
  refine List.ext_getElem (by simp only [List.length_take, List.length_set, List.length_zipWith, List.length_map,
    List.length_range, klLength]; omega) fun j _ inRight => ?_
  have before : j < L := by simp only [List.length_set, List.length_take] at inRight; omega
  rw [List.getElem_take, List.getElem_zipWith, List.getElem_map, List.getElem_range, List.getElem_set,
    List.getElem_take]
  split_ifs with last same
  · subst last
    rw [List.getD_eq_getElem _ _ (by simp only [List.length_take]; omega), List.getElem_take]
  · omega
  · omega
  · simp

/-- Past the last entry of a row of `L` entries, a zeroed row plus a score row at `L - 1` stays zero. -/
theorem getD_zipWith_scoreRow_of_le
    {kl : List ℚ}
    {score scale : ℚ}
    {L width j : Nat}
    (klZero : kl.getD j 0 = 0)
    (nonempty : 0 < L)
    (after : L ≤ j) :
    (kl.zipWith (· + ·) ((List.range width).map fun j => (if j = L - 1 then score else 0) * scale)).getD j 0 = 0 := by
  rw [List.getD_eq_getElem?_getD] at klZero ⊢
  rw [List.getElem?_zipWith]
  cases entry : kl[j]? with
  | none => rfl
  | some a =>
      rw [entry, Option.getD_some] at klZero
      by_cases inRow : j < width
      · simp [List.getElem?_range inRow, klZero, show j ≠ L - 1 by omega]
      · simp [List.getElem?_eq_none (by simpa using inRow : (List.range width).length ≤ j)]

/-- With no empty sequence, `short1cu_seqlens[1:] - 1` indexes the last entry of each sequence of the packing. -/
theorem mapM_pythonIndex_short1cuSeqlens
    {lengths : List Nat}
    {n : Nat}
    (nonempty : ∀ j < lengths.length, 0 < lengths.getD j 0)
    (total : n = lengths.sum) :
    (short1cuSeqlens lengths).tail.mapM (fun (c : Nat) => pythonIndex n ((c : Int) - 1)) =
      some ((List.range lengths.length).map fun j => (lengths.take (j + 1)).sum - 1) := by
  have succeeds : ∀ c ∈ (List.range lengths.length).map (fun j => 0 + (lengths.take (j + 1)).sum),
      pythonIndex n ((c : Int) - 1) = some (c - 1) := by
    intro c mem
    obtain ⟨j, below, rfl⟩ := List.mem_map.mp mem
    rw [List.mem_range] at below
    have reaches : 0 < (lengths.take (j + 1)).sum := by
      have := nonempty j below
      rw [List.sum_take_succ _ _ below, ← List.getD_eq_getElem _ 0 below]
      omega
    have fits : (lengths.take (j + 1)).sum ≤ lengths.sum := by
      have := List.sum_take_add_sum_drop lengths (j + 1)
      omega
    rw [show ((0 + (lengths.take (j + 1)).sum : Nat) : Int) - 1 = (((lengths.take (j + 1)).sum - 1 : Nat) : Int) by
      omega, pythonIndex_of_lt (by omega), Nat.zero_add]
  rw [short1cuSeqlens, scanl_add_eq, List.tail_cons, mapM_eq_some_map succeeds]
  simp [Function.comp_def]

/--
On a padded batch whose every EOS index `e_i` lies in `1 ≤ e_i ≤ width`, cutting each row at
its EOS and packing the rows, with the lengths `e_i` as `short1cu_seqlens` and the no-EOS flags as
booleans, `get_packed_rewards` returns the KL and total rewards of `compute_rewards`, each row cut
at its EOS and packed; past the EOS, `compute_rewards` leaves both rows at `0`.
-/
theorem getPackedRewards_packRows
    {bs width : Nat}
    (klCtl clipRewardValue : ℚ)
    (logProbs refLogProbs : Padded bs width)
    (rewardScore : Fin bs → ℚ)
    (eosIndices : Fin bs → Nat)
    (seqNoEos : Fin bs → Bool)
    (afterStart : ∀ i, 0 < eosIndices i)
    (withinRow : ∀ i, eosIndices i ≤ width) :
    ∃ klRewards totRewards,
      computeRewards klCtl clipRewardValue logProbs refLogProbs rewardScore eosIndices
          (fun i => if seqNoEos i then 1 else 0) = some (klRewards, totRewards) ∧
        getPackedRewards klCtl clipRewardValue (packRows fun i => (logProbs.row i).take (eosIndices i))
            (packRows fun i => (refLogProbs.row i).take (eosIndices i)) ((List.finRange bs).map rewardScore)
            (short1cuSeqlens ((List.finRange bs).map eosIndices)) ((List.finRange bs).map seqNoEos) =
          some (packRows fun i => (klRewards i).take (eosIndices i),
            packRows fun i => (totRewards i).take (eosIndices i)) ∧
        ∀ i j, eosIndices i ≤ j → (klRewards i).getD j 0 = 0 ∧ (totRewards i).getD j 0 = 0 := by
  set klRow : Fin bs → List ℚ := fun i =>
    ((logProbs.row i).zipWith (fun lp ref => -klCtl * (lp - ref)) (refLogProbs.row i)).mapIdx fun j r =>
      if eosIndices i ≤ j then 0 else r
  set increment : Fin bs → ℚ := fun i =>
    clip (rewardScore i) (-clipRewardValue) clipRewardValue * (1 - if seqNoEos i then 1 else 0)
  have padded : computeRewards klCtl clipRewardValue logProbs refLogProbs rewardScore eosIndices
      (fun i => if seqNoEos i then 1 else 0) = some (klRow, fun i => (klRow i).zipWith (· + ·)
        ((List.range width).map fun j => (if j = eosIndices i - 1 then clip (rewardScore i) (-clipRewardValue)
          clipRewardValue else 0) * (1 - if seqNoEos i then 1 else 0))) := by
    simp [computeRewards, afterStart, withinRow, klRow]
  refine ⟨_, _, padded, ?_, fun i j after => ⟨getD_mapIdx_zero_from _ after, ?_⟩⟩
  swap
  · exact getD_zipWith_scoreRow_of_le (getD_mapIdx_zero_from _ after) (afterStart i) after
  set lengths := (List.finRange bs).map eosIndices
  have lengthsLength : lengths.length = bs := by simp [lengths]
  have lengthAt : ∀ j (h : j < bs), lengths.getD j 0 = eosIndices ⟨j, h⟩ := fun j h => by
    simp [lengths, List.getD_eq_getElem?_getD, h]
  have klLength : ∀ i, (klRow i).length = width := fun i => by
    simp [klRow, logProbs.rowLength, refLogProbs.rowLength]
  set cutRow : Fin bs → List ℚ := fun i => (klRow i).take (eosIndices i)
  have blockLengths : ∀ j, (rowBlock cutRow j).length = lengths.getD j 0 := fun j => by
    by_cases h : j < bs
    · rw [lengthAt j h]
      simp [rowBlock, h, cutRow, klLength, withinRow]
    · rw [List.getD_eq_getElem?_getD, List.getElem?_eq_none (by simp [lengths]; omega)]
      simp [rowBlock, h]
  have nonempty : ∀ j < lengths.length, 0 < lengths.getD j 0 := fun j h => by
    rw [lengthsLength] at h
    rw [lengthAt j h]
    exact afterStart _
  have totPacked : (packRows fun i => (logProbs.row i).take (eosIndices i)).zipWith (fun lp ref => -klCtl * (lp - ref))
      (packRows fun i => (refLogProbs.row i).take (eosIndices i)) = packRows cutRow := by
    rw [zipWith_packRows _ _ _ fun i => by simp [logProbs.rowLength, refLogProbs.rowLength]]
    exact congrArg packRows (funext fun i => by simp only [cutRow, klRow, take_mapIdx_zero_from, List.take_zipWith])
  have totalLength : (packRows cutRow).length = lengths.sum := by
    have packed := length_flatten_blocks _ lengths blockLengths
    rw [lengthsLength] at packed
    rw [packRows_eq_flatten, packed]
  have indices := mapM_pythonIndex_short1cuSeqlens nonempty totalLength
  have increments : ((List.finRange bs).map seqNoEos).zipWith (fun noEos score => if noEos then 0 else score)
      (((List.finRange bs).map rewardScore).map fun score => clip score (-clipRewardValue) clipRewardValue) =
        (List.range bs).map fun j => if h : j < bs then increment ⟨j, h⟩ else 0 := by
    rw [List.map_map, List.zipWith_map, List.zipWith_same, map_finRange_eq_map_range _ 0]
    refine List.map_congr_left fun j _ => ?_
    split
    · simp only [increment]
      cases seqNoEos ⟨j, ‹_›⟩ <;> simp
    · rfl
  have lastEntries := foldl_set_last_blocks (rowBlock cutRow) (fun j => if h : j < bs then increment ⟨j, h⟩ else 0)
    lengths blockLengths nonempty lengths.length le_rfl
  rw [lengthsLength] at lastEntries indices
  simp only [getPackedRewards, totPacked, indices, increments, Option.bind_eq_bind, Option.some_bind]
  refine congrArg some (Prod.ext rfl ?_)
  rw [List.zip_map', packRows_eq_flatten cutRow, lastEntries, packRows_eq_flatten]
  refine congrArg List.flatten (List.map_congr_left fun j mem => ?_)
  rw [List.mem_range] at mem
  simp only [mem, if_true, addToLast, rowBlock, dif_pos mem, lengthAt j mem, cutRow]
  exact (take_add_scoreRow (klRow ⟨j, mem⟩) _ _ (klLength _) (afterStart _) (withinRow _)).symm


/-- The agreement on a batch of two rows of width two, ended at their first and second token, the second without EOS. -/
theorem getPackedRewards_packRows_two_rows :
    (∀ i : Fin 2, 0 < ![1, 2] i) ∧ (∀ i : Fin 2, ![1, 2] i ≤ 2) ∧
      ∃ klRewards totRewards,
        computeRewards 1 1 (⟨![[1, 2], [3, 4]], by decide⟩ : Padded 2 2) ⟨![[0, 0], [1, 1]], by decide⟩ ![3, -1] ![1, 2]
            (fun i => if ![false, true] i then 1 else 0) = some (klRewards, totRewards) ∧
          getPackedRewards 1 1 (packRows fun i => (![[1, 2], [3, 4]] i).take (![1, 2] i))
              (packRows fun i => (![[0, 0], [1, 1]] i).take (![1, 2] i)) ((List.finRange 2).map ![3, -1])
              (short1cuSeqlens ((List.finRange 2).map ![1, 2])) ((List.finRange 2).map ![false, true]) =
            some (packRows fun i => (klRewards i).take (![1, 2] i), packRows fun i => (totRewards i).take (![1, 2] i)) ∧
          ∀ i j, ![1, 2] i ≤ j → (klRewards i).getD j 0 = 0 ∧ (totRewards i).getD j 0 = 0 :=
  ⟨by decide, by decide, getPackedRewards_packRows _ _ _ _ _ _ _ (by decide) (by decide)⟩

end RealRlhf.Ppo
