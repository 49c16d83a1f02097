import Mathlib.Algebra.BigOperators.Ring.List
import Mathlib.Data.List.GetD
import Mathlib.Algebra.Ring.Rat
import Mathlib.Tactic.Ring

namespace RealRlhf.Ppo

/-!
# Generalised advantage estimation over packed sequences

`_pygae1d_nolp_misalign` of `impl/model/utils/ppo_functional.py`, the reference that
`get_packed_advantages_and_returns` falls back to without `cugae`. Values carry one more
entry per sequence than rewards (the bootstrap value), so value offsets run `i` ahead of
reward offsets. Arithmetic is exact, in `ℚ`.

The source writes through a view: `nextvalues = values[v_offset + t + 1]` followed by
`nextvalues *= bootstrap[i]` scales that entry of `values` in place. The model keeps
`values` in its loop state and performs the write; the proofs show that the scaled entry,
the bootstrap slot of sequence `i`, is never read again.
-/

/-- The loop state: `values`, written through `nextvalues`, and `advantages_reversed` and `returns_reversed`. -/
structure GaeState where
  values : List ℚ
  advantagesReversed : List ℚ
  returnsReversed : List ℚ

/--
Pass `t` of the inner loop of a sequence with value offset `vOffset`, reward offset
`rOffset` and `len` rewards, carrying `lastgaelam`; at `t = len - 1` the bootstrap flag
scales `values[v_offset + t + 1]` in place.
-/
def gaeStep (rewards : List ℚ) (bootstrap gamma lam : ℚ) (vOffset rOffset len : Nat)
    (carried : GaeState × ℚ) (t : Nat) : GaeState × ℚ :=
  let values :=
    if t = len - 1 then carried.1.values.modify (· * bootstrap) (vOffset + t + 1) else carried.1.values
  let nextvalues := values.getD (vOffset + t + 1) 0
  let delta := rewards.getD (rOffset + t) 0 + gamma * nextvalues - values.getD (vOffset + t) 0
  let lastgaelam := delta + gamma * lam * carried.2
  (⟨values, carried.1.advantagesReversed ++ [lastgaelam],
    carried.1.returnsReversed ++ [lastgaelam + values.getD (vOffset + t) 0]⟩, lastgaelam)

/--
The body of `for i in reversed(range(bs))`: the assertion on the offsets, then the inner loop
over `reversed(range(r_end - r_offset))` from `lastgaelam = 0`, whose last pass reads
`bootstrap[i]` (`IndexError` where `i` is out of range).
-/
def gaeSequence (rewards : List ℚ) (cuSeqlens_ cuSeqlens : List Nat) (bootstrap : List ℚ) (gamma lam : ℚ)
    (state : GaeState) (i : Nat) : Option GaeState :=
  let vOffset := cuSeqlens.getD i 0
  let rOffset := cuSeqlens_.getD i 0
  let rEnd := cuSeqlens_.getD (i + 1) 0
  if (cuSeqlens.getD (i + 1) 0 : Int) - vOffset - 1 = (rEnd : Int) - rOffset then
    if rEnd - rOffset = 0 ∨ i < bootstrap.length then
      some ((List.range (rEnd - rOffset)).reverse.foldl
        (gaeStep rewards (bootstrap.getD i 0) gamma lam vOffset rOffset (rEnd - rOffset)) (state, 0)).1
    else none
  else none

/--
`_pygae1d_nolp_misalign(rewards, values, cu_seqlens_, bootstrap, gamma, lam)`; `none` where an
assertion fails, `bootstrap[i]` is out of range, or `torch.stack` meets an empty list. Reads of
`rewards` and `values` are in range whenever `cu_seqlens_` ends at `len(rewards)`.
-/
def pygae1dNolpMisalign (rewards values : List ℚ) (cuSeqlens_ : List Nat) (bootstrap : List ℚ) (gamma lam : ℚ) :
    Option (List ℚ × List ℚ) := do
  let cuSeqlens := cuSeqlens_.enum.map fun (j, c) => c + j
  let bs := cuSeqlens_.length - 1
  guard ((values.length : Int) = rewards.length + ((cuSeqlens_.length : Int) - 1))
  let final ← (List.range bs).reverse.foldlM (gaeSequence rewards cuSeqlens_ cuSeqlens bootstrap gamma lam)
    ⟨values, [], []⟩
  guard (final.advantagesReversed ≠ [])
  pure (final.advantagesReversed.reverse, final.returnsReversed.reverse)

/-! ## The advantages in closed form -/

/-- `δ_{i,u}`: the reward of step `u`, plus the discounted next value, scaled by the bootstrap flag only at the sequence's last step, less the value of step `u`. -/
def gaeDelta (rewards values : List ℚ) (bootstrap gamma : ℚ) (rOffset vOffset len u : Nat) : ℚ :=
  rewards.getD (rOffset + u) 0 + gamma * (if u = len - 1 then bootstrap else 1) * values.getD (vOffset + u + 1) 0 -
    values.getD (vOffset + u) 0

/-- `Σ_{u=t}^{len-1} ρ^(u-t) δ_u`. -/
def discountedSum (delta : Nat → ℚ) (rho : ℚ) (t len : Nat) : ℚ :=
  ((List.range (len - t)).map fun k => rho ^ k * delta (t + k)).sum

/-- The discounted sum from `t` is `δ_t` plus `ρ` times the one from `t + 1`. -/
theorem discountedSum_of_lt
    (delta : Nat → ℚ)
    (rho : ℚ)
    {t len : Nat}
    (before : t < len) :
    discountedSum delta rho t len = delta t + rho * discountedSum delta rho (t + 1) len := by
  obtain ⟨rest, restLength⟩ : ∃ rest, len - t = rest + 1 := ⟨len - t - 1, by omega⟩
  have shifted : len - (t + 1) = rest := by omega
  simp only [discountedSum, restLength, shifted, List.range_succ_eq_map, List.map_cons, List.sum_cons,
    List.map_map, Function.comp_def, pow_zero, one_mul, Nat.add_zero, ← List.sum_map_mul_left]
  refine congrArg (delta t + ·) (congrArg List.sum (List.map_congr_left fun k _ => ?_))
  rw [pow_succ, show t + k.succ = t + 1 + k by omega]
  ring

/-- Nothing remains to discount from the end. -/
@[simp]
theorem discountedSum_self
    (delta : Nat → ℚ)
    (rho : ℚ)
    (len : Nat) :
    discountedSum delta rho len len = 0 := by
  simp [discountedSum]

section Sequence

variable (rewards values : List ℚ) (bootstrap gamma lam : ℚ) (rOffset vOffset len : Nat)

/-- The advantage at step `t` of a sequence: its residuals from `t` on, discounted by `γλ`. -/
def gaeAdvantage (t : Nat) : ℚ :=
  discountedSum (gaeDelta rewards values bootstrap gamma rOffset vOffset len) (gamma * lam) t len

/-- Scaling entry `n` of a list in place leaves every other entry as it was. -/
theorem getD_modify_of_ne
    (f : ℚ → ℚ)
    {l : List ℚ}
    {n k : Nat}
    (other : n ≠ k) :
    (l.modify f n).getD k 0 = l.getD k 0 := by
  simp [List.getElem?_modify_ne _ _ other]

/-- Scaling entry `n` of a list reads back as the old entry scaled, `0` standing for an entry out of range. -/
theorem getD_modify_mul
    (l : List ℚ)
    (n : Nat)
    (scale : ℚ) :
    (l.modify (· * scale) n).getD n 0 = l.getD n 0 * scale := by
  cases entry : l[n]? <;> simp [entry]

/-- Before the last step, the inner loop from `lastgaelam = A(m)` appends the advantages and returns of steps `m - 1` down to `0`, reading `values` where it agrees with the original. -/
theorem foldl_gaeStep_before_last :
    ∀ m, m < len → ∀ (state : GaeState), (∀ k ≤ vOffset + m, state.values.getD k 0 = values.getD k 0) →
      (List.range m).reverse.foldl (gaeStep rewards bootstrap gamma lam vOffset rOffset len)
          (state, gaeAdvantage rewards values bootstrap gamma lam rOffset vOffset len m) =
        (⟨state.values,
          state.advantagesReversed ++
            (List.range m).reverse.map (gaeAdvantage rewards values bootstrap gamma lam rOffset vOffset len),
          state.returnsReversed ++ (List.range m).reverse.map fun t =>
            gaeAdvantage rewards values bootstrap gamma lam rOffset vOffset len t + values.getD (vOffset + t) 0⟩,
          gaeAdvantage rewards values bootstrap gamma lam rOffset vOffset len 0)
  | 0, _, state, _ => by simp
  | m + 1, below, state, agrees => by
      have notLast : m ≠ len - 1 := by omega
      have step : gaeStep rewards bootstrap gamma lam vOffset rOffset len
          (state, gaeAdvantage rewards values bootstrap gamma lam rOffset vOffset len (m + 1)) m =
          (⟨state.values, state.advantagesReversed ++ [gaeAdvantage rewards values bootstrap gamma lam rOffset vOffset len m],
            state.returnsReversed ++ [gaeAdvantage rewards values bootstrap gamma lam rOffset vOffset len m +
              values.getD (vOffset + m) 0]⟩,
            gaeAdvantage rewards values bootstrap gamma lam rOffset vOffset len m) := by
        have recurrence := discountedSum_of_lt (gaeDelta rewards values bootstrap gamma rOffset vOffset len)
          (gamma * lam) (by omega : m < len)
        simp only [gaeAdvantage, gaeStep, notLast, if_false, agrees (vOffset + m + 1) (by omega),
          agrees (vOffset + m) (by omega), recurrence, gaeDelta, mul_one]
      rw [List.range_succ, List.reverse_append, List.reverse_singleton, List.singleton_append, List.foldl_cons, step,
        foldl_gaeStep_before_last m (by omega)]
      · simp
      · exact fun k atMost => agrees k (by omega)

/-- The inner loop of a sequence appends the advantages and returns of its steps in reverse, reading `values` where it agrees with the original, and changes no entry below the sequence's bootstrap slot. -/
theorem foldl_gaeStep_sequence
    (state : GaeState)
    (agrees : ∀ k ≤ vOffset + len, state.values.getD k 0 = values.getD k 0) :
    ∃ values', ((List.range len).reverse.foldl (gaeStep rewards bootstrap gamma lam vOffset rOffset len) (state, 0)).1 =
        ⟨values',
          state.advantagesReversed ++
            (List.range len).reverse.map (gaeAdvantage rewards values bootstrap gamma lam rOffset vOffset len),
          state.returnsReversed ++ (List.range len).reverse.map fun t =>
            gaeAdvantage rewards values bootstrap gamma lam rOffset vOffset len t + values.getD (vOffset + t) 0⟩ ∧
      ∀ k < vOffset + len, values'.getD k 0 = state.values.getD k 0 := by
  cases len with
  | zero => exact ⟨state.values, by simp, fun _ _ => rfl⟩
  | succ n =>
      -- the last step scales the bootstrap slot `vOffset + n + 1`, which no later step reads
      have slot := getD_modify_mul state.values (vOffset + n + 1) bootstrap
      have kept : ∀ k ≤ vOffset + n, (state.values.modify (· * bootstrap) (vOffset + n + 1)).getD k 0 =
          state.values.getD k 0 := fun k atMost => getD_modify_of_ne _ (by omega)
      have last : gaeStep rewards bootstrap gamma lam vOffset rOffset (n + 1) (state, 0) n =
          (⟨state.values.modify (· * bootstrap) (vOffset + n + 1),
            state.advantagesReversed ++ [gaeAdvantage rewards values bootstrap gamma lam rOffset vOffset (n + 1) n],
            state.returnsReversed ++ [gaeAdvantage rewards values bootstrap gamma lam rOffset vOffset (n + 1) n +
              values.getD (vOffset + n) 0]⟩,
            gaeAdvantage rewards values bootstrap gamma lam rOffset vOffset (n + 1) n) := by
        have residual : rewards.getD (rOffset + n) 0 + gamma * (values.getD (vOffset + n + 1) 0 * bootstrap) -
            values.getD (vOffset + n) 0 + gamma * lam * 0 =
              gaeAdvantage rewards values bootstrap gamma lam rOffset vOffset (n + 1) n := by
          rw [gaeAdvantage, discountedSum_of_lt _ _ (Nat.lt_succ_self n)]
          simp only [discountedSum_self, gaeDelta, Nat.add_sub_cancel, if_true]
          ring
        simp only [gaeStep, Nat.add_sub_cancel, if_true, slot, kept (vOffset + n) le_rfl,
          agrees (vOffset + n + 1) (by omega), agrees (vOffset + n) (by omega), residual]
      refine ⟨state.values.modify (· * bootstrap) (vOffset + n + 1), ?_, fun k below => kept k (by omega)⟩
      rw [List.range_succ, List.reverse_append, List.reverse_singleton, List.singleton_append, List.foldl_cons, last,
        foldl_gaeStep_before_last rewards values bootstrap gamma lam rOffset vOffset (n + 1) n (Nat.lt_succ_self n)]
      · simp
      · exact fun k atMost => (kept k atMost).trans (agrees k (by omega))

end Sequence

/-! ## Packed sequences -/

/-- `short1cu_seqlens`: the prefix sums of the reward lengths, from `0`. -/
def short1cuSeqlens (lengths : List Nat) : List Nat :=
  lengths.scanl (· + ·) 0

/-- Entry `i` of prefix sums from `start` is `start` plus the first `i` lengths. -/
theorem getD_scanl_add :
    ∀ (lengths : List Nat) (start i : Nat), i ≤ lengths.length →
      (lengths.scanl (· + ·) start).getD i 0 = start + (lengths.take i).sum
  | [], _, 0, _ => rfl
  | [], _, _ + 1, beyond => absurd beyond (by simp)
  | _ :: _, _, 0, _ => rfl
  | length :: lengths, start, i + 1, within => by
      rw [List.scanl_cons, List.singleton_append, List.getD_cons_succ,
        getD_scanl_add lengths _ i (by simpa using within)]
      simp [Nat.add_assoc]

/-- `cu_seqlens[i] = short1cu_seqlens[i] + i`, the value offset of sequence `i`. -/
theorem getD_valueOffsets
    (lengths : List Nat)
    {i : Nat}
    (within : i ≤ lengths.length) :
    (((short1cuSeqlens lengths).enum.map fun (j, c) => c + j)).getD i 0 = (lengths.take i).sum + i := by
  have offset := getD_scanl_add lengths 0 i within
  rw [List.getD_eq_getElem?_getD] at offset ⊢
  rw [List.getElem?_map, List.getElem?_enum]
  cases entry : (lengths.scanl (· + ·) 0)[i]? with
  | none =>
      simp only [List.getElem?_eq_none_iff, List.length_scanl] at entry
      omega
  | some c =>
      simp [short1cuSeqlens, entry] at offset ⊢
      omega

/-- The reward lengths of the sequences, plus one value slot each. -/
@[simp]
theorem length_short1cuSeqlens
    (lengths : List Nat) :
    (short1cuSeqlens lengths).length = lengths.length + 1 := by
  simp [short1cuSeqlens, List.length_scanl]

/-- Entry `t < n` of `f` mapped over `range n` is `f t`. -/
theorem getD_map_range
    (f : Nat → ℚ)
    {n t : Nat}
    (below : t < n) :
    ((List.range n).map f).getD t 0 = f t := by
  simp [List.getElem?_range below]

/-- Blocks of lengths `R_j`, put together, have `Σ R_j` entries. -/
theorem length_flatten_blocks
    (blocks : Nat → List ℚ) :
    ∀ (lengths : List Nat), (∀ j, (blocks j).length = lengths.getD j 0) →
      ((List.range lengths.length).map blocks).flatten.length = lengths.sum
  | [], _ => rfl
  | length :: lengths, blockLengths => by
      rw [List.length_cons, List.range_succ_eq_map, List.map_cons, List.flatten_cons, List.length_append, List.map_map,
        length_flatten_blocks (blocks ∘ Nat.succ) lengths fun j => blockLengths (j + 1), blockLengths 0]
      simp

/-- Position `Σ_{j<i} R_j + t` of blocks of lengths `R_j`, put together, is entry `t` of block `i`. -/
theorem getD_flatten_blocks
    (blocks : Nat → List ℚ) :
    ∀ (lengths : List Nat), (∀ j, (blocks j).length = lengths.getD j 0) →
      ∀ i < lengths.length, ∀ t < lengths.getD i 0,
        ((List.range lengths.length).map blocks).flatten.getD ((lengths.take i).sum + t) 0 = (blocks i).getD t 0
  | [], _, _, beyond, _, _ => absurd beyond (Nat.not_lt_zero _)
  | length :: lengths, blockLengths, 0, _, t, step => by
      rw [List.length_cons, List.range_succ_eq_map, List.map_cons, List.flatten_cons]
      simpa using List.getD_append _ _ 0 t (by simpa [blockLengths 0] using step)
  | length :: lengths, blockLengths, i + 1, below, t, step => by
      rw [List.length_cons, List.range_succ_eq_map, List.map_cons, List.flatten_cons, List.map_map,
        List.getD_append_right _ _ 0 _ (by simp [blockLengths 0]; omega)]
      simp only [List.take_succ_cons, List.sum_cons, blockLengths 0, List.getD_cons_zero]
      rw [show length + (lengths.take i).sum + t - length = (lengths.take i).sum + t by omega]
      exact getD_flatten_blocks (blocks ∘ Nat.succ) lengths (fun j => blockLengths (j + 1)) i
        (by simpa using below) t (by simpa using step)

section Packing

variable (rewards values bootstrap : List ℚ) (gamma lam : ℚ) (lengths : List Nat)

/-- The advantages of sequence `i` of the packing, in step order. -/
def sequenceAdvantages (i : Nat) : List ℚ :=
  (List.range (lengths.getD i 0)).map
    (gaeAdvantage rewards values (bootstrap.getD i 0) gamma lam (lengths.take i).sum ((lengths.take i).sum + i)
      (lengths.getD i 0))

/-- The returns of sequence `i` of the packing, in step order. -/
def sequenceReturns (i : Nat) : List ℚ :=
  (List.range (lengths.getD i 0)).map fun t =>
    gaeAdvantage rewards values (bootstrap.getD i 0) gamma lam (lengths.take i).sum ((lengths.take i).sum + i)
      (lengths.getD i 0) t + values.getD ((lengths.take i).sum + i + t) 0

/-- Sequence `i` passes the assertion and appends its advantages and returns in reverse, changing no entry of `values` below its bootstrap slot. -/
theorem gaeSequence_eq
    (state : GaeState)
    {i : Nat}
    (below : i < lengths.length)
    (flagged : i < bootstrap.length)
    (agrees : ∀ k ≤ (lengths.take i).sum + lengths.getD i 0 + i, state.values.getD k 0 = values.getD k 0) :
    ∃ values', gaeSequence rewards (short1cuSeqlens lengths)
        ((short1cuSeqlens lengths).enum.map fun (j, c) => c + j) bootstrap gamma lam state i =
          some ⟨values', state.advantagesReversed ++ (sequenceAdvantages rewards values bootstrap gamma lam lengths i).reverse,
            state.returnsReversed ++ (sequenceReturns rewards values bootstrap gamma lam lengths i).reverse⟩ ∧
      ∀ k < (lengths.take i).sum + lengths.getD i 0 + i, values'.getD k 0 = state.values.getD k 0 := by
  have nextSum : (lengths.take (i + 1)).sum = (lengths.take i).sum + lengths.getD i 0 := by
    rw [List.sum_take_succ _ _ below, List.getD_eq_getElem _ _ below]
  have rOffset := getD_scanl_add lengths 0 i below.le
  have rEnd := getD_scanl_add lengths 0 (i + 1) below
  have vOffset := getD_valueOffsets lengths below.le
  have vEnd := getD_valueOffsets lengths (Nat.succ_le_of_lt below)
  simp only [short1cuSeqlens, Nat.zero_add] at rOffset rEnd vOffset vEnd
  obtain ⟨values', inner, kept⟩ := foldl_gaeStep_sequence rewards values (bootstrap.getD i 0) gamma lam
    (lengths.take i).sum ((lengths.take i).sum + i) (lengths.getD i 0) state fun k atMost => agrees k (by omega)
  refine ⟨values', ?_, fun k before => kept k (by omega)⟩
  simp only [gaeSequence, short1cuSeqlens, rOffset, rEnd, vOffset, vEnd, nextSum]
  rw [if_pos (by omega), if_pos (.inr flagged),
    show (lengths.take i).sum + lengths.getD i 0 - (lengths.take i).sum = lengths.getD i 0 by omega, inner]
  simp [sequenceAdvantages, sequenceReturns, List.map_reverse]

/-- The outer loop over sequences `m - 1` down to `0` appends their advantages and returns, each sequence's in reverse, reading `values` where it agrees with the original. -/
theorem foldlM_gaeSequence
    (flags : lengths.length ≤ bootstrap.length) :
    ∀ m, m ≤ lengths.length → ∀ state : GaeState,
      (∀ k < (lengths.take m).sum + m, state.values.getD k 0 = values.getD k 0) →
        ∃ values', (List.range m).reverse.foldlM
            (gaeSequence rewards (short1cuSeqlens lengths) ((short1cuSeqlens lengths).enum.map fun (j, c) => c + j)
              bootstrap gamma lam) state =
          some ⟨values',
            state.advantagesReversed ++
              ((List.range m).reverse.map fun i => (sequenceAdvantages rewards values bootstrap gamma lam lengths i).reverse).flatten,
            state.returnsReversed ++
              ((List.range m).reverse.map fun i => (sequenceReturns rewards values bootstrap gamma lam lengths i).reverse).flatten⟩
  | 0, _, state, _ => ⟨state.values, by simp⟩
  | m + 1, within, state, agrees => by
      have nextSum : (lengths.take (m + 1)).sum = (lengths.take m).sum + lengths.getD m 0 := by
        rw [List.sum_take_succ _ _ within, List.getD_eq_getElem _ _ within]
      obtain ⟨values', sequence, kept⟩ := gaeSequence_eq rewards values bootstrap gamma lam lengths state within
        (by omega) fun k atMost => agrees k (by omega)
      obtain ⟨values'', rest⟩ := foldlM_gaeSequence flags m (by omega)
        ⟨values', state.advantagesReversed ++ (sequenceAdvantages rewards values bootstrap gamma lam lengths m).reverse,
          state.returnsReversed ++ (sequenceReturns rewards values bootstrap gamma lam lengths m).reverse⟩
        fun k below => (kept k (by omega)).trans (agrees k (by omega))
      refine ⟨values'', ?_⟩
      rw [List.range_succ, List.reverse_append, List.reverse_singleton, List.singleton_append, List.foldlM_cons,
        sequence, Option.bind_eq_bind, Option.some_bind, rest]
      simp

end Packing

/--
On sequences of reward lengths `R_i` (some reward in all), `short1cu_seqlens` their prefix
sums `c_i`, `Σ R_i` rewards, `Σ R_i + bs` values and a bootstrap flag for each sequence,
`_pygae1d_nolp_misalign` passes its
assertions and returns `Σ R_i` advantages and returns; at step `t` of sequence `i`, with
`v_i = c_i + i`, the advantage is `Σ_{u=t}^{R_i-1} (γλ)^(u-t) δ_{i,u}` over the original
values and the return is that advantage plus `values[v_i + t]`.
-/
theorem pygae1dNolpMisalign_closed_form
    (lengths : List Nat)
    (rewards values bootstrap : List ℚ)
    (gamma lam : ℚ)
    (someReward : 1 ≤ lengths.sum)
    (rewardsLength : rewards.length = lengths.sum)
    (valuesLength : values.length = lengths.sum + lengths.length)
    (flags : lengths.length ≤ bootstrap.length) :
    ∃ advantages returns,
      pygae1dNolpMisalign rewards values (short1cuSeqlens lengths) bootstrap gamma lam = some (advantages, returns) ∧
        advantages.length = lengths.sum ∧ returns.length = lengths.sum ∧
        ∀ i < lengths.length, ∀ t < lengths.getD i 0,
          advantages.getD ((lengths.take i).sum + t) 0 =
              discountedSum (gaeDelta rewards values (bootstrap.getD i 0) gamma (lengths.take i).sum
                ((lengths.take i).sum + i) (lengths.getD i 0)) (gamma * lam) t (lengths.getD i 0) ∧
            returns.getD ((lengths.take i).sum + t) 0 =
              advantages.getD ((lengths.take i).sum + t) 0 + values.getD ((lengths.take i).sum + i + t) 0 := by
  obtain ⟨values', run⟩ := foldlM_gaeSequence rewards values bootstrap gamma lam lengths flags lengths.length le_rfl
    ⟨values, [], []⟩ fun _ _ => rfl
  have advantageBlocks : ∀ j, (sequenceAdvantages rewards values bootstrap gamma lam lengths j).length =
      lengths.getD j 0 := by simp [sequenceAdvantages]
  have returnBlocks : ∀ j, (sequenceReturns rewards values bootstrap gamma lam lengths j).length =
      lengths.getD j 0 := by simp [sequenceReturns]
  have advantagesLength := length_flatten_blocks _ lengths advantageBlocks
  refine ⟨((List.range lengths.length).map (sequenceAdvantages rewards values bootstrap gamma lam lengths)).flatten,
    ((List.range lengths.length).map (sequenceReturns rewards values bootstrap gamma lam lengths)).flatten, ?_,
    advantagesLength, length_flatten_blocks _ lengths returnBlocks, fun i below t step => ?_⟩
  · have someAdvantage : ∃ i < lengths.length, sequenceAdvantages rewards values bootstrap gamma lam lengths i ≠ [] := by
      by_contra noAdvantage
      push_neg at noAdvantage
      have empty : ((List.range lengths.length).map (sequenceAdvantages rewards values bootstrap gamma lam lengths)).flatten =
          [] := List.flatten_eq_nil_iff.mpr (by simpa using noAdvantage)
      rw [empty] at advantagesLength
      simp at advantagesLength
      omega
    simp only [pygae1dNolpMisalign, length_short1cuSeqlens, Nat.add_sub_cancel]
    simp [rewardsLength, valuesLength, run, someAdvantage, List.reverse_flatten, List.map_reverse, Function.comp_def]
  · rw [getD_flatten_blocks _ lengths advantageBlocks i below t step,
      getD_flatten_blocks _ lengths returnBlocks i below t step]
    simp only [sequenceAdvantages, sequenceReturns, getD_map_range _ step, gaeAdvantage, and_self]

/-- The closed form on two sequences of two and one rewards, the second not bootstrapped. -/
theorem pygae1dNolpMisalign_closed_form_two_sequences :
    1 ≤ [2, 1].sum ∧ ([1, 2, 3] : List ℚ).length = [2, 1].sum ∧
      ([0, 1, 2, 3, 4] : List ℚ).length = [2, 1].sum + [2, 1].length ∧ [2, 1].length ≤ ([1, 0] : List ℚ).length ∧
      ∃ advantages returns,
        pygae1dNolpMisalign [1, 2, 3] [0, 1, 2, 3, 4] (short1cuSeqlens [2, 1]) [1, 0] (1 / 2) (1 / 2) =
            some (advantages, returns) ∧
          advantages.length = [2, 1].sum ∧ returns.length = [2, 1].sum ∧
          ∀ i < [2, 1].length, ∀ t < [2, 1].getD i 0,
            advantages.getD (([2, 1].take i).sum + t) 0 =
                discountedSum (gaeDelta [1, 2, 3] [0, 1, 2, 3, 4] (([1, 0] : List ℚ).getD i 0) (1 / 2)
                  ([2, 1].take i).sum (([2, 1].take i).sum + i) ([2, 1].getD i 0)) (1 / 2 * (1 / 2)) t
                  ([2, 1].getD i 0) ∧
              returns.getD (([2, 1].take i).sum + t) 0 =
                advantages.getD (([2, 1].take i).sum + t) 0 +
                  ([0, 1, 2, 3, 4] : List ℚ).getD (([2, 1].take i).sum + i + t) 0 :=
  ⟨by decide, rfl, rfl, le_rfl, pygae1dNolpMisalign_closed_form [2, 1] _ _ _ _ _ (by decide) rfl rfl le_rfl⟩

end RealRlhf.Ppo
