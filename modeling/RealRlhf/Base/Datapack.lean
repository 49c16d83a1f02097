import Mathlib.Data.List.Basic

namespace RealRlhf.Datapack

/-!
# Balanced contiguous partitions

`min_abs_diff_partition(arr, k)` in `base/datapack.py` splits `arr` into `k` contiguous
ranges, minimising the largest range sum. It fills an `(n + 1) × (k + 1)` table,
`dp[i, j]` being the best largest sum of `j` ranges over the first `i` elements, and then
backtracks from `dp[n, k]`: a `while j > 1` loop whose body scans `for x in range(i)` and,
on every `x` that realises `dp[i, j]`, records `(x, i)` and moves to `(x, j - 1)`.

The model keeps the table as the numpy arrays it is: rows of `Int` with the
`np.iinfo(np.int64).max` fill value, updated by the three fill loops. The `for` loop of a
backtracking pass is a fold over the `range(i)` fixed when the pass starts, with `i` and `j`
changing inside it as in the source; the `while` loop runs on fuel, one unit per pass, and
returns `none` when the fuel runs out. Prefix sums are taken without `int64` overflow.
-/

/-- `np.iinfo(np.int64).max`, the fill value of the table. -/
def int64Max : Int :=
  9223372036854775807

/-- `np.concatenate((np.zeros(1), np.cumsum(arr)))`: entry `i` is the sum of the first `i` elements. -/
def prefixSums (arr : List Nat) : Array Int :=
  ((arr.scanl (· + ·) 0).map fun sum : Nat => (sum : Int)).toArray

/-- The `dp` table: row `i`, column `j`. -/
abbrev DpTable :=
  Array (Array Int)

/-- `dp[i][j]`, the fill value outside the table. -/
def DpTable.get (dp : DpTable) (i j : Nat) : Int :=
  (dp.getD i #[]).getD j int64Max

/-- `dp[i, j] = value`. -/
def DpTable.set (dp : DpTable) (i j : Nat) (value : Int) : DpTable :=
  dp.modify i fun row => row.set! j value

/-- `np.full((n + 1, k + 1), int64 max)` and then `dp[i, 1] = prefix_sum[i]` for every `i ≤ n`. -/
def initDp (n k : Nat) (prefixSum : Array Int) : DpTable :=
  (List.range (n + 1)).foldl (fun dp i => dp.set i 1 (prefixSum.getD i 0))
    (mkArray (n + 1) (mkArray (k + 1) int64Max))

/-- The fill loops over `1 ≤ i ≤ n`, `2 ≤ j ≤ k` and `x < i`. -/
def fillDp (n k : Nat) (prefixSum : Array Int) (dp : DpTable) : DpTable :=
  (List.range' 1 n).foldl (fun dp i =>
    (List.range' 2 (k - 1)).foldl (fun dp j =>
      (List.range i).foldl (fun dp x =>
        dp.set i j (min (dp.get i j)
          (max (dp.get x (j - 1)) (prefixSum.getD i 0 - prefixSum.getD x 0)))) dp) dp) dp

/-- The backtracking variables `i`, `j` and `partitions`. -/
structure BacktrackState where
  i : Nat
  j : Nat
  partitions : List (Nat × Nat)
  deriving Repr, DecidableEq

/-- One iteration of `for x in range(i)`: on a match, append `(x, i)`, then `i = x` and `j -= 1`. -/
def backtrackStep (dp : DpTable) (prefixSum : Array Int) (state : BacktrackState) (x : Nat) : BacktrackState :=
  if dp.get state.i state.j == max (dp.get x (state.j - 1)) (prefixSum.getD state.i 0 - prefixSum.getD x 0) then
    ⟨x, state.j - 1, state.partitions ++ [(x, state.i)]⟩
  else
    state

/-- One pass of the `for` loop, over the `range(i)` of the `i` at the start of the pass. -/
def backtrackPass (dp : DpTable) (prefixSum : Array Int) (state : BacktrackState) : BacktrackState :=
  (List.range state.i).foldl (backtrackStep dp prefixSum) state

/-- `while j > 1`, running at most `fuel` passes; `none` when a pass is still due after them. -/
def backtrackLoop (dp : DpTable) (prefixSum : Array Int) : Nat → BacktrackState → Option BacktrackState
  | 0, state => if 1 < state.j then none else some state
  | fuel + 1, state =>
      if 1 < state.j then backtrackLoop dp prefixSum fuel (backtrackPass dp prefixSum state) else some state

/--
`min_abs_diff_partition(arr, k)`: the filled table, then the backtracking from `(n, k)`
with `k` passes of fuel, then `(0, i)` appended and the list reversed.
-/
def minAbsDiffPartition (arr : List Nat) (k : Nat) : Option (List (Nat × Nat)) :=
  let n := arr.length
  let prefixSum := prefixSums arr
  let dp := fillDp n k prefixSum (initDp n k prefixSum)
  (backtrackLoop dp prefixSum k ⟨n, k, []⟩).map fun state => (state.partitions ++ [(0, state.i)]).reverse

/-- The `while j > 1` loop of `min_abs_diff_partition(arr, k)`, from `(n, k)` over the filled table, for `fuel` passes. -/
def backtrackRun (arr : List Nat) (k fuel : Nat) : Option BacktrackState :=
  let prefixSum := prefixSums arr
  backtrackLoop (fillDp arr.length k prefixSum (initDp arr.length k prefixSum)) prefixSum fuel ⟨arr.length, k, []⟩

/-- `min_abs_diff_partition` runs the backtracking for `k` passes. -/
theorem minAbsDiffPartition_eq
    (arr : List Nat)
    (k : Nat) :
    minAbsDiffPartition arr k = (backtrackRun arr k k).map fun state => (state.partitions ++ [(0, state.i)]).reverse :=
  rfl

/-- A pass that finds no split point leaves `i`, `j` and `partitions` as they were. -/
theorem backtrackPass_zero
    (dp : DpTable)
    (prefixSum : Array Int)
    (j : Nat)
    (partitions : List (Nat × Nat)) :
    backtrackPass dp prefixSum ⟨0, j, partitions⟩ = ⟨0, j, partitions⟩ :=
  rfl

/-- When a pass changes nothing while `j > 1`, the `while` loop never exits: no amount of fuel is enough. -/
theorem backtrackLoop_stuck
    {dp : DpTable}
    {prefixSum : Array Int}
    {state : BacktrackState}
    (unchanged : backtrackPass dp prefixSum state = state)
    (pending : 1 < state.j) :
    ∀ fuel, backtrackLoop dp prefixSum fuel state = none := by
  intro fuel
  induction fuel with
  | zero => simp [backtrackLoop, pending]
  | succ fuel inductionHypothesis => simp [backtrackLoop, pending, unchanged, inductionHypothesis]

set_option maxRecDepth 20000 in
/--
The backtracking does not return `k` ordered non-empty ranges: on `[2, 1, 1]` with `k = 3`
the first range is empty, and on `[2, 1, 1, 1]` with `k = 4` the third range runs backwards.
-/
theorem minAbsDiffPartition_empty_and_reversed_ranges :
    minAbsDiffPartition [2, 1, 1] 3 = some [(0, 0), (0, 1), (1, 3)] ∧
      minAbsDiffPartition [2, 1, 1, 1] 4 = some [(0, 1), (1, 3), (3, 2), (2, 4)] := by
  decide

/--
The backtracking never leaves its `while` loop once `i` reaches `0` with `j > 1`: on the empty
array for every `k ≥ 2`, and on `[5]` with `k = 3`, whose first pass matches `x = 0` at `j = 3`.
-/
theorem minAbsDiffPartition_backtrack_never_exits :
    (∀ k fuel, backtrackRun [] (k + 2) fuel = none) ∧ ∀ fuel, backtrackRun [5] 3 fuel = none := by
  refine ⟨fun k => backtrackLoop_stuck (backtrackPass_zero _ _ _ _) (by simp), fun fuel => ?_⟩
  cases fuel with
  | zero => rfl
  | succ fuel =>
      have firstPass : backtrackPass (fillDp 1 3 (prefixSums [5]) (initDp 1 3 (prefixSums [5]))) (prefixSums [5])
          ⟨1, 3, []⟩ = ⟨0, 2, [(0, 1)]⟩ := by
        decide
      simp only [backtrackRun, backtrackLoop, List.length_singleton, firstPass]
      exact backtrackLoop_stuck (backtrackPass_zero _ _ _ _) (by decide) fuel

end RealRlhf.Datapack
