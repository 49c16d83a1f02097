import RealRlhf.Base.Ffd

namespace RealRlhf.Datapack

/-!
# The dynamic batch allocator

`allocate` of `base/datapack.py` cuts the sequences, in order, into steps. At each step a
binary search picks the longest prefix `l` of the remaining sequences for which `ffd_check`
accepts `world_size` bins of capacity `c`, `ffd_with_result` packs that prefix, and rank
`rank` takes its own bin. The loop stops at the first step whose packing has fewer than
`world_size` bins.

The `while True` loop runs on fuel, `len(lengths) + 1` passes in `allocate`. The main
result shows that this fuel suffices and that all ranks see the same steps: each step's
bins are non-empty, disjoint and within capacity, and they cover a range of indices that
starts where the previous step's range ends.
-/

/-- `np.cumsum(lengths)`. -/
def npCumsum (lengths : List Int) : List Int :=
  (lengths.scanl (· + ·) 0).tail

@[simp]
theorem length_npCumsum
    (lengths : List Int) :
    (npCumsum lengths).length = lengths.length := by
  simp [npCumsum, List.length_scanl]

/-- `np.searchsorted(a, value, "right")` on a sorted `a`: the number of leading entries at most `value`. -/
def searchsortedRight (sorted : List Int) (value : Int) : Nat :=
  (sorted.takeWhile fun x => x ≤ value).length

/-- The binary search `while r - l > 1: m = (l + r) // 2; if check(m): l = m else: r = m`, returning `l`. -/
def binarySearch (check : Nat → Bool) (l r : Nat) : Nat :=
  if 1 < r - l then
    if check ((l + r) / 2) then binarySearch check ((l + r) / 2) r else binarySearch check l ((l + r) / 2)
  else l
termination_by r - l

/-- `r = 1 + np.searchsorted(lengths_cumsum[start_index:], s + c * world_size, "right")`. -/
def searchBound (cumsum : List Int) (c : Int) (worldSize startIndex : Nat) (s : Int) : Nat :=
  1 + searchsortedRight (cumsum.drop startIndex) (s + c * worldSize)

/-- `l` after the binary search over `ffd_check(lengths[start_index:start_index + m], c, world_size)`, from `l = 1`. -/
def batchLength (lengths cumsum : List Int) (c : Int) (worldSize startIndex : Nat) (s : Int) : Nat :=
  binarySearch (fun m => ffdCheck ((lengths.drop startIndex).take m) c worldSize) 1
    (searchBound cumsum c worldSize startIndex s)

/-- `batch`: the bins of `ffd_with_result(lengths[start_index:start_index + l], c)`, their indices shifted by `start_index`. -/
def allocateBatch (lengths : List Int) (c : Int) (startIndex l : Nat) : List (List Nat) :=
  (ffdWithResult ((lengths.drop startIndex).take l) c).map fun bin => bin.map (startIndex + ·)

/--
The `while True` loop of `allocate` from `start_index` and `s`, with `result` so far, for at
most `fuel` passes; `none` when the fuel runs out or an index is out of range.
-/
def allocateLoop (lengths cumsum : List Int) (c : Int) (rank worldSize : Nat) :
    Nat → Nat → Int → List (List Nat) → Option (List (List Nat))
  | 0, _, _, _ => none
  | fuel + 1, startIndex, s, result =>
      let l := batchLength lengths cumsum c worldSize startIndex s
      let batch := allocateBatch lengths c startIndex l
      if batch.length < worldSize then some result
      else
        match cumsum[startIndex + l - 1]?, batch[rank]? with
        | some s, some bin => allocateLoop lengths cumsum c rank worldSize fuel (startIndex + l) s (result ++ [bin])
        | _, _ => none

/-- `allocate(lengths, lengths_cumsum, c, rank, world_size)`, the loop given one pass per sequence and one to stop. -/
def allocate (lengths cumsum : List Int) (c : Int) (rank worldSize : Nat) : Option (List (List Nat)) :=
  allocateLoop lengths cumsum c rank worldSize (lengths.length + 1) 0 0 []

/-! ## What one step allocates -/

/-- One step's batch: `world_size` bins, non-empty, disjoint and within capacity, whose indices are exactly `[lo, hi)`, with `lo < hi`. -/
structure AllocatedBatch (lengths : List Int) (c : Int) (worldSize lo hi : Nat) (batch : List (List Nat)) :
    Prop where
  oneBinPerRank : batch.length = worldSize
  nonempty : ∀ bin ∈ batch, bin ≠ []
  disjoint : batch.Pairwise List.Disjoint
  withinCapacity : ∀ bin ∈ batch, binLoad lengths bin ≤ c
  covers : batch.flatten.Perm (List.range' lo (hi - lo))
  advances : lo < hi

/-- Batches over consecutive index ranges `[bounds[j], bounds[j + 1])`, the last bound within the input. -/
def AllocationChain (lengths : List Int) (c : Int) (worldSize : Nat) :
    List Nat → List (List (List Nat)) → Prop
  | [last], [] => last ≤ lengths.length
  | lo :: hi :: bounds, batch :: batches =>
      AllocatedBatch lengths c worldSize lo hi batch ∧ AllocationChain lengths c worldSize (hi :: bounds) batches
  | _, _ => False

/-- From a good `l`, the binary search ends at a good `l`, no smaller, and below `r` unless it started there. -/
theorem binarySearch_spec
    (check : Nat → Bool) :
    ∀ l r, check l = true →
      check (binarySearch check l r) = true ∧ l ≤ binarySearch check l r ∧ binarySearch check l r ≤ max l (r - 1) := by
  intro l r
  induction l, r using binarySearch.induct check with
  | case1 l r wide goodMiddle inductionHypothesis =>
      intro _
      rw [binarySearch, if_pos wide, if_pos goodMiddle]
      obtain ⟨good, above, below⟩ := inductionHypothesis goodMiddle
      exact ⟨good, by omega, by omega⟩
  | case2 l r wide badMiddle inductionHypothesis =>
      intro goodLow
      rw [binarySearch, if_pos wide, if_neg badMiddle]
      obtain ⟨good, above, below⟩ := inductionHypothesis goodLow
      exact ⟨good, above, by omega⟩
  | case3 l r narrow =>
      intro goodLow
      rw [binarySearch, if_neg narrow]
      exact ⟨goodLow, le_rfl, le_max_left _ _⟩

/-- Entry `i < l` of `lengths[start_index:start_index + l]` is entry `start_index + i` of `lengths`. -/
theorem getD_take_drop
    (lengths : List Int)
    {startIndex l index : Nat}
    (inPrefix : index < l) :
    ((lengths.drop startIndex).take l).getD index 0 = lengths.getD (startIndex + index) 0 := by
  simp [List.getElem?_take, inPrefix, List.getElem?_drop]

section Step

variable {lengths : List Int} {c : Int} {worldSize : Nat}

/-- A prefix of the remaining sizes keeps them in `[0, c]`. -/
theorem prefix_inRange
    (lengthsInRange : ∀ x ∈ lengths, 0 ≤ x ∧ x ≤ c)
    (startIndex l : Nat) :
    ∀ x ∈ (lengths.drop startIndex).take l, 0 ≤ x ∧ x ≤ c := fun x member =>
  lengthsInRange x ((List.take_subset _ _).trans (List.drop_subset _ _) member)

/-- While sequences remain, the binary search picks a non-empty prefix of them that `ffd_check` accepts. -/
theorem batchLength_spec
    {cumsum : List Int}
    {startIndex : Nat}
    (s : Int)
    (lengthsInRange : ∀ x ∈ lengths, 0 ≤ x ∧ x ≤ c)
    (positiveWorld : 0 < worldSize)
    (cumsumLength : cumsum.length = lengths.length)
    (remaining : startIndex < lengths.length) :
    1 ≤ batchLength lengths cumsum c worldSize startIndex s ∧
      startIndex + batchLength lengths cumsum c worldSize startIndex s ≤ lengths.length ∧
      ffdCheck ((lengths.drop startIndex).take (batchLength lengths cumsum c worldSize startIndex s)) c worldSize =
        true := by
  have goodOne : ffdCheck ((lengths.drop startIndex).take 1) c worldSize = true :=
    ffdCheck_of_length_le (prefix_inRange lengthsInRange startIndex 1) (by simp; omega)
  obtain ⟨good, atLeastOne, belowBound⟩ := binarySearch_spec
    (fun m => ffdCheck ((lengths.drop startIndex).take m) c worldSize) 1 (searchBound cumsum c worldSize startIndex s)
    goodOne
  have bound : searchBound cumsum c worldSize startIndex s ≤ 1 + (lengths.length - startIndex) := by
    have taken := congrArg List.length
      (List.takeWhile_append_dropWhile (fun x => decide (x ≤ s + c * worldSize)) (cumsum.drop startIndex))
    simp only [List.length_append, List.length_drop, cumsumLength] at taken
    simp only [searchBound, searchsortedRight]
    omega
  exact ⟨atLeastOne, by simp only [batchLength] at belowBound ⊢; omega, good⟩

/-- A full step's batch, over a non-empty prefix accepted by `ffd_check`, is an allocated batch of `[start_index, start_index + l)`. -/
theorem allocateBatch_sound
    {startIndex l : Nat}
    (lengthsInRange : ∀ x ∈ lengths, 0 ≤ x ∧ x ≤ c)
    (atLeastOne : 1 ≤ l)
    (withinInput : startIndex + l ≤ lengths.length)
    (accepted : ffdCheck ((lengths.drop startIndex).take l) c worldSize = true)
    (full : worldSize ≤ (allocateBatch lengths c startIndex l).length) :
    AllocatedBatch lengths c worldSize startIndex (startIndex + l) (allocateBatch lengths c startIndex l) := by
  have packing := ffdWithResult_packing (prefix_inRange lengthsInRange startIndex l)
  have prefixLength : ((lengths.drop startIndex).take l).length = l := by simp; omega
  have covers : (allocateBatch lengths c startIndex l).flatten.Perm (List.range' startIndex l) := by
    have shifted := packing.exactlyOnce.map (startIndex + ·)
    rw [prefixLength] at shifted
    rwa [allocateBatch, ← List.map_flatten, List.range'_eq_map_range]
  refine ⟨?_, ?_, ?_, ?_, by simpa using covers, by omega⟩
  · have := (ffdCheck_eq_true_iff_firstFitBins _ c worldSize (prefix_inRange lengthsInRange startIndex l)).mp accepted
    simp only [allocateBatch, ffdWithResult, List.length_map] at full ⊢
    omega
  · simp only [allocateBatch, List.mem_map]
    rintro _ ⟨bin, member, rfl⟩
    simpa using packing.nonempty bin member
  · exact (List.nodup_flatten.mp (covers.nodup_iff.mpr (List.nodup_range' _ _))).2
  · simp only [allocateBatch, List.mem_map]
    rintro _ ⟨bin, member, rfl⟩
    have inPrefix : ∀ index ∈ bin, index < l := fun index indexMember => by
      simpa [prefixLength] using packing.exactlyOnce.subset (List.mem_flatten.mpr ⟨bin, member, indexMember⟩)
    have sameLoad : binLoad lengths (bin.map (startIndex + ·)) = binLoad ((lengths.drop startIndex).take l) bin := by
      simp only [binLoad, List.map_map]
      exact congrArg List.sum (List.map_congr_left fun index indexMember =>
        (getD_take_drop lengths (inPrefix index indexMember)).symm)
    exact sameLoad ▸ packing.withinCapacity bin member

/-- From `start_index ≤ n` with more fuel than sequences left, the loop ends for every rank, and all ranks allocate the same batches, each rank appending its own bin of each. -/
theorem allocateLoop_sound
    (lengthsInRange : ∀ x ∈ lengths, 0 ≤ x ∧ x ≤ c)
    (positiveWorld : 0 < worldSize) :
    ∀ (fuel startIndex : Nat) (s : Int) (results : Nat → List (List Nat)),
      startIndex ≤ lengths.length → lengths.length - startIndex < fuel →
        ∃ batches bounds, bounds.head? = some startIndex ∧ AllocationChain lengths c worldSize bounds batches ∧
          ∀ rank < worldSize, allocateLoop lengths (npCumsum lengths) c rank worldSize fuel startIndex s (results rank) =
            some (results rank ++ batches.map fun batch => batch.getD rank [])
  | 0, _, _, _, _, noFuel => absurd noFuel (Nat.not_lt_zero _)
  | fuel + 1, startIndex, s, results, withinInput, enoughFuel => by
      simp only [allocateLoop]
      by_cases stop : (allocateBatch lengths c startIndex
          (batchLength lengths (npCumsum lengths) c worldSize startIndex s)).length < worldSize
      · exact ⟨[], [startIndex], rfl, withinInput, fun rank _ => by simp [stop]⟩
      · -- a full batch: the sequences are not used up, and the step allocates `[start_index, start_index + l)`
        have remaining : startIndex < lengths.length := by
          by_contra usedUp
          have noneLeft : lengths.drop startIndex = [] := List.drop_eq_nil_of_le (by omega)
          simp [allocateBatch, noneLeft, ffdWithResult, argsortDesc, firstFitBins, positiveWorld] at stop
        obtain ⟨atLeastOne, withinInput', accepted⟩ :=
          batchLength_spec s lengthsInRange positiveWorld (length_npCumsum lengths) remaining
        generalize batchLength lengths (npCumsum lengths) c worldSize startIndex s = l at *
        have step := allocateBatch_sound lengthsInRange atLeastOne withinInput' accepted (by omega)
        obtain ⟨s', nextSum⟩ : ∃ s', (npCumsum lengths)[startIndex + l - 1]? = some s' :=
          ⟨_, List.getElem?_eq_getElem (by simp; omega)⟩
        obtain ⟨batches, bounds, head, chain, allocated⟩ := allocateLoop_sound lengthsInRange positiveWorld fuel
          (startIndex + l) s' (fun rank => results rank ++ [(allocateBatch lengths c startIndex l).getD rank []])
          withinInput' (by omega)
        obtain ⟨tail, rfl⟩ : ∃ tail, bounds = (startIndex + l) :: tail := by
          cases bounds with
          | nil => simp at head
          | cons bound tail => exact ⟨tail, by simpa using head⟩
        refine ⟨allocateBatch lengths c startIndex l :: batches, startIndex :: (startIndex + l) :: tail, rfl,
          ⟨step, chain⟩, fun rank below => ?_⟩
        have ownBin : (allocateBatch lengths c startIndex l)[rank]? =
            some ((allocateBatch lengths c startIndex l).getD rank []) := by
          simp [List.getElem?_eq_getElem (step.oneBinPerRank ▸ below)]
        rw [if_neg stop, nextSum, ownBin]
        simpa using allocated rank below

end Step

/--
`allocate` ends for every rank of a world of `W ≥ 1` ranks on sequence lengths in `[1, c]`, and
all ranks take their own bins of the same batches: each batch has one non-empty bin per rank,
its bins are disjoint and within capacity, and the batches cover consecutive index ranges
`[b_j, b_{j+1})` from `b_0 = 0` on, the last bound within the input.
-/
theorem allocate_same_steps_disjoint_within_capacity
    (lengths : List Int)
    (c : Int)
    (worldSize : Nat)
    (lengthsInRange : ∀ x ∈ lengths, 1 ≤ x ∧ x ≤ c)
    (positiveWorld : 0 < worldSize) :
    ∃ batches bounds, bounds.head? = some 0 ∧ AllocationChain lengths c worldSize bounds batches ∧
      ∀ rank < worldSize,
        allocate lengths (npCumsum lengths) c rank worldSize = some (batches.map fun batch => batch.getD rank []) := by
  obtain ⟨batches, bounds, head, chain, allocated⟩ :=
    allocateLoop_sound (fun x member => ⟨Int.le_trans (by decide) (lengthsInRange x member).1, (lengthsInRange x member).2⟩)
      positiveWorld (lengths.length + 1) 0 0 (fun _ => []) (Nat.zero_le _) (by omega)
  exact ⟨batches, bounds, head, chain, fun rank below => by simpa using allocated rank below⟩

/-- The allocation of the lengths `[3, 2, 2]` under capacity `4` over two ranks. -/
theorem allocate_same_steps_disjoint_within_capacity_two_ranks :
    (∀ x ∈ ([3, 2, 2] : List Int), 1 ≤ x ∧ x ≤ 4) ∧ 0 < 2 ∧
      ∃ batches bounds, bounds.head? = some 0 ∧ AllocationChain [3, 2, 2] 4 2 bounds batches ∧
        ∀ rank < 2, allocate [3, 2, 2] (npCumsum [3, 2, 2]) 4 rank 2 = some (batches.map fun batch => batch.getD rank []) :=
  ⟨by decide, by decide, allocate_same_steps_disjoint_within_capacity _ _ _ (by decide) (by decide)⟩

end RealRlhf.Datapack
