import Mathlib

namespace RealRlhf.PipeCkpt

/-!
# Splitting a checkpoint into pipeline stages and shards

`split_state_dict_by_stage` and `split_state_dict_into_shards` of
`scripts/transform_to_pipe_ckpt.py`, and the pipeline branch of its `main`. A state dict is
its list of (key, value) entries in insertion order, and a key is the list of its characters.
`partition_layers` turns the boundaries `parts` of `ds_utils` into
`stage_to_layer_idx[stage] = (parts[stage], parts[stage + 1])`.

A stage keeps a key when `k.startswith(f"{i}.")` for some layer `i` of the stage. Decimal
digits are never `'.'`, and `str(i)` can be read back, so the test singles out exactly the
key's own layer: `'1.'` never matches a key of layer `10`. The stages then partition the
entries, and the shards of a stage are consecutive pieces of it.
-/

/-! ## Decimal layer prefixes -/

/-- Decimal digits read back, most significant first. -/
def decimalValue (digits : List Char) : Nat :=
  digits.foldl (fun value digit => 10 * value + (digit.toNat - '0'.toNat)) 0

/-- The digits of `toDigitsCore` come before what it is given. -/
theorem toDigitsCore_append :
    ∀ (fuel n : Nat) (suffix : List Char),
      Nat.toDigitsCore 10 fuel n suffix = Nat.toDigitsCore 10 fuel n [] ++ suffix
  | 0, _, _ => rfl
  | fuel + 1, n, suffix => by
      simp only [Nat.toDigitsCore]
      split
      · rfl
      · rw [toDigitsCore_append fuel _ (_ :: suffix), toDigitsCore_append fuel _ [_]]
        simp

/-- With enough fuel the decimal digits of `n` read back as `n`. -/
theorem decimalValue_toDigitsCore :
    ∀ (fuel n : Nat), n < fuel → decimalValue (Nat.toDigitsCore 10 fuel n []) = n
  | 0, _, noFuel => absurd noFuel (Nat.not_lt_zero _)
  | fuel + 1, n, enoughFuel => by
      have digitValue : ∀ d < 10, (Nat.digitChar d).toNat - '0'.toNat = d := by decide
      simp only [Nat.toDigitsCore]
      split
      · simp only [decimalValue, List.foldl_cons, List.foldl_nil, digitValue _ (Nat.mod_lt n (by decide))]
        omega
      · rw [toDigitsCore_append, decimalValue, List.foldl_append, ← decimalValue,
          decimalValue_toDigitsCore fuel (n / 10) (by omega)]
        simp only [List.foldl_cons, List.foldl_nil, digitValue _ (Nat.mod_lt n (by decide))]
        omega

/-- `str(i)` determines `i`. -/
theorem toDigits_injective
    {i j : Nat}
    (sameDigits : Nat.toDigits 10 i = Nat.toDigits 10 j) :
    i = j := by
  have readBack := congrArg decimalValue sameDigits
  rwa [Nat.toDigits, Nat.toDigits, decimalValue_toDigitsCore _ _ (Nat.lt_succ_self i),
    decimalValue_toDigitsCore _ _ (Nat.lt_succ_self j)] at readBack

/-- No decimal digit is `'.'`. -/
theorem dot_not_mem_toDigitsCore :
    ∀ (fuel n : Nat), '.' ∉ Nat.toDigitsCore 10 fuel n []
  | 0, _ => List.not_mem_nil _
  | fuel + 1, n => by
      have digitNotDot : ∀ d < 10, Nat.digitChar d ≠ '.' := by decide
      simp only [Nat.toDigitsCore]
      split
      · simpa using (digitNotDot _ (Nat.mod_lt n (by decide))).symm
      · rw [toDigitsCore_append]
        simpa [not_or] using ⟨dot_not_mem_toDigitsCore fuel (n / 10), (digitNotDot _ (Nat.mod_lt n (by decide))).symm⟩

/-- Two lists without `'.'`, each followed by `'.'`, one a prefix of the other, are equal. -/
theorem eq_of_prefix_dotted :
    ∀ {xs ys rest : List Char}, '.' ∉ xs → '.' ∉ ys → xs ++ ['.'] <+: ys ++ '.' :: rest → xs = ys
  | [], [], _, _, _, _ => rfl
  | [], y :: _, _, _, noDotY, isPrefix => by
      simp only [List.nil_append, List.cons_append, List.cons_prefix_cons] at isPrefix
      exact absurd (isPrefix.1 ▸ List.mem_cons_self _ _) noDotY
  | x :: _, [], _, noDotX, _, isPrefix => by
      simp only [List.nil_append, List.cons_append, List.cons_prefix_cons] at isPrefix
      exact absurd (isPrefix.1 ▸ List.mem_cons_self _ _) noDotX
  | x :: xs, y :: ys, _, noDotX, noDotY, isPrefix => by
      simp only [List.cons_append, List.cons_prefix_cons] at isPrefix
      rw [isPrefix.1, eq_of_prefix_dotted (fun member => noDotX (List.mem_cons_of_mem _ member))
        (fun member => noDotY (List.mem_cons_of_mem _ member)) isPrefix.2]

/-- `k.startswith(f"{i}.")`. -/
def layerPrefixMatches (i : Nat) (key : List Char) : Bool :=
  (Nat.toDigits 10 i ++ ['.']).isPrefixOf key

/-- A key of layer `i` starts with `f"{j}."` exactly for `j = i`. -/
theorem layerPrefixMatches_iff
    (i j : Nat)
    (rest : List Char) :
    layerPrefixMatches j (Nat.toDigits 10 i ++ '.' :: rest) = true ↔ j = i := by
  rw [layerPrefixMatches, List.isPrefixOf_iff_prefix]
  constructor
  · intro isPrefix
    exact toDigits_injective
      (eq_of_prefix_dotted (dot_not_mem_toDigitsCore _ _) (dot_not_mem_toDigitsCore _ _) isPrefix)
  · rintro rfl
    exact ⟨rest, by simp⟩

/-! ## The stage split -/

section Split

variable {V : Type}

/-- The inner loop `for i in range(start, stop): if k.startswith(f"{i}."): ...; break`: whether a layer of the stage prefixes the key. -/
def stageKeeps (start stop : Nat) (key : List Char) : Bool :=
  (List.range' start (stop - start)).any fun i => layerPrefixMatches i key

/-- A stage keeps a key of layer `i` exactly when `i` is one of its layers. -/
theorem stageKeeps_iff
    (start stop i : Nat)
    (rest : List Char) :
    stageKeeps start stop (Nat.toDigits 10 i ++ '.' :: rest) = true ↔ start ≤ i ∧ i < stop := by
  simp only [stageKeeps, List.any_eq_true, List.mem_range'_1, layerPrefixMatches_iff]
  constructor
  · rintro ⟨j, ⟨low, high⟩, rfl⟩
    omega
  · rintro ⟨low, high⟩
    exact ⟨i, ⟨low, by omega⟩, rfl⟩

/-- `split_state_dict_by_stage`: for each `stage: (start, stop)`, the entries whose key starts with `f"{i}."` for some `i in range(start, stop)`. -/
def splitStateDictByStage (stateDict : List (List Char × V)) (stageToLayerIdx : List (Nat × Nat × Nat)) :
    List (Nat × List (List Char × V)) :=
  stageToLayerIdx.map fun (stage, start, stop) => (stage, stateDict.filter fun entry => stageKeeps start stop entry.1)

/-- The `stage_to_layer_idx` of `partition_layers`: stage `s` holds layers `parts[s]` to `parts[s + 1] - 1`. -/
def stageToLayerIdx (parts : List Nat) (numStages : Nat) : List (Nat × Nat × Nat) :=
  (List.range numStages).map fun stage => (stage, parts.getD stage 0, parts.getD (stage + 1) 0)

/-- The shard loop: `keys[start:start + size]` for each size in turn, `start` advancing by `size`. -/
def takeShards {α : Type} : List Nat → List α → List (List α)
  | [], _ => []
  | size :: sizes, entries => entries.take size :: takeShards sizes (entries.drop size)

/--
`split_state_dict_into_shards(state_dict, n_shards)`: `n_shards - 1` shards of
`len(keys) // n_shards` entries and a last one with the remainder as well; `none` for the
`ValueError` on fewer keys than shards and for the division by zero at `n_shards = 0`.
-/
def splitStateDictIntoShards (stateDict : List (List Char × V)) (nShards : Nat) :
    Option (List (List (List Char × V))) :=
  if nShards = 1 then some [stateDict]
  else if stateDict.length < nShards then none
  else if nShards = 0 then none
  else
    let shardSize := stateDict.length / nShards
    let extra := stateDict.length % nShards
    some (takeShards (List.replicate (nShards - 1) shardSize ++ [shardSize + extra]) stateDict)

/-- The pipeline branch of `main` for one model-parallel rank: the state dict split by stage, then each stage's dict into `n_shards` shards; `none` where a split raises. -/
def pipelineShards (stateDict : List (List Char × V)) (parts : List Nat) (numStages nShards : Nat) :
    Option (List (List (List (List Char × V)))) :=
  (splitStateDictByStage stateDict (stageToLayerIdx parts numStages)).mapM fun stage =>
    splitStateDictIntoShards stage.2 nShards

/-! ## Nothing lost, nothing repeated -/

/-- The shards, put back together, are the first `sum(sizes)` entries. -/
theorem flatten_takeShards
    {α : Type} :
    ∀ (sizes : List Nat) (entries : List α), (takeShards sizes entries).flatten = entries.take sizes.sum
  | [], _ => by simp [takeShards]
  | size :: sizes, entries => by simp [takeShards, flatten_takeShards sizes, List.take_add]

/-- The shards of a split that does not raise, put back together, are the stage's entries. -/
theorem flatten_of_splitStateDictIntoShards
    {stateDict : List (List Char × V)}
    {nShards : Nat}
    {shards : List (List (List Char × V))}
    (split : splitStateDictIntoShards stateDict nShards = some shards) :
    shards.flatten = stateDict := by
  unfold splitStateDictIntoShards at split
  split_ifs at split with single fewer noShards
  · cases split
    simp
  · cases split
    obtain ⟨m, rfl⟩ := Nat.exists_eq_succ_of_ne_zero noShards
    have whole := Nat.div_add_mod stateDict.length (m + 1)
    rw [Nat.succ_mul] at whole
    rw [flatten_takeShards, List.take_of_length_le]
    simp only [List.sum_append, List.sum_replicate, Nat.nsmul_eq_mul, List.sum_cons, List.sum_nil, Nat.succ_sub_one,
      Nat.succ_eq_add_one]
    omega

/-- A `mapM` in `Option` that succeeds relates each input to its output. -/
theorem forall₂_of_mapM_eq_some
    {α β : Type}
    {f : α → Option β} :
    ∀ {xs : List α} {ys : List β}, xs.mapM f = some ys → List.Forall₂ (fun x y => f x = some y) xs ys
  | [], _, mapped => by
      cases mapped
      exact .nil
  | x :: xs, ys, mapped => by
      rw [List.mapM_cons] at mapped
      simp only [Option.bind_eq_bind, Option.bind_eq_some, Option.pure_def, Option.some.injEq] at mapped
      obtain ⟨y, first, rest, others, rfl⟩ := mapped
      exact .cons first (forall₂_of_mapM_eq_some others)

/-- The shards of the stages, each put back together, are the stages' entries. -/
theorem map_flatten_of_pipelineShards
    {stateDict : List (List Char × V)}
    {parts : List Nat}
    {numStages nShards : Nat}
    {shards : List (List (List (List Char × V)))}
    (split : pipelineShards stateDict parts numStages nShards = some shards) :
    shards.map List.flatten = (List.range numStages).map fun stage =>
      stateDict.filter fun entry => stageKeeps (parts.getD stage 0) (parts.getD (stage + 1) 0) entry.1 := by
  have related : ∀ {stages : List (Nat × List (List Char × V))} {shards : List (List (List (List Char × V)))},
      List.Forall₂ (fun stage shards => splitStateDictIntoShards stage.2 nShards = some shards) stages shards →
        shards.map List.flatten = stages.map Prod.snd := by
    intro stages shards splits
    induction splits with
    | nil => rfl
    | cons stageSplit _ inductionHypothesis =>
        simp [flatten_of_splitStateDictIntoShards stageSplit, inductionHypothesis]
  rw [related (forall₂_of_mapM_eq_some split)]
  simp [splitStateDictByStage, stageToLayerIdx, Function.comp_def]

/-- Filters by predicates no two of which hold together, put together in order, are a permutation of the filter by their disjunction. -/
theorem flatten_map_filter_perm
    {α : Type}
    (keep : Nat → α → Bool)
    (l : List α)
    (exclusive : ∀ x ∈ l, ∀ s t, s < t → keep s x = true → keep t x = true → False) :
    ∀ n, ((List.range n).map fun s => l.filter (keep s)).flatten.Perm
      (l.filter fun x => (List.range n).any fun s => keep s x)
  | 0 => by simp
  | n + 1 => by
      have split := List.filter_append_perm (fun x => (List.range n).any fun s => keep s x)
        (l.filter fun x => (List.range (n + 1)).any fun s => keep s x)
      simp only [List.filter_filter] at split
      have lastStage : ((List.range (n + 1)).map fun s => l.filter (keep s)).flatten =
          ((List.range n).map fun s => l.filter (keep s)).flatten ++ l.filter (keep n) := by
        simp [List.range_succ]
      rw [lastStage]
      refine ((flatten_map_filter_perm keep l exclusive n).append_right _).trans (List.Perm.trans ?_ split)
      refine List.Perm.of_eq (congrArg₂ (· ++ ·) (List.filter_congr fun x _ => ?_)
        (List.filter_congr fun x member => ?_))
      · rw [List.range_succ, List.any_append]
        cases (List.range n).any fun s => keep s x <;> simp
      · rw [List.range_succ, List.any_append]
        cases last : keep n x
        · cases (List.range n).any fun s => keep s x <;> simp [last]
        · have noEarlier : ((List.range n).any fun s => keep s x) = false :=
            List.any_eq_false.mpr fun s earlierStage kept =>
              exclusive x member s n (List.mem_range.mp earlierStage) kept last
          simp [noEarlier, last]

/-- Boundaries rising step by step rise between any two stages. -/
theorem parts_monotone
    {parts : List Nat}
    {numStages : Nat}
    (partsMonotone : ∀ s < numStages, parts.getD s 0 ≤ parts.getD (s + 1) 0)
    {s : Nat} :
    ∀ {t}, s ≤ t → t ≤ numStages → parts.getD s 0 ≤ parts.getD t 0
  | 0, atMost, _ => by rw [Nat.le_zero.mp atMost]
  | t + 1, atMost, inRange => by
      rcases Nat.lt_or_eq_of_le atMost with before | rfl
      · exact (parts_monotone partsMonotone (by omega) (by omega)).trans (partsMonotone t (by omega))
      · exact le_rfl

/-- A layer at least `parts[0]` and below `parts[t]` lies in one of the first `t` stages. -/
theorem exists_stage_of_lt
    (parts : List Nat)
    {i : Nat}
    (fromStart : parts.getD 0 0 ≤ i) :
    ∀ t, i < parts.getD t 0 → ∃ s < t, parts.getD s 0 ≤ i ∧ i < parts.getD (s + 1) 0
  | 0, below => absurd below (by omega)
  | t + 1, below => by
      by_cases earlier : i < parts.getD t 0
      · obtain ⟨s, before, within⟩ := exists_stage_of_lt parts fromStart t earlier
        exact ⟨s, by omega, within⟩
      · exact ⟨t, by omega, by omega, below⟩

end Split

/--
Splitting a state dict whose keys are `f"{i}.{rest}"` with `i < L` by the stages of
boundaries `0 = parts[0] ≤ ... ≤ parts[S] = L`, then each stage into `n_shards` shards,
gives one list of shards per stage; put together, all shards hold exactly the entries of
the state dict, each as often as it is there, and stage `s` holds exactly the entries of
layers `parts[s]` to `parts[s + 1] - 1`.
-/
theorem pipelineShards_partition_by_layer
    {V : Type}
    (stateDict : List (List Char × V))
    (numLayers numStages nShards : Nat)
    (parts : List Nat)
    (keysLayered : ∀ entry ∈ stateDict, ∃ i < numLayers, ∃ rest, entry.1 = Nat.toDigits 10 i ++ '.' :: rest)
    (partsLength : parts.length = numStages + 1)
    (partsStart : parts.getD 0 0 = 0)
    (partsMonotone : ∀ s < numStages, parts.getD s 0 ≤ parts.getD (s + 1) 0)
    (partsEnd : parts.getD numStages 0 = numLayers)
    (shards : List (List (List (List Char × V))))
    (split : pipelineShards stateDict parts numStages nShards = some shards) :
    shards.length = numStages ∧
      (shards.map List.flatten).flatten.Perm stateDict ∧
      ∀ s < numStages, ∀ entry ∈ stateDict, ∀ i rest, entry.1 = Nat.toDigits 10 i ++ '.' :: rest →
        (entry ∈ (shards.getD s []).flatten ↔ parts.getD s 0 ≤ i ∧ i < parts.getD (s + 1) 0) := by
  have stages := map_flatten_of_pipelineShards split
  have keptIff : ∀ s, ∀ entry ∈ stateDict, ∀ i rest, entry.1 = Nat.toDigits 10 i ++ '.' :: rest →
      (stageKeeps (parts.getD s 0) (parts.getD (s + 1) 0) entry.1 = true ↔
        parts.getD s 0 ≤ i ∧ i < parts.getD (s + 1) 0) := by
    intro s entry _ i rest layered
    rw [layered, stageKeeps_iff]
  refine ⟨by simpa using congrArg List.length stages, ?_, fun s below entry member i rest layered => ?_⟩
  · -- the stages keep disjoint sets of layers covering `[0, L)`
    rw [stages]
    refine (flatten_map_filter_perm _ stateDict ?_ numStages).trans (List.Perm.of_eq (List.filter_eq_self.mpr ?_))
    · intro entry member s t before keptS keptT
      obtain ⟨i, belowLayers, rest, layered⟩ := keysLayered entry member
      have inS := (keptIff s entry member i rest layered).mp keptS
      have inT := (keptIff t entry member i rest layered).mp keptT
      have stageT : t < numStages := by
        by_contra beyond
        have noBound : parts.getD (t + 1) 0 = 0 := List.getD_eq_default _ _ (by omega)
        omega
      have := parts_monotone partsMonotone (by omega : s + 1 ≤ t) stageT.le
      omega
    · intro entry member
      obtain ⟨i, belowLayers, rest, layered⟩ := keysLayered entry member
      obtain ⟨s, below, within⟩ := exists_stage_of_lt parts (partsStart ▸ Nat.zero_le i) numStages
        (partsEnd ▸ belowLayers)
      exact List.any_eq_true.mpr ⟨s, List.mem_range.mpr below, (keptIff s entry member i rest layered).mpr within⟩
  · have ownStage : (shards.getD s []).flatten =
        stateDict.filter fun entry => stageKeeps (parts.getD s 0) (parts.getD (s + 1) 0) entry.1 := by
      rw [← List.getD_map _ _ List.flatten, stages]
      simp [List.getD_eq_getElem?_getD, below]
    rw [ownStage, List.mem_filter, ← keptIff s entry member i rest layered]
    exact and_iff_right member

/-- The keys `1.w` and `1.b` of layer 1 and `10.w` and `10.b` of layer 10, each holding its layer. -/
def clashStateDict : List (List Char × Nat) :=
  [(['1', '.', 'w'], 1), (['1', '.', 'b'], 1), (['1', '0', '.', 'w'], 10), (['1', '0', '.', 'b'], 10)]

/-- The shards of `clashStateDict` over the stages `[0, 2)` and `[2, 11)`, two shards each. -/
def clashShards : List (List (List (List Char × Nat))) :=
  [[[(['1', '.', 'w'], 1)], [(['1', '.', 'b'], 1)]], [[(['1', '0', '.', 'w'], 10)], [(['1', '0', '.', 'b'], 10)]]]

/-- Over the stages `[0, 2)` and `[2, 11)` with two shards each, the prefix `1.` of the first stage does not claim the keys of layer 10, and each stage's two keys go one to a shard. -/
theorem pipelineShards_partition_by_layer_two_shards :
    (∀ entry ∈ clashStateDict, ∃ i < 11, ∃ rest, entry.1 = Nat.toDigits 10 i ++ '.' :: rest) ∧
      [0, 2, 11].length = 2 + 1 ∧ [0, 2, 11].getD 0 0 = 0 ∧
      (∀ s < 2, [0, 2, 11].getD s 0 ≤ [0, 2, 11].getD (s + 1) 0) ∧ [0, 2, 11].getD 2 0 = 11 ∧
      pipelineShards clashStateDict [0, 2, 11] 2 2 = some clashShards ∧
      clashShards.length = 2 ∧ (clashShards.map List.flatten).flatten.Perm clashStateDict ∧
      ∀ s < 2, ∀ entry ∈ clashStateDict, ∀ i rest, entry.1 = Nat.toDigits 10 i ++ '.' :: rest →
        (entry ∈ (clashShards.getD s []).flatten ↔ [0, 2, 11].getD s 0 ≤ i ∧ i < [0, 2, 11].getD (s + 1) 0) := by
  have layered : ∀ entry ∈ clashStateDict, ∃ i < 11, ∃ rest, entry.1 = Nat.toDigits 10 i ++ '.' :: rest := by
    simp only [clashStateDict, List.mem_cons, List.mem_singleton, List.not_mem_nil, or_false]
    rintro _ (rfl | rfl | rfl | rfl)
    exacts [⟨1, by decide, ['w'], rfl⟩, ⟨1, by decide, ['b'], rfl⟩, ⟨10, by decide, ['w'], rfl⟩,
      ⟨10, by decide, ['b'], rfl⟩]
  have split : pipelineShards clashStateDict [0, 2, 11] 2 2 = some clashShards := by
    decide
  exact ⟨layered, rfl, rfl, by decide, rfl, split,
    pipelineShards_partition_by_layer _ 11 2 2 [0, 2, 11] layered rfl rfl (by decide) rfl _ split⟩

end RealRlhf.PipeCkpt
