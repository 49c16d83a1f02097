import RealRlhf.Base.Ffd
import RealRlhf.Base.Datapack

namespace RealRlhf.Dataset

open Datapack

/-!
# Packed paired reward-modelling batches

`RewardModelingPackedPairedDataset` of `impl/dataset/common/packed_rw_paired_dataset.py`.
`__init__` loads and checks the records, tokenises the answers of each prompt group, and
splits the groups among the data-parallel ranks with `min_abs_diff_partition`. It passes
that function the Python list `group_token_lengths`, for which numba cannot compile it
(the function's first line reads `arr.shape`), so `__init__` raises `TypingError` on every
input that passes its checks (`init_raises_typingError_at_partition`).

`PackedPairedDataset` is the state `__init__` would leave if that call received an array,
as its sibling call to `ffd_with_result_unsorted` does: the prompt groups of this rank in
shuffled order. Each epoch of `__iter__` packs the groups with `ffd_with_result_unsorted`
into batches of at most `n_tokens_per_batch` tokens, shuffles the batches, and turns each
batch into packed tensors. Token ids are natural numbers; `group_factor`, a float tensor in
the source, is rational here.

The packing of `Base.Ffd` gives every epoch its budget and its cover of the groups. The
per-batch tensors are characterised for every batch that `__iter__` yields, including the
two comprehensions whose first `range(g)` reads the `g` left over from the sanity loop.
-/
/-- One prompt group as `__init__` leaves it: the prompt's token length and the token ids of its positive and negative answers, one to one (`RuntimeError` otherwise) and not empty. -/
structure PromptGroup where
  promptLen : Nat
  posAnswers : List (List Nat)
  negAnswers : List (List Nat)
  paired : posAnswers.length = negAnswers.length
  nonempty : posAnswers ≠ []

/-- `group_sizes[i] = len(pos_answers[i])`. -/
def PromptGroup.groupSize (group : PromptGroup) : Nat :=
  group.posAnswers.length

/-- `group_posneg_seqlens[i]`: the token lengths of all answers of the group, summed. -/
def PromptGroup.posnegSeqlen (group : PromptGroup) : Nat :=
  (group.posAnswers.map List.length).sum + (group.negAnswers.map List.length).sum

/-- The dataset of one rank as `__init__` would leave it past its partition call: its prompt groups in shuffled order and `n_tokens_per_batch`, with the assertion of `__init__` that every group fits a batch. -/
structure PackedPairedDataset where
  groups : List PromptGroup
  nTokensPerBatch : Nat
  groupsFit : ∀ group ∈ groups, group.posnegSeqlen ≤ nTokensPerBatch

/-- Two prompt groups of two pairs each, with prompts of 3 and 5 tokens; each answer holds the prompt, one answer token and `eos` (id `0`). The budget of 48 tokens holds both groups. -/
def twoGroupDataset : PackedPairedDataset :=
  ⟨[⟨3, [[1, 2, 3, 4, 0], [1, 2, 3, 5, 0]], [[1, 2, 3, 6, 0], [1, 2, 3, 7, 0]], rfl, by simp⟩,
    ⟨5, [[1, 2, 3, 4, 5, 6, 0], [1, 2, 3, 4, 5, 7, 0]], [[1, 2, 3, 4, 5, 8, 0], [1, 2, 3, 4, 5, 9, 0]], rfl,
      by simp⟩], 48, by decide⟩

/-- `ffd_with_result_unsorted(np.array(self.group_posneg_seqlens), self.n_tokens_per_batch)`: an epoch's batches of group indices before `rng.shuffle`. -/
def PackedPairedDataset.batchIndices (dataset : PackedPairedDataset) : List (List Nat) :=
  ffdWithResultUnsorted (dataset.groups.map fun group => (group.posnegSeqlen : Int)) dataset.nTokensPerBatch

/-- `[self.pos_answer_tokens[i] for i in indices]` and its siblings read the groups of a batch; an index out of range raises. -/
def PackedPairedDataset.batchGroups (dataset : PackedPairedDataset) (indices : List Nat) :
    Option (List PromptGroup) :=
  indices.mapM fun index => dataset.groups[index]?

/-- `zip(pos_answers, neg_answers)` over the chained answers of the groups. -/
def answerPairs (groups : List PromptGroup) : List (List Nat × List Nat) :=
  (groups.map PromptGroup.posAnswers).flatten.zip (groups.map PromptGroup.negAnswers).flatten

/-- `seqlens`: per pair, the lengths of its positive and negative answers, summed. -/
def seqlensOf (groups : List PromptGroup) : List Nat :=
  (answerPairs groups).map fun (pos, neg) => pos.length + neg.length

/-- The tensors `__iter__` yields for one batch. -/
structure PackedBatch where
  packedInputIds : List Nat
  inputLens : List Nat
  pairInputLens : List Nat
  groupFactor : List ℚ
  promptLens : List Nat
  deriving Repr, DecidableEq

/--
The body of `__iter__`'s loop for the batch `indices`, `none` where an `assert` fails or an
index is out of range. In `[1 / g for _ in range(g) for g in group_sizes]` and
`[x for _ in range(g) for x, g in zip(prompt_lens, group_sizes)]` the first `range(g)` is
evaluated in the enclosing scope, where `g` is the last group size bound by the sanity loop
`for pa, na, g in zip(group_pos_answers, group_neg_answers, group_sizes)`; a batch without
groups leaves it unbound.
-/
def PackedPairedDataset.iterBatch (dataset : PackedPairedDataset) (indices : List Nat) :
    Option PackedBatch := do
  let groups ← dataset.batchGroups indices
  let promptLens := groups.map PromptGroup.promptLen
  let pairs := (answerPairs groups).flatMap fun (pos, neg) => [pos, neg]
  let pairSeqlens := pairs.map List.length
  let seqlens := seqlensOf groups
  let groupSizes := groups.map PromptGroup.groupSize
  guard (seqlens.enum.all fun (j, s) => s == pairSeqlens.getD (2 * j) 0 + pairSeqlens.getD (2 * j + 1) 0)
  guard (groups.all fun group =>
    group.posAnswers.length == group.negAnswers.length && group.negAnswers.length == group.groupSize)
  let g ← groupSizes.getLast?
  guard (seqlens.sum ≤ dataset.nTokensPerBatch)
  let packedInputIds := pairs.flatten
  let groupFactor := (List.range g).flatMap fun _ => groupSizes.map fun g => (1 : ℚ) / g
  let promptLens := (List.range g).flatMap fun _ => (promptLens.zip groupSizes).map Prod.fst
  guard (promptLens.length == seqlens.length)
  guard (packedInputIds.length == pairSeqlens.sum && pairSeqlens.sum == seqlens.sum)
  pure ⟨packedInputIds, seqlens, pairSeqlens, groupFactor, promptLens⟩

/-! ## The token budget of an epoch -/

/-- The answer pairs of a group come before those of the groups after it. -/
theorem answerPairs_cons
    (group : PromptGroup)
    (groups : List PromptGroup) :
    answerPairs (group :: groups) = group.posAnswers.zip group.negAnswers ++ answerPairs groups := by
  simp only [answerPairs, List.map_cons, List.flatten_cons]
  exact List.zip_append group.paired

/-- Over answers paired one to one, the per-pair token counts add up to all tokens. -/
theorem sum_map_zip_lengths :
    ∀ (pos neg : List (List Nat)), pos.length = neg.length →
      ((pos.zip neg).map fun (p, n) => p.length + n.length).sum =
        (pos.map List.length).sum + (neg.map List.length).sum
  | [], [], _ => rfl
  | p :: pos, n :: neg, sameLength => by
      simp only [List.zip_cons_cons, List.map_cons, List.sum_cons,
        sum_map_zip_lengths pos neg (by simpa using sameLength)]
      omega
  | [], _ :: _, sameLength | _ :: _, [], sameLength => by simp at sameLength

/-- `sum(seqlens)` is the token count of the batch's groups. -/
theorem sum_seqlensOf
    (groups : List PromptGroup) :
    (seqlensOf groups).sum = (groups.map PromptGroup.posnegSeqlen).sum := by
  induction groups with
  | nil => rfl
  | cons group groups inductionHypothesis =>
      simp only [seqlensOf, answerPairs_cons, List.map_append, List.sum_append, List.map_cons,
        List.sum_cons, sum_map_zip_lengths _ _ group.paired] at inductionHypothesis ⊢
      rw [inductionHypothesis, PromptGroup.posnegSeqlen]

/-- The groups of a batch whose indices are in range are read, and their token counts add up to the batch's load in the packing. -/
theorem batchGroups_load
    (dataset : PackedPairedDataset) :
    ∀ (indices : List Nat), (∀ index ∈ indices, index < dataset.groups.length) →
      ∃ groups, dataset.batchGroups indices = some groups ∧
        ((groups.map PromptGroup.posnegSeqlen).sum : Int) =
          binLoad (dataset.groups.map fun group => (group.posnegSeqlen : Int)) indices
  | [], _ => ⟨[], rfl, rfl⟩
  | index :: indices, inRange => by
      simp only [List.mem_cons, forall_eq_or_imp] at inRange
      obtain ⟨groups, read, load⟩ := batchGroups_load dataset indices inRange.2
      refine ⟨dataset.groups[index] :: groups, ?_, ?_⟩
      · rw [PackedPairedDataset.batchGroups] at read
        rw [PackedPairedDataset.batchGroups, List.mapM_cons, List.getElem?_eq_getElem inRange.1, read]
        rfl
      · simp only [binLoad, List.map_cons, List.sum_cons] at load ⊢
        simp [load, List.getElem?_eq_getElem inRange.1]

/-- Every batch of an epoch, in any shuffled order, reads its groups and stays within `n_tokens_per_batch`, and the epoch covers each group exactly once. -/
theorem epoch_within_budget_exactly_once
    (dataset : PackedPairedDataset)
    {shuffled : List (List Nat)}
    (shuffledBatches : shuffled.Perm dataset.batchIndices) :
    (∀ indices ∈ shuffled, ∃ groups, dataset.batchGroups indices = some groups ∧
        (seqlensOf groups).sum ≤ dataset.nTokensPerBatch) ∧
      shuffled.flatten.Perm (List.range dataset.groups.length) := by
  have sizesInRange : ∀ x ∈ dataset.groups.map fun group => (group.posnegSeqlen : Int),
      0 ≤ x ∧ x ≤ dataset.nTokensPerBatch := by
    simp only [List.mem_map]
    rintro _ ⟨group, member, rfl⟩
    exact ⟨Int.natCast_nonneg _, Int.ofNat_le.mpr (dataset.groupsFit group member)⟩
  have packing := ffdWithResultUnsorted_packing sizesInRange
  have cover : shuffled.flatten.Perm (List.range dataset.groups.length) := by
    simpa using shuffledBatches.flatten.trans packing.exactlyOnce
  refine ⟨fun indices member => ?_, cover⟩
  obtain ⟨groups, read, load⟩ := batchGroups_load dataset indices fun index indexMember => by
    simpa using cover.subset (List.mem_flatten.mpr ⟨indices, member, indexMember⟩)
  have withinCapacity := packing.withinCapacity indices (shuffledBatches.subset member)
  refine ⟨groups, read, ?_⟩
  rw [sum_seqlensOf]
  omega

/--
`ffd_with_result` and `ffd_with_result_unsorted` return first-fit packings of items sized in
`[0, c]`, and every epoch of the packed paired dataset keeps each of its batches within
`n_tokens_per_batch` and covers each prompt group exactly once.
-/
theorem ffd_packings_sound_and_epoch_batches_fit
    (a : List Int)
    (c : Int)
    (sizesInRange : ∀ x ∈ a, 0 ≤ x ∧ x ≤ c)
    (dataset : PackedPairedDataset)
    (shuffled : List (List Nat))
    (shuffledBatches : shuffled.Perm dataset.batchIndices) :
    FirstFitPacking a c (ffdWithResult a c) ∧ FirstFitPacking a c (ffdWithResultUnsorted a c) ∧
      (∀ indices ∈ shuffled, ∃ groups, dataset.batchGroups indices = some groups ∧
          (seqlensOf groups).sum ≤ dataset.nTokensPerBatch) ∧
        shuffled.flatten.Perm (List.range dataset.groups.length) :=
  ⟨ffdWithResult_packing sizesInRange, ffdWithResultUnsorted_packing sizesInRange,
    epoch_within_budget_exactly_once dataset shuffledBatches⟩

/-- The packing guarantees hold of the items `[600, 500, 400, 400, 300, 200, 100]` under capacity `1000`, and of the epoch of `twoGroupDataset`. -/
theorem ffd_packings_sound_and_epoch_batches_fit_scenario :
    (∀ x ∈ ([600, 500, 400, 400, 300, 200, 100] : List Int), 0 ≤ x ∧ x ≤ 1000) ∧
      [[0, 1]].Perm twoGroupDataset.batchIndices ∧
      FirstFitPacking [600, 500, 400, 400, 300, 200, 100] 1000
          (ffdWithResult [600, 500, 400, 400, 300, 200, 100] 1000) ∧
        FirstFitPacking [600, 500, 400, 400, 300, 200, 100] 1000
          (ffdWithResultUnsorted [600, 500, 400, 400, 300, 200, 100] 1000) ∧
        (∀ indices ∈ [[0, 1]], ∃ groups, twoGroupDataset.batchGroups indices = some groups ∧
            (seqlensOf groups).sum ≤ twoGroupDataset.nTokensPerBatch) ∧
          [[0, 1]].flatten.Perm (List.range twoGroupDataset.groups.length) :=
  ⟨by decide, by decide,
    ffd_packings_sound_and_epoch_batches_fit _ _ (by decide) twoGroupDataset [[0, 1]] (by decide)⟩

/-! ## The per-pair metadata of a batch -/

/--
A batch that `__iter__` yields carries `prompt_lens` and `group_factor` as the per-group
values of all its groups, repeated once for each pair of its last group: the first
`range(g)` of each comprehension reads the `g` the sanity loop left behind.
-/
theorem iterBatch_per_pair_metadata
    {dataset : PackedPairedDataset}
    {indices : List Nat}
    {batch : PackedBatch}
    (yielded : dataset.iterBatch indices = some batch) :
    ∃ groups last, dataset.batchGroups indices = some groups ∧ groups.getLast? = some last ∧
      batch.promptLens = (List.range last.groupSize).flatMap (fun _ => groups.map PromptGroup.promptLen) ∧
      batch.groupFactor =
        (List.range last.groupSize).flatMap (fun _ => groups.map fun group => (1 : ℚ) / group.groupSize) := by
  unfold PackedPairedDataset.iterBatch at yielded
  cases read : dataset.batchGroups indices with
  | none => rw [read] at yielded; cases yielded
  | some groups =>
      cases lastGroup : groups.getLast? with
      | none =>
          simp only [read, List.getLast?_map, lastGroup, Option.bind_eq_bind, Option.some_bind, Option.map_none',
            Option.none_bind, Option.bind_none, Option.bind_eq_some, reduceCtorEq, and_false, exists_false] at yielded
      | some last =>
          simp only [read, List.getLast?_map, lastGroup, Option.bind_eq_bind, Option.some_bind, Option.map_some',
            guard, Option.bind_eq_some, failure, Option.ite_none_right_eq_some, reduceCtorEq, Option.pure_def,
            Option.some.injEq, exists_eq_right, and_true, exists_const] at yielded
          obtain ⟨-, -, -, -, -, rfl⟩ := yielded
          refine ⟨groups, last, rfl, lastGroup, ?_, ?_⟩
          · simp [List.map_fst_zip]
          · simp only [bind, pure, List.singleton, ← List.map_eq_flatMap, List.map_map, Function.comp_def,
              one_div]

/-- Packed into one batch, the two groups of `twoGroupDataset` give `prompt_lens = [3, 5, 3, 5]`, where the pairs' own prompts have `[3, 3, 5, 5]`. -/
example :
    twoGroupDataset.batchIndices = [[0, 1]] ∧
      (twoGroupDataset.iterBatch [0, 1]).map PackedBatch.promptLens = some [3, 5, 3, 5] := by
  decide

/-! ## The constructor -/

/-- A Python `str`, as its sequence of characters. -/
abbrev Text :=
  List Char

/-- One record of the dataset: a prompt and its positive and negative answers. -/
structure PairedRecord where
  prompt : Text
  posAnswers : List Text
  negAnswers : List Text
  deriving Repr, DecidableEq

/-- Where `__init__` takes its records: the file at `dataset_path`, or `dataset_builder()` when no path is given. -/
inductive DatasetSource where
  /-- `dataset_path` and the records its file holds. -/
  | path (datasetPath : Text) (records : List PairedRecord)
  /-- `dataset_path = None`, with what `dataset_builder()` returns, `none` for `dataset_builder = None`. -/
  | builder (records : Option (List PairedRecord))
  deriving Repr, DecidableEq

/-- What `__init__` reads of `util`: the data-parallel world size, this rank, and the tokenizer's `eos_token` and token ids. -/
structure DatasetUtility where
  worldSize : Nat
  ddpRank : Nat
  eosToken : Text
  encode : Text → List Nat

/-- The exceptions `__init__` raises, with the messages it gives them. -/
inductive InitError where
  | notImplementedError (message : String)
  | assertionError
  | valueError (message : String)
  | runtimeError (message : String)
  /-- numba's error when it cannot compile an `njit` function for the types of a call's arguments. -/
  | typingError
  | indexError
  /-- Not an exception: the backtracking loop of `min_abs_diff_partition` never exits. -/
  | loopsForever
  deriving Repr, DecidableEq

/-- The records of the source; a path must end in `.jsonl` or `.json`. -/
def DatasetSource.load : DatasetSource → Except InitError (List PairedRecord)
  | .path datasetPath records =>
      if ".jsonl".toList.isSuffixOf datasetPath || ".json".toList.isSuffixOf datasetPath then .ok records
      else .error (.notImplementedError ("Unkown dataset extension: " ++ String.mk datasetPath))
  | .builder (some records) => .ok records
  | .builder none => .error .assertionError

/-- `pa.startswith(x['prompt']) or na.startswith(x['prompt'])` for some pair of `zip(pos_answers, neg_answers)`. -/
def PairedRecord.answerStartsWithPrompt (record : PairedRecord) : Bool :=
  (record.posAnswers.zip record.negAnswers).any fun (pa, na) =>
    record.prompt.isPrefixOf pa || record.prompt.isPrefixOf na

/-- `x['prompt'] + c + tokenizer.eos_token` for each answer `c`. -/
def answerTexts (eosToken prompt : Text) (answers : List Text) : List Text :=
  answers.map fun c => prompt ++ c ++ eosToken

/--
`pos_answers` and `neg_answers`: all answers of each record, or with `max_pairs_per_prompt`
the draws of `self.rng.choice`, whose `n`-th call on the generator `choice n` stands for.
The positive answers of every record are drawn before the negative ones.
-/
def answerGroups (eosToken : Text) (maxPairsPerPrompt : Option Nat)
    (choice : Nat → List Text → Nat → Except InitError (List Text)) (data : List PairedRecord) :
    Except InitError (List (List Text) × List (List Text)) :=
  match maxPairsPerPrompt with
  | some size => do
      let posAnswers ← data.enum.mapM fun (n, x) => answerTexts eosToken x.prompt <$> choice n x.posAnswers size
      let negAnswers ← data.enum.mapM fun (n, x) =>
        answerTexts eosToken x.prompt <$> choice (data.length + n) x.negAnswers size
      pure (posAnswers, negAnswers)
  | none =>
      pure (data.map (fun x => answerTexts eosToken x.prompt x.posAnswers),
        data.map fun x => answerTexts eosToken x.prompt x.negAnswers)

/-- The loop over `zip(pos_answers, neg_answers)`: each group one to one, then not empty. -/
def checkPairs : List (List Text) → List (List Text) → Except InitError Unit
  | a :: posAnswers, b :: negAnswers =>
      if a.length ≠ b.length then .error (.runtimeError "pos_answers and neg_answers must be one-to-one pairs.")
      else if a.length = 0 then .error (.runtimeError "pos_answers and neg_answers must be non-empty.")
      else checkPairs posAnswers negAnswers
  | _, _ => .ok ()

/--
The loop over `group_sizes` with its running `offset`, then `group_token_lengths`: per group,
the token lengths of its positive answers `[offset, offset + g)` and of its negative answers
`[sum(group_sizes) + offset, sum(group_sizes) + offset + g)`, summed.
-/
def groupTokenLengths (lengths : List Nat) (total : Nat) : List Nat → Nat → List Nat
  | [], _ => []
  | g :: groupSizes, offset =>
      (((lengths.drop offset).take g).sum + ((lengths.drop (total + offset)).take g).sum) ::
        groupTokenLengths lengths total groupSizes (offset + g)

/--
`__init__` up to `group_token_lengths`: the records loaded and put in the order of
`get_shuffle_indices(util.seed, len(data))`, the answers checked and paired, and the answer
texts tokenised with truncation to `max_length`.
-/
def initGroupTokenLengths (util : DatasetUtility) (maxLength : Nat) (maxPairsPerPrompt : Option Nat)
    (source : DatasetSource) (getShuffleIndices : Nat → List Nat)
    (choice : Nat → List Text → Nat → Except InitError (List Text)) : Except InitError (List Nat) := do
  let loaded ← source.load
  let data ← (getShuffleIndices loaded.length).mapM fun i => (loaded[i]?).elim (.error .indexError) .ok
  if data.any PairedRecord.answerStartsWithPrompt then throw (.valueError "Answers should not start with prompt.")
  let (posAnswers, negAnswers) ← answerGroups util.eosToken maxPairsPerPrompt choice data
  checkPairs posAnswers negAnswers
  let groupSizes := posAnswers.map List.length
  let tokenLengths := (posAnswers ++ negAnswers).flatten.map fun text => ((util.encode text).take maxLength).length
  pure (groupTokenLengths tokenLengths groupSizes.sum groupSizes 0)

/-- An argument of an `@numba.njit` function as numba types it: a numpy array, or a Python list, which it types as a reflected list. -/
inductive NumbaArg where
  | array (values : List Nat)
  | reflectedList (values : List Nat)

/-- The `arr` that `min_abs_diff_partition` is compiled for: its line `n = arr.shape[0]` types on an array, and a reflected list has no attribute `shape`. -/
def NumbaArg.arr : NumbaArg → Except InitError (List Nat)
  | .array values => .ok values
  | .reflectedList _ => .error .typingError

/--
`__init__` up to `start, end = min_abs_diff_partition(group_token_lengths, util.world_size)[util.ddp_rank]`,
the range of prompt groups this rank keeps, on which everything after it works.
`group_token_lengths` is passed as the Python list it is.
-/
def PackedPairedDataset.init (util : DatasetUtility) (maxLength : Nat) (maxPairsPerPrompt : Option Nat)
    (source : DatasetSource) (getShuffleIndices : Nat → List Nat)
    (choice : Nat → List Text → Nat → Except InitError (List Text)) : Except InitError (Nat × Nat) := do
  let groupTokenLengths ← initGroupTokenLengths util maxLength maxPairsPerPrompt source getShuffleIndices choice
  let arr ← (NumbaArg.reflectedList groupTokenLengths).arr
  let partitions ← (minAbsDiffPartition arr util.worldSize).elim (.error .loopsForever) .ok
  (partitions[util.ddpRank]?).elim (.error .indexError) .ok

/-- The arguments of the module's `__main__` check, one world of one rank, on a file with one record whose answers pass the checks. -/
example :
    PackedPairedDataset.init ⟨1, 0, "<|endoftext|>".toList, fun text => text.map Char.toNat⟩ 1024 (some 10)
        (.path "rm_paired-valid.jsonl".toList [⟨"Q: ".toList, ["good".toList], ["bad".toList]⟩]) List.range
        (fun _ answers size => .ok (List.replicate size (answers.headD []))) =
      .error .typingError :=
  rfl

end RealRlhf.Dataset
