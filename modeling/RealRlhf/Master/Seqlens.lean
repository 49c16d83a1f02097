import Mathlib.Data.List.Basic

namespace RealRlhf.Master

/-!
# How the master counts the sequences of a sample

The master reads the length metadata of a sample under one of four keys. It counts the
sequences with `_get_n_seqs_from_batch_sample`, which tries `input_lens`, `cu_seqlens`,
`prompt_lens`, `prompt_cu_seqlens` in that order ("the length of the generated text rather than
prompts"). It cuts a sample into sequences with `split_packed_batch_into_seqs`, which tries
`input_lens`, `prompt_lens`, `cu_seqlens`, `prompt_cu_seqlens`, and reads the lengths off the
cumulative lengths as `cu_seqlens[1:] - cu_seqlens[:-1]`, which recovers the lengths whose prefix
sums they are (`seqlensOfCu_scanl`). The two orders differ on a sample holding `cu_seqlens` and
`prompt_lens` but not `input_lens`, and there the two functions count the same number of
sequences only when the two keys do (`splitCount_eq_getNSeqs_iff`); `load_data_func` asserts that
the counts agree.
-/

/-- The length metadata of a sample under each key the master reads; `none` where the key is missing. -/
structure SeqlensKeys where
  inputLens : Option (List Int)
  cuSeqlens : Option (List Int)
  promptLens : Option (List Int)
  promptCuSeqlens : Option (List Int)
  deriving DecidableEq, Repr

/-- `_get_n_seqs_from_batch_sample(sample)`; `none` is the failed assertion that one of the keys is there. -/
def getNSeqsFromBatchSample (sample : SeqlensKeys) : Option Int :=
  match sample.inputLens with
  | some inputLens => some inputLens.length
  | none =>
      match sample.cuSeqlens with
      | some cuSeqlens => some (cuSeqlens.length - 1)
      | none =>
          match sample.promptLens with
          | some promptLens => some promptLens.length
          | none => sample.promptCuSeqlens.map fun promptCuSeqlens => (promptCuSeqlens.length : Int) - 1

/-- `cu_seqlens[1:] - cu_seqlens[:-1]`: the lengths of the sequences. -/
def seqlensOfCu (cuSeqlens : List Int) : List Int :=
  List.zipWith (· - ·) cuSeqlens.tail cuSeqlens.dropLast

/--
The `input_lens` that `split_packed_batch_into_seqs(sample)` splits by, when no `input_lens` is
passed; `none` where it stays `None` and `input_lens.shape` raises.
-/
def splitInputLens (sample : SeqlensKeys) : Option (List Int) :=
  match sample.inputLens with
  | some inputLens => some inputLens
  | none =>
      match sample.promptLens with
      | some promptLens => some promptLens
      | none =>
          match sample.cuSeqlens with
          | some cuSeqlens => some (seqlensOfCu cuSeqlens)
          | none => sample.promptCuSeqlens.map seqlensOfCu

/-- The number of pieces the split gives: `scatter_to` with `n_dp=len(input_lens)` and one sequence per piece. -/
def splitCount (sample : SeqlensKeys) : Option Int :=
  (splitInputLens sample).map fun inputLens => (inputLens.length : Int)

@[simp] theorem seqlensOfCu_cons_cons (first second : Int) (rest : List Int) :
    seqlensOfCu (first :: second :: rest) = (second - first) :: seqlensOfCu (second :: rest) := by
  simp [seqlensOfCu]

/-- One length per consecutive pair of cumulative lengths. -/
@[simp] theorem length_seqlensOfCu (cuSeqlens : List Int) :
    (seqlensOfCu cuSeqlens).length = cuSeqlens.length - 1 := by
  simp [seqlensOfCu]

/-- The lengths read off the prefix sums of `lengths`, from any start, are `lengths`. -/
theorem seqlensOfCu_scanl :
    ∀ (lengths : List Int) (start : Int), seqlensOfCu (lengths.scanl (· + ·) start) = lengths
  | [], _ => rfl
  | length :: lengths, start => by
      cases lengths with
      | nil =>
          simp only [List.scanl_cons, List.scanl_nil, List.singleton_append, seqlensOfCu_cons_cons]
          rw [Int.add_comm, Int.add_sub_cancel]
          rfl
      | cons next lengths =>
          have rest := seqlensOfCu_scanl (next :: lengths) (start + length)
          simp only [List.scanl_cons, List.singleton_append] at rest ⊢
          rw [seqlensOfCu_cons_cons, rest, Int.add_comm, Int.add_sub_cancel]

/-- The `cu_seqlens` of three sequences of lengths `3`, `2`, `4` give their lengths back. -/
example : seqlensOfCu [0, 3, 5, 9] = [3, 2, 4] := by
  decide

/--
On a sample whose cumulative lengths are not empty, the split cuts as many pieces as
`_get_n_seqs_from_batch_sample` counts, except where the sample lacks `input_lens` and holds
both `cu_seqlens` and `prompt_lens`: the split then follows `prompt_lens` and the count follows
`cu_seqlens`, and the two agree exactly when these keys describe as many sequences.
-/
theorem splitCount_eq_getNSeqs_iff
    (sample : SeqlensKeys)
    (cuNonempty : ∀ cuSeqlens, sample.cuSeqlens = some cuSeqlens → cuSeqlens ≠ [])
    (promptCuNonempty : ∀ promptCuSeqlens, sample.promptCuSeqlens = some promptCuSeqlens → promptCuSeqlens ≠ []) :
    splitCount sample = getNSeqsFromBatchSample sample ↔
      (sample.inputLens = none → ∀ cuSeqlens promptLens, sample.cuSeqlens = some cuSeqlens →
        sample.promptLens = some promptLens → (promptLens.length : Int) = cuSeqlens.length - 1) := by
  obtain ⟨inputLens, cuSeqlens, promptLens, promptCuSeqlens⟩ := sample
  cases inputLens with
  | some inputLens => simp [splitCount, splitInputLens, getNSeqsFromBatchSample]
  | none =>
      cases cuSeqlens with
      | some cuSeqlens =>
          have counted : ((cuSeqlens.length - 1 : Nat) : Int) = cuSeqlens.length - 1 := by
            have := List.length_pos.mpr (cuNonempty cuSeqlens rfl)
            omega
          cases promptLens <;> simp [splitCount, splitInputLens, getNSeqsFromBatchSample, counted]
      | none =>
          cases promptLens with
          | some promptLens => simp [splitCount, splitInputLens, getNSeqsFromBatchSample]
          | none =>
              cases promptCuSeqlens with
              | some promptCuSeqlens =>
                  have counted : ((promptCuSeqlens.length - 1 : Nat) : Int) = promptCuSeqlens.length - 1 := by
                    have := List.length_pos.mpr (promptCuNonempty promptCuSeqlens rfl)
                    omega
                  simp [splitCount, splitInputLens, getNSeqsFromBatchSample, counted]
              | none => simp [splitCount, splitInputLens, getNSeqsFromBatchSample]

/-- Three generated sequences of lengths `3`, `2` and `4`, with the `prompt_lens` of two prompts. -/
def mixedSample : SeqlensKeys :=
  ⟨none, some [0, 3, 5, 9], some [1, 1], none⟩

/-- On the sample above the split cuts two pieces where the count is three. -/
theorem splitCount_eq_getNSeqs_iff_mixed :
    (∀ cuSeqlens, mixedSample.cuSeqlens = some cuSeqlens → cuSeqlens ≠ []) ∧
      (∀ promptCuSeqlens, mixedSample.promptCuSeqlens = some promptCuSeqlens → promptCuSeqlens ≠ []) ∧
      splitCount mixedSample = some 2 ∧ getNSeqsFromBatchSample mixedSample = some 3 ∧
      (splitCount mixedSample = getNSeqsFromBatchSample mixedSample ↔
        (mixedSample.inputLens = none → ∀ cuSeqlens promptLens, mixedSample.cuSeqlens = some cuSeqlens →
          mixedSample.promptLens = some promptLens → (promptLens.length : Int) = cuSeqlens.length - 1)) :=
  have cuNonempty : ∀ cuSeqlens, mixedSample.cuSeqlens = some cuSeqlens → cuSeqlens ≠ [] := fun _ same => by
    simp only [mixedSample, Option.some.injEq] at same
    simp [← same]
  have promptCuNonempty : ∀ promptCuSeqlens, mixedSample.promptCuSeqlens = some promptCuSeqlens →
      promptCuSeqlens ≠ [] := fun _ same => by
    simp [mixedSample] at same
  ⟨cuNonempty, promptCuNonempty, rfl, rfl, splitCount_eq_getNSeqs_iff mixedSample cuNonempty promptCuNonempty⟩

end RealRlhf.Master
