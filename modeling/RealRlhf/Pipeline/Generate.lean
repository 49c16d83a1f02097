import RealRlhf.Pipeline.Schedule

namespace RealRlhf.Pipeline

/-!
# The generate schedule

`GenerateSchedule` runs `max_new_tokens` rounds of the inference pipeline. Round `τ`
forwards token `τ` of every micro-batch, and micro-batch ids repeat with period
`max(micro_batches, stages)`: stage `s` at step `t` works on micro-batch
`(t - s) % max(M, S)` and token `(t - s) // max(M, S)`. Activations move one stage per
step through the alternating buffers of the inference schedule; the last stage sends the
sampled tokens back to the first (`SendNextTokens`, `RecvNextTokens`), which loads them
(`LoadNextTokens`) before the next round's forward pass. The generator's state is the
micro-batch and token id of the previous step.

The forward passes, loads and activation exchanges follow a clean arithmetic pattern
(`generateSteps_forwardPass_once` and the lemmas after it). The next-token exchange does
not: the first stage starts receiving only after its first round (`step < micro_batches`),
while the last stage starts sending `stages` steps in. With more micro-batches than stages
the two disagree. The activation exchange alone pairs every send with a receive on the next
stage, so no step stalls on it (`generateExchange_finished_or_rendezvous`).
-/

/-- `max(self.num_micro_batches, self.stages)`: the period of the micro-batch ids. -/
def generatePeriod (microBatches stages : Nat) : Nat :=
  max microBatches stages

/-- `GenerateSchedule.max_steps`. -/
def generateMaxSteps (microBatches stages maxNewTokens : Nat) : Nat :=
  maxNewTokens * generatePeriod microBatches stages + microBatches - 1

/-- The step's `micro_batch_id`: `-1` before the stage's first step. -/
def generateMicroBatchId (microBatches stages stageId stepId : Nat) : Int :=
  if 0 ≤ (stepId : Int) - stageId then
    ((stepId : Int) - stageId) % (generatePeriod microBatches stages : Int)
  else
    -1

/-- The step's `token_id`, by floor division. -/
def generateTokenId (microBatches stages stageId stepId : Nat) : Int :=
  ((stepId : Int) - stageId) / (generatePeriod microBatches stages : Int)

/-- `last_stage_last_mbid`: the micro-batch the last stage worked on in the previous step. -/
def lastStageLastMicroBatchId (microBatches stages stepId : Nat) : Int :=
  ((stepId : Int) - stages) % (generatePeriod microBatches stages : Int)

/-- `GenerateSchedule._valid_token_id`. -/
def validTokenId (maxNewTokens : Nat) (tokenId : Int) : Bool :=
  tokenId < maxNewTokens

/-- The condition the source repeats for the step's own ids: a valid micro-batch and token. -/
def generateForwards (microBatches stages stageId maxNewTokens stepId : Nat) : Bool :=
  validMicroBatch microBatches (generateMicroBatchId microBatches stages stageId stepId) &&
    validTokenId maxNewTokens (generateTokenId microBatches stages stageId stepId)

/-- The commands `GenerateSchedule.steps` yields at `stepId`, after a step with the given ids. -/
def generateCmds (microBatches stages stageId maxNewTokens stepId : Nat)
    (lastMicroBatchId lastTokenId : Int) : List PipeInstruction :=
  let microBatchId := generateMicroBatchId microBatches stages stageId stepId
  let firstRound := decide (stepId < microBatches)
  let lastStageLastMbid := lastStageLastMicroBatchId microBatches stages stepId
  let recvBuf := (alternatingBuffers stageId stepId).1
  let sendBuf := (alternatingBuffers stageId stepId).2
  let isFirstStage := (stageId : Int) == 0
  let isLastStage := (stageId : Int) == (stages : Int) - 1
  let forwards := generateForwards microBatches stages stageId maxNewTokens stepId
  let forwardedLast := validMicroBatch microBatches lastMicroBatchId && validTokenId maxNewTokens lastTokenId
  (if isEven stageId then
      emitIf (forwardedLast && !isLastStage) (.sendActivation sendBuf) ++
        emitIf (forwards && !isFirstStage) (.recvActivation recvBuf)
    else
      emitIf forwards (.recvActivation recvBuf) ++
        emitIf (forwardedLast && !isLastStage) (.sendActivation sendBuf)) ++
    emitIf (isLastStage && forwardedLast) (.sendNextTokens lastMicroBatchId) ++
    emitIf (isFirstStage && !firstRound && validMicroBatch microBatches lastStageLastMbid)
      (.recvNextTokens lastStageLastMbid) ++
    (if isFirstStage && firstRound then
      emitIf forwards (.loadMicroBatch recvBuf microBatchId)
    else
      emitIf (forwards && isFirstStage) (.loadNextTokens recvBuf microBatchId)) ++
    emitIf forwards (.forwardPass recvBuf microBatchId)

/-- The generator loop of `GenerateSchedule.steps`, carrying `last_micro_batch_id` and `last_token_id`. -/
def generateLoop (microBatches stages stageId maxNewTokens : Nat) : Nat → Nat → Int → Int → List ScheduleStep
  | 0, _, _, _ => []
  | remaining + 1, stepId, lastMicroBatchId, lastTokenId =>
      ⟨stepId, generateMicroBatchId microBatches stages stageId stepId,
          generateCmds microBatches stages stageId maxNewTokens stepId lastMicroBatchId lastTokenId⟩ ::
        generateLoop microBatches stages stageId maxNewTokens remaining (stepId + 1)
          (generateMicroBatchId microBatches stages stageId stepId)
          (generateTokenId microBatches stages stageId stepId)

/-- `GenerateSchedule.steps`: `max_steps` steps from `last_micro_batch_id = last_token_id = -1`. -/
def generateSteps (microBatches stages stageId maxNewTokens : Nat) : List ScheduleStep :=
  generateLoop microBatches stages stageId maxNewTokens (generateMaxSteps microBatches stages maxNewTokens) 0 (-1) (-1)

/-- The generator's `(last_micro_batch_id, last_token_id)` when it reaches step `stepId`. -/
def generateLastIds (microBatches stages stageId stepId : Nat) : Int × Int :=
  if stepId = 0 then (-1, -1)
  else (generateMicroBatchId microBatches stages stageId (stepId - 1),
    generateTokenId microBatches stages stageId (stepId - 1))

/-- The commands of step `stepId` of the run. -/
def generateCmdsAt (microBatches stages stageId maxNewTokens stepId : Nat) : List PipeInstruction :=
  generateCmds microBatches stages stageId maxNewTokens stepId
    (generateLastIds microBatches stages stageId stepId).1 (generateLastIds microBatches stages stageId stepId).2

section Ids

variable {microBatches stages stageId maxNewTokens stepId : Nat}

/-- Micro-batch `m` and token `τ` meet at stage `s` exactly at step `s + τ * max(M, S) + m`. -/
theorem generateIds_eq_iff
    {microBatchId tokenId : Nat}
    (valid : microBatchId < microBatches) :
    generateMicroBatchId microBatches stages stageId stepId = microBatchId ∧
        generateTokenId microBatches stages stageId stepId = tokenId ↔
      stepId = stageId + tokenId * generatePeriod microBatches stages + microBatchId := by
  have positive : (0 : Int) < generatePeriod microBatches stages := by
    unfold generatePeriod
    omega
  have product : ((tokenId * generatePeriod microBatches stages : Nat) : Int) =
      (generatePeriod microBatches stages : Int) * tokenId := by
    push_cast
    exact Int.mul_comm _ _
  unfold generateMicroBatchId generateTokenId
  split
  · rw [and_comm, Int.ediv_emod_unique positive]
    have : microBatches ≤ generatePeriod microBatches stages := le_max_left _ _
    omega
  · omega

/-- A stage forwards at a step exactly when the step's ids are a valid micro-batch and token. -/
theorem generateForwards_eq_true_iff :
    generateForwards microBatches stages stageId maxNewTokens stepId = true ↔
      ∃ microBatchId tokenId : Nat, microBatchId < microBatches ∧ tokenId < maxNewTokens ∧
        generateMicroBatchId microBatches stages stageId stepId = microBatchId ∧
        generateTokenId microBatches stages stageId stepId = tokenId := by
  unfold generateForwards validTokenId
  simp only [Bool.and_eq_true, validMicroBatch_eq_true, decide_eq_true_eq]
  constructor
  · rintro ⟨⟨nonneg, below⟩, token⟩
    have started : 0 ≤ (stepId : Int) - stageId := by
      unfold generateMicroBatchId at nonneg
      split at nonneg <;> omega
    have tokenNonneg : 0 ≤ generateTokenId microBatches stages stageId stepId :=
      Int.ediv_nonneg started (Int.ofNat_nonneg _)
    refine ⟨_, _, ?_, ?_, (Int.toNat_of_nonneg nonneg).symm, (Int.toNat_of_nonneg tokenNonneg).symm⟩ <;> omega
  · rintro ⟨microBatchId, tokenId, valid, token, sameBatch, sameToken⟩
    omega

/-- A stage forwards at step `t` exactly at `s + τ * max(M, S) + m` for a valid micro-batch and token. -/
theorem generateForwards_eq_true_iff_step :
    generateForwards microBatches stages stageId maxNewTokens stepId = true ↔
      ∃ microBatchId tokenId : Nat, microBatchId < microBatches ∧ tokenId < maxNewTokens ∧
        stepId = stageId + tokenId * generatePeriod microBatches stages + microBatchId := by
  rw [generateForwards_eq_true_iff]
  constructor
  · rintro ⟨microBatchId, tokenId, valid, token, ids⟩
    exact ⟨microBatchId, tokenId, valid, token, (generateIds_eq_iff valid).mp ids⟩
  · rintro ⟨microBatchId, tokenId, valid, token, step⟩
    exact ⟨microBatchId, tokenId, valid, token, (generateIds_eq_iff valid).mpr step⟩

/-- The next stage sees at step `t + 1` the ids this stage saw at step `t`. -/
@[simp] theorem generateMicroBatchId_succ :
    generateMicroBatchId microBatches stages (stageId + 1) (stepId + 1) =
      generateMicroBatchId microBatches stages stageId stepId := by
  have shift : ((stepId + 1 : Nat) : Int) - ((stageId + 1 : Nat) : Int) = (stepId : Int) - stageId := by omega
  simp only [generateMicroBatchId, shift]

@[simp] theorem generateTokenId_succ :
    generateTokenId microBatches stages (stageId + 1) (stepId + 1) =
      generateTokenId microBatches stages stageId stepId := by
  have shift : ((stepId + 1 : Nat) : Int) - ((stageId + 1 : Nat) : Int) = (stepId : Int) - stageId := by omega
  simp only [generateTokenId, shift]

@[simp] theorem generateForwards_succ :
    generateForwards microBatches stages (stageId + 1) maxNewTokens (stepId + 1) =
      generateForwards microBatches stages stageId maxNewTokens stepId := by
  simp only [generateForwards, generateMicroBatchId_succ, generateTokenId_succ]

/-- Before its first step a stage has no micro-batch. -/
theorem generateMicroBatchId_of_lt
    (early : stepId < stageId) :
    generateMicroBatchId microBatches stages stageId stepId = -1 := by
  unfold generateMicroBatchId
  split <;> omega

/-- The previous step's ids are valid exactly when the stage forwarded in the previous step. -/
theorem generateForwardedLast_eq :
    (validMicroBatch microBatches (generateLastIds microBatches stages stageId stepId).1 &&
        validTokenId maxNewTokens (generateLastIds microBatches stages stageId stepId).2) =
      (decide (1 ≤ stepId) && generateForwards microBatches stages stageId maxNewTokens (stepId - 1)) := by
  unfold generateLastIds
  split <;> simp_all [generateForwards, validMicroBatch, Nat.one_le_iff_ne_zero]

end Ids

section Run

variable {microBatches stages stageId maxNewTokens stepId : Nat}

/-- The loop from any step yields the closed-form steps from there on. -/
theorem generateLoop_eq
    (remaining start : Nat) :
    generateLoop microBatches stages stageId maxNewTokens remaining start
        (generateLastIds microBatches stages stageId start).1 (generateLastIds microBatches stages stageId start).2 =
      (List.range' start remaining).map fun stepId =>
        ⟨stepId, generateMicroBatchId microBatches stages stageId stepId,
          generateCmdsAt microBatches stages stageId maxNewTokens stepId⟩ := by
  induction remaining generalizing start with
  | zero =>
      rfl
  | succ remaining inductionHypothesis =>
      have next : generateLastIds microBatches stages stageId (start + 1) =
          (generateMicroBatchId microBatches stages stageId start, generateTokenId microBatches stages stageId start) := by
        simp [generateLastIds]
      rw [generateLoop, List.range'_succ, List.map_cons, ← inductionHypothesis, next]
      rfl

/-- `GenerateSchedule.steps` step by step. -/
theorem generateSteps_eq :
    generateSteps microBatches stages stageId maxNewTokens =
      (List.range (generateMaxSteps microBatches stages maxNewTokens)).map fun stepId =>
        ⟨stepId, generateMicroBatchId microBatches stages stageId stepId,
          generateCmdsAt microBatches stages stageId maxNewTokens stepId⟩ := by
  have start : generateLastIds microBatches stages stageId 0 = (-1, -1) := rfl
  rw [generateSteps, List.range_eq_range', ← generateLoop_eq, start]

/-- Events of the run: the instructions of each step below `max_steps`. -/
theorem mem_events_generateSteps
    {event : Nat × Int × PipeInstruction} :
    event ∈ events (generateSteps microBatches stages stageId maxNewTokens) ↔
      event.1 < generateMaxSteps microBatches stages maxNewTokens ∧
        event.2.1 = generateMicroBatchId microBatches stages stageId event.1 ∧
        event.2.2 ∈ generateCmdsAt microBatches stages stageId maxNewTokens event.1 := by
  obtain ⟨t, microBatchId, instruction⟩ := event
  simp only [events, generateSteps_eq, List.flatMap_map, List.mem_flatMap, List.mem_range, List.mem_map,
    Prod.mk.injEq]
  constructor
  · rintro ⟨t, inRange, instruction, member, rfl, rfl, rfl⟩
    exact ⟨inRange, rfl, member⟩
  · rintro ⟨inRange, rfl, member⟩
    exact ⟨t, inRange, instruction, member, rfl, rfl, rfl⟩

end Run

section Commands

variable {microBatches stages stageId maxNewTokens stepId bufferId : Nat} {microBatchId : Int}

@[simp] theorem mem_generateCmdsAt_forwardPass :
    .forwardPass bufferId microBatchId ∈ generateCmdsAt microBatches stages stageId maxNewTokens stepId ↔
      generateForwards microBatches stages stageId maxNewTokens stepId = true ∧
        bufferId = (alternatingBuffers stageId stepId).1 ∧
        microBatchId = generateMicroBatchId microBatches stages stageId stepId := by
  by_cases forwards : generateForwards microBatches stages stageId maxNewTokens stepId = true <;>
    simp [generateCmdsAt, generateCmds, forwards, and_comm]

@[simp] theorem mem_generateCmdsAt_sendActivation :
    .sendActivation bufferId ∈ generateCmdsAt microBatches stages stageId maxNewTokens stepId ↔
      1 ≤ stepId ∧ generateForwards microBatches stages stageId maxNewTokens (stepId - 1) = true ∧
        stageId + 1 ≠ stages ∧ bufferId = (alternatingBuffers stageId stepId).2 := by
  by_cases forwarded : generateForwards microBatches stages stageId maxNewTokens (stepId - 1) = true
  · simp [generateCmdsAt, generateCmds, generateForwardedLast_eq, forwarded]
    omega
  · simp [generateCmdsAt, generateCmds, generateForwardedLast_eq, forwarded]

@[simp] theorem mem_generateCmdsAt_recvActivation :
    .recvActivation bufferId ∈ generateCmdsAt microBatches stages stageId maxNewTokens stepId ↔
      generateForwards microBatches stages stageId maxNewTokens stepId = true ∧ stageId ≠ 0 ∧
        bufferId = (alternatingBuffers stageId stepId).1 := by
  by_cases forwards : generateForwards microBatches stages stageId maxNewTokens stepId = true
  · simp [generateCmdsAt, generateCmds, forwards]
    omega
  · simp [generateCmdsAt, generateCmds, forwards]

@[simp] theorem mem_generateCmdsAt_sendNextTokens :
    .sendNextTokens microBatchId ∈ generateCmdsAt microBatches stages stageId maxNewTokens stepId ↔
      stageId + 1 = stages ∧ 1 ≤ stepId ∧ generateForwards microBatches stages stageId maxNewTokens (stepId - 1) = true ∧
        microBatchId = (generateLastIds microBatches stages stageId stepId).1 := by
  by_cases forwarded : generateForwards microBatches stages stageId maxNewTokens (stepId - 1) = true
  · simp [generateCmdsAt, generateCmds, generateForwardedLast_eq, forwarded]
    omega
  · simp [generateCmdsAt, generateCmds, generateForwardedLast_eq, forwarded]

@[simp] theorem mem_generateCmdsAt_recvNextTokens :
    .recvNextTokens microBatchId ∈ generateCmdsAt microBatches stages stageId maxNewTokens stepId ↔
      stageId = 0 ∧ microBatches ≤ stepId ∧
        validMicroBatch microBatches (lastStageLastMicroBatchId microBatches stages stepId) = true ∧
        microBatchId = lastStageLastMicroBatchId microBatches stages stepId := by
  simp [generateCmdsAt, generateCmds]
  omega

@[simp] theorem mem_generateCmdsAt_loadMicroBatch :
    .loadMicroBatch bufferId microBatchId ∈ generateCmdsAt microBatches stages stageId maxNewTokens stepId ↔
      stageId = 0 ∧ stepId < microBatches ∧
        generateForwards microBatches stages stageId maxNewTokens stepId = true ∧
        bufferId = (alternatingBuffers stageId stepId).1 ∧
        microBatchId = generateMicroBatchId microBatches stages stageId stepId := by
  by_cases forwards : generateForwards microBatches stages stageId maxNewTokens stepId = true
  · simp [generateCmdsAt, generateCmds, forwards]
    omega
  · simp [generateCmdsAt, generateCmds, forwards]

@[simp] theorem mem_generateCmdsAt_loadNextTokens :
    .loadNextTokens bufferId microBatchId ∈ generateCmdsAt microBatches stages stageId maxNewTokens stepId ↔
      stageId = 0 ∧ microBatches ≤ stepId ∧
        generateForwards microBatches stages stageId maxNewTokens stepId = true ∧
        bufferId = (alternatingBuffers stageId stepId).1 ∧
        microBatchId = generateMicroBatchId microBatches stages stageId stepId := by
  by_cases forwards : generateForwards microBatches stages stageId maxNewTokens stepId = true
  · simp [generateCmdsAt, generateCmds, forwards]
    omega
  · simp [generateCmdsAt, generateCmds, forwards]

/-- The forward passes of one step of a given micro-batch and token. -/
theorem generateCmdsAt_filter_forwardPassOf
    (microBatchId tokenId : Nat) :
    (generateCmdsAt microBatches stages stageId maxNewTokens stepId).filter (fun instruction =>
        instruction.isForwardPassOf microBatchId &&
          generateTokenId microBatches stages stageId stepId == tokenId) =
      emitIf (generateForwards microBatches stages stageId maxNewTokens stepId &&
          generateMicroBatchId microBatches stages stageId stepId == microBatchId &&
          generateTokenId microBatches stages stageId stepId == tokenId)
        (.forwardPass (alternatingBuffers stageId stepId).1 (generateMicroBatchId microBatches stages stageId stepId)) := by
  unfold generateCmdsAt generateCmds
  dsimp only
  split_ifs <;> simp [List.filter_append, PipeInstruction.isForwardPassOf, Bool.and_assoc]

/-- The loads of one step: only the first stage loads, in its first round. -/
theorem generateCmdsAt_filter_isLoadMicroBatchOf
    (microBatchId : Int) :
    (generateCmdsAt microBatches stages stageId maxNewTokens stepId).filter
        (PipeInstruction.isLoadMicroBatchOf microBatchId) =
      emitIf (((stageId : Int) == 0) && decide (stepId < microBatches) &&
          generateForwards microBatches stages stageId maxNewTokens stepId &&
          generateMicroBatchId microBatches stages stageId stepId == microBatchId)
        (.loadMicroBatch (alternatingBuffers stageId stepId).1 (generateMicroBatchId microBatches stages stageId stepId)) := by
  unfold generateCmdsAt generateCmds
  dsimp only
  split_ifs with first <;> simp_all [List.filter_append, PipeInstruction.isLoadMicroBatchOf]

end Commands

section Forwards

variable {microBatches stages stageId maxNewTokens : Nat}

/-- The step of micro-batch `m`'s token `τ` on a stage of the pipeline lies within `max_steps`. -/
theorem forwardStep_lt_generateMaxSteps
    (inPipeline : stageId < stages)
    {microBatchId tokenId : Nat}
    (valid : microBatchId < microBatches)
    (token : tokenId < maxNewTokens) :
    stageId + tokenId * generatePeriod microBatches stages + microBatchId <
      generateMaxSteps microBatches stages maxNewTokens := by
  have rounds : (tokenId + 1) * generatePeriod microBatches stages ≤
      maxNewTokens * generatePeriod microBatches stages := Nat.mul_le_mul_right _ token
  have wide : stages ≤ generatePeriod microBatches stages := le_max_right _ _
  rw [Nat.add_mul, Nat.one_mul] at rounds
  unfold generateMaxSteps
  omega

/--
Stage `s` forwards token `τ` of micro-batch `m` exactly once, at step
`s + τ * max(M, S) + m`, reading the buffer it receives into at that step.
-/
theorem generateSteps_forwardPass_once
    (inPipeline : stageId < stages)
    {microBatchId tokenId : Nat}
    (valid : microBatchId < microBatches)
    (token : tokenId < maxNewTokens) :
    (events (generateSteps microBatches stages stageId maxNewTokens)).filter (fun event =>
        event.2.2.isForwardPassOf microBatchId && generateTokenId microBatches stages stageId event.1 == tokenId) =
      [(stageId + tokenId * generatePeriod microBatches stages + microBatchId, (microBatchId : Int),
        .forwardPass (alternatingBuffers stageId (stageId + tokenId * generatePeriod microBatches stages + microBatchId)).1
          microBatchId)] := by
  have inRange := forwardStep_lt_generateMaxSteps inPipeline valid token
  obtain ⟨t₀, step⟩ : ∃ t₀, t₀ = stageId + tokenId * generatePeriod microBatches stages + microBatchId := ⟨_, rfl⟩
  rw [← step] at inRange ⊢
  have ids : generateMicroBatchId microBatches stages stageId t₀ = microBatchId ∧
      generateTokenId microBatches stages stageId t₀ = tokenId :=
    (generateIds_eq_iff valid).mpr step
  have forwards : generateForwards microBatches stages stageId maxNewTokens t₀ = true :=
    generateForwards_eq_true_iff.mpr ⟨microBatchId, tokenId, valid, token, ids⟩
  have atStep :
      (generateCmdsAt microBatches stages stageId maxNewTokens t₀).filter (fun instruction =>
          instruction.isForwardPassOf microBatchId && generateTokenId microBatches stages stageId t₀ == tokenId) =
        [.forwardPass (alternatingBuffers stageId t₀).1 microBatchId] := by
    rw [generateCmdsAt_filter_forwardPassOf, ids.1, ids.2, forwards]
    simp
  rw [generateSteps_eq, filter_events_eq_single inRange atStep]
  · simp only [ids.1]
  · intro t _ other
    rw [generateCmdsAt_filter_forwardPassOf, emitIf_eq_nil_iff]
    by_contra meets
    simp only [Bool.not_eq_false, Bool.and_eq_true, beq_iff_eq] at meets
    exact other (((generateIds_eq_iff valid).mp ⟨meets.1.2, meets.2⟩).trans step.symm)

/-- Before its first step a stage forwards nothing. -/
theorem generateForwards_of_lt
    {stepId : Nat}
    (early : stepId < stageId) :
    generateForwards microBatches stages stageId maxNewTokens stepId = false := by
  simp [generateForwards, generateMicroBatchId_of_lt early, validMicroBatch]

/-- Every forward pass of the run is of the step's own micro-batch and token, both valid. -/
theorem generateSteps_forwardPass_valid
    {event : Nat × Int × PipeInstruction}
    (member : event ∈ events (generateSteps microBatches stages stageId maxNewTokens))
    {bufferId : Nat}
    {microBatchId : Int}
    (forward : event.2.2 = .forwardPass bufferId microBatchId) :
    event.2.1 = microBatchId ∧ 0 ≤ microBatchId ∧ microBatchId < microBatches ∧
      0 ≤ generateTokenId microBatches stages stageId event.1 ∧
      generateTokenId microBatches stages stageId event.1 < maxNewTokens := by
  rw [mem_events_generateSteps, forward, mem_generateCmdsAt_forwardPass] at member
  obtain ⟨-, step, forwards, -, rfl⟩ := member
  obtain ⟨m, τ, valid, token, ids⟩ := generateForwards_eq_true_iff.mp forwards
  rw [step, ids.1, ids.2]
  omega

/-- Stage `s + 1` forwards what stage `s` forwards, one step later and for the same token. -/
theorem generateSteps_forwardPass_next_stage
    (nextInPipeline : stageId + 1 < stages)
    {t bufferId : Nat}
    {stepMicroBatchId microBatchId : Int}
    (member : (t, stepMicroBatchId, .forwardPass bufferId microBatchId) ∈
      events (generateSteps microBatches stages stageId maxNewTokens)) :
    (t + 1, microBatchId, .forwardPass (alternatingBuffers (stageId + 1) (t + 1)).1 microBatchId) ∈
        events (generateSteps microBatches stages (stageId + 1) maxNewTokens) ∧
      generateTokenId microBatches stages (stageId + 1) (t + 1) = generateTokenId microBatches stages stageId t := by
  simp only [mem_events_generateSteps, mem_generateCmdsAt_forwardPass] at member
  obtain ⟨-, -, forwards, -, rfl⟩ := member
  obtain ⟨m, τ, valid, token, ids⟩ := generateForwards_eq_true_iff.mp forwards
  have step := (generateIds_eq_iff valid).mp ids
  have inRange := forwardStep_lt_generateMaxSteps nextInPipeline valid token
  refine ⟨?_, generateTokenId_succ⟩
  simp only [mem_events_generateSteps, mem_generateCmdsAt_forwardPass, generateMicroBatchId_succ,
    generateForwards_succ, forwards, true_and, and_true]
  omega

/-- The first stage loads micro-batch `m` once, at step `m` of its first round. -/
theorem generateSteps_loadMicroBatch_once
    (hasToken : 0 < maxNewTokens)
    {microBatchId : Nat}
    (valid : microBatchId < microBatches) :
    (events (generateSteps microBatches stages 0 maxNewTokens)).filter
        (fun event => event.2.2.isLoadMicroBatchOf microBatchId) =
      [(microBatchId, (microBatchId : Int),
        .loadMicroBatch (alternatingBuffers 0 microBatchId).1 microBatchId)] := by
  have ids : generateMicroBatchId microBatches stages 0 microBatchId = microBatchId ∧
      generateTokenId microBatches stages 0 microBatchId = (0 : Nat) :=
    (generateIds_eq_iff valid).mpr (by omega)
  have forwards : generateForwards microBatches stages 0 maxNewTokens microBatchId = true :=
    generateForwards_eq_true_iff.mpr ⟨microBatchId, 0, valid, hasToken, ids⟩
  have atStep :
      (generateCmdsAt microBatches stages 0 maxNewTokens microBatchId).filter
          (PipeInstruction.isLoadMicroBatchOf microBatchId) =
        [.loadMicroBatch (alternatingBuffers 0 microBatchId).1 microBatchId] := by
    rw [generateCmdsAt_filter_isLoadMicroBatchOf, ids.1, forwards]
    simp [valid]
  have inRange : microBatchId < generateMaxSteps microBatches stages maxNewTokens := by
    have rounds : generatePeriod microBatches stages ≤ maxNewTokens * generatePeriod microBatches stages :=
      Nat.le_mul_of_pos_left _ hasToken
    have wide : microBatches ≤ generatePeriod microBatches stages := le_max_left _ _
    unfold generateMaxSteps
    omega
  rw [generateSteps_eq, filter_events_eq_single inRange atStep]
  · simp only [ids.1]
  · intro t _ other
    rw [generateCmdsAt_filter_isLoadMicroBatchOf, emitIf_eq_nil_iff]
    by_contra loads
    simp only [Bool.not_eq_false, Bool.and_eq_true, beq_iff_eq, decide_eq_true_eq] at loads
    obtain ⟨⟨⟨-, firstRound⟩, forwards⟩, same⟩ := loads
    obtain ⟨m, τ, -, -, ids⟩ := generateForwards_eq_true_iff.mp forwards
    have step := (generateIds_eq_iff valid).mp ⟨same, ids.2⟩
    have wide : microBatches ≤ generatePeriod microBatches stages := le_max_left _ _
    rcases τ with _ | τ
    · simp only [Nat.zero_mul] at step
      omega
    · have later := Nat.le_mul_of_pos_left (generatePeriod microBatches stages) (show 0 < τ + 1 by omega)
      omega

/-- From the second round on, the first stage loads the next tokens right before each forward pass. -/
theorem generateSteps_loadNextTokens_before_forward
    (hasStage : 0 < stages)
    {microBatchId tokenId : Nat}
    (valid : microBatchId < microBatches)
    (later : 1 ≤ tokenId)
    (token : tokenId < maxNewTokens) :
    ∃ step ∈ generateSteps microBatches stages 0 maxNewTokens,
      step.stepId = tokenId * generatePeriod microBatches stages + microBatchId ∧
      step.microBatchId = microBatchId ∧
      [.loadNextTokens (alternatingBuffers 0 step.stepId).1 microBatchId,
          .forwardPass (alternatingBuffers 0 step.stepId).1 microBatchId].Sublist step.cmds := by
  have inRange := forwardStep_lt_generateMaxSteps hasStage valid token
  obtain ⟨t, step⟩ : ∃ t, t = 0 + tokenId * generatePeriod microBatches stages + microBatchId := ⟨_, rfl⟩
  rw [← step] at inRange
  have ids : generateMicroBatchId microBatches stages 0 t = microBatchId ∧
      generateTokenId microBatches stages 0 t = tokenId :=
    (generateIds_eq_iff valid).mpr step
  have forwards : generateForwards microBatches stages 0 maxNewTokens t = true :=
    generateForwards_eq_true_iff.mpr ⟨microBatchId, tokenId, valid, token, ids⟩
  have laterRound : microBatches ≤ t := by
    have wide : microBatches ≤ generatePeriod microBatches stages := le_max_left _ _
    have rounds := Nat.le_mul_of_pos_left (generatePeriod microBatches stages) later
    omega
  refine ⟨⟨t, generateMicroBatchId microBatches stages 0 t, generateCmdsAt microBatches stages 0 maxNewTokens t⟩,
    ?_, by dsimp only; omega, ids.1, ?_⟩
  · rw [generateSteps_eq]
    exact List.mem_map.mpr ⟨t, List.mem_range.mpr inRange, rfl⟩
  · simp only [generateCmdsAt, generateCmds, ids.1, forwards, Nat.not_lt.mpr laterRound]
    simp
    exact List.sublist_append_of_sublist_right
      (List.sublist_append_of_sublist_right (List.sublist_append_right _ _))

/-- Stage `s` sends activations at step `t` exactly when stage `s + 1` receives them. -/
theorem generateSteps_sendActivation_iff_recvActivation
    (nextInPipeline : stageId + 1 < stages)
    (t : Nat) :
    (∃ bufferId stepMicroBatchId, (t, stepMicroBatchId, .sendActivation bufferId) ∈
        events (generateSteps microBatches stages stageId maxNewTokens)) ↔
      ∃ bufferId stepMicroBatchId, (t, stepMicroBatchId, .recvActivation bufferId) ∈
        events (generateSteps microBatches stages (stageId + 1) maxNewTokens) := by
  simp only [mem_events_generateSteps, mem_generateCmdsAt_sendActivation, mem_generateCmdsAt_recvActivation,
    exists_eq_right, exists_and_left, exists_eq_left]
  cases t with
  | zero =>
      simp [generateForwards_of_lt]
  | succ t =>
      simp only [generateForwards_succ, Nat.add_sub_cancel]
      constructor
      · rintro ⟨inRange, -, forwarded, -⟩
        exact ⟨inRange, forwarded, by omega⟩
      · rintro ⟨inRange, forwarded, -⟩
        exact ⟨inRange, by omega, forwarded, by omega⟩

/--
What stage `s` sends at step `t` is what it forwarded at step `t - 1`, from the same
buffer, and stage `s + 1` receives it and forwards the same micro-batch and token at `t`.
-/
theorem generateSteps_sendActivation_forwarded
    {t bufferId : Nat}
    {stepMicroBatchId : Int}
    (sends : (t, stepMicroBatchId, .sendActivation bufferId) ∈
      events (generateSteps microBatches stages stageId maxNewTokens)) :
    1 ≤ t ∧ ∃ microBatchId : Int,
      (t - 1, microBatchId, .forwardPass bufferId microBatchId) ∈
          events (generateSteps microBatches stages stageId maxNewTokens) ∧
        (t, microBatchId, .recvActivation (alternatingBuffers (stageId + 1) t).1) ∈
          events (generateSteps microBatches stages (stageId + 1) maxNewTokens) ∧
        (t, microBatchId, .forwardPass (alternatingBuffers (stageId + 1) t).1 microBatchId) ∈
          events (generateSteps microBatches stages (stageId + 1) maxNewTokens) ∧
        generateTokenId microBatches stages stageId (t - 1) = generateTokenId microBatches stages (stageId + 1) t := by
  simp only [mem_events_generateSteps, mem_generateCmdsAt_sendActivation] at sends
  obtain ⟨inRange, -, later, forwarded, -, rfl⟩ := sends
  obtain ⟨t, rfl⟩ : ∃ previous, t = previous + 1 := ⟨t - 1, by omega⟩
  simp only [Nat.add_sub_cancel] at forwarded ⊢
  refine ⟨later, generateMicroBatchId microBatches stages stageId t, ?_, ?_, ?_, generateTokenId_succ.symm⟩ <;>
    simp only [mem_events_generateSteps, mem_generateCmdsAt_forwardPass, mem_generateCmdsAt_recvActivation,
      generateMicroBatchId_succ, generateForwards_succ, forwarded, alternatingBuffers_send_eq_previous_recv later,
      Nat.add_sub_cancel, true_and, and_true] <;>
    omega

end Forwards

/-- What `GenerateSchedule` guarantees for its forward passes, loads and activation exchange. -/
structure GenerateScheduleSound (microBatches stages maxNewTokens : Nat) : Prop where
  /-- Stage `s` forwards token `τ` of micro-batch `m` once, at step `s + τ * max(M, S) + m`. -/
  forwardOnce : ∀ stageId < stages, ∀ microBatchId < microBatches, ∀ tokenId < maxNewTokens,
    (events (generateSteps microBatches stages stageId maxNewTokens)).filter (fun event =>
        event.2.2.isForwardPassOf microBatchId && generateTokenId microBatches stages stageId event.1 == tokenId) =
      [(stageId + tokenId * generatePeriod microBatches stages + microBatchId, (microBatchId : Int),
        .forwardPass (alternatingBuffers stageId (stageId + tokenId * generatePeriod microBatches stages + microBatchId)).1
          microBatchId)]
  /-- No forward pass of any other micro-batch or token. -/
  forwardValid : ∀ stageId, ∀ event ∈ events (generateSteps microBatches stages stageId maxNewTokens),
    ∀ (bufferId : Nat) (microBatchId : Int), event.2.2 = .forwardPass bufferId microBatchId →
      event.2.1 = microBatchId ∧ 0 ≤ microBatchId ∧ microBatchId < microBatches ∧
        0 ≤ generateTokenId microBatches stages stageId event.1 ∧
        generateTokenId microBatches stages stageId event.1 < maxNewTokens
  /-- Stage `s + 1` forwards the same micro-batch and token one step after stage `s`. -/
  forwardNextStage : ∀ stageId, stageId + 1 < stages → ∀ (t bufferId : Nat) (stepMicroBatchId microBatchId : Int),
    (t, stepMicroBatchId, .forwardPass bufferId microBatchId) ∈
        events (generateSteps microBatches stages stageId maxNewTokens) →
      (t + 1, microBatchId, .forwardPass (alternatingBuffers (stageId + 1) (t + 1)).1 microBatchId) ∈
          events (generateSteps microBatches stages (stageId + 1) maxNewTokens) ∧
        generateTokenId microBatches stages (stageId + 1) (t + 1) = generateTokenId microBatches stages stageId t
  /-- The first stage loads each micro-batch once, for token 0. -/
  loadOnce : ∀ microBatchId < microBatches,
    (events (generateSteps microBatches stages 0 maxNewTokens)).filter
        (fun event => event.2.2.isLoadMicroBatchOf microBatchId) =
      [(microBatchId, (microBatchId : Int), .loadMicroBatch (alternatingBuffers 0 microBatchId).1 microBatchId)]
  /-- Later tokens are loaded with `LoadNextTokens` right before their forward pass. -/
  loadNextTokensBeforeForward : ∀ microBatchId < microBatches, ∀ tokenId, 1 ≤ tokenId → tokenId < maxNewTokens →
    ∃ step ∈ generateSteps microBatches stages 0 maxNewTokens,
      step.stepId = tokenId * generatePeriod microBatches stages + microBatchId ∧
      step.microBatchId = microBatchId ∧
      [.loadNextTokens (alternatingBuffers 0 step.stepId).1 microBatchId,
          .forwardPass (alternatingBuffers 0 step.stepId).1 microBatchId].Sublist step.cmds
  /-- Stage `s` sends activations exactly when stage `s + 1` receives them. -/
  sendIffReceive : ∀ stageId, stageId + 1 < stages → ∀ t,
    (∃ bufferId stepMicroBatchId, (t, stepMicroBatchId, .sendActivation bufferId) ∈
        events (generateSteps microBatches stages stageId maxNewTokens)) ↔
      ∃ bufferId stepMicroBatchId, (t, stepMicroBatchId, .recvActivation bufferId) ∈
        events (generateSteps microBatches stages (stageId + 1) maxNewTokens)
  /-- A send carries what the sender forwarded from that buffer, which the receiver then forwards. -/
  sendForwarded : ∀ stageId (t bufferId : Nat) (stepMicroBatchId : Int),
    (t, stepMicroBatchId, .sendActivation bufferId) ∈ events (generateSteps microBatches stages stageId maxNewTokens) →
    1 ≤ t ∧ ∃ microBatchId : Int,
      (t - 1, microBatchId, .forwardPass bufferId microBatchId) ∈
          events (generateSteps microBatches stages stageId maxNewTokens) ∧
        (t, microBatchId, .recvActivation (alternatingBuffers (stageId + 1) t).1) ∈
          events (generateSteps microBatches stages (stageId + 1) maxNewTokens) ∧
        (t, microBatchId, .forwardPass (alternatingBuffers (stageId + 1) t).1 microBatchId) ∈
          events (generateSteps microBatches stages (stageId + 1) maxNewTokens) ∧
        generateTokenId microBatches stages stageId (t - 1) = generateTokenId microBatches stages (stageId + 1) t

/-- `GenerateSchedule` is sound on every pipeline with a stage and a token to generate. -/
theorem generateSchedule_sound
    (microBatches stages maxNewTokens : Nat)
    (hasStage : 0 < stages)
    (hasToken : 0 < maxNewTokens) :
    GenerateScheduleSound microBatches stages maxNewTokens where
  forwardOnce _ inPipeline _ valid _ token := generateSteps_forwardPass_once inPipeline valid token
  forwardValid _ _ member _ _ forward := generateSteps_forwardPass_valid member forward
  forwardNextStage _ nextInPipeline _ _ _ _ member := generateSteps_forwardPass_next_stage nextInPipeline member
  loadOnce _ valid := generateSteps_loadMicroBatch_once hasToken valid
  loadNextTokensBeforeForward _ valid _ later token :=
    generateSteps_loadNextTokens_before_forward hasStage valid later token
  sendIffReceive _ nextInPipeline t := generateSteps_sendActivation_iff_recvActivation nextInPipeline t
  sendForwarded _ _ _ _ sends := generateSteps_sendActivation_forwarded sends

/-- Two micro-batches on two stages, one token: the hypotheses hold and the schedule is sound. -/
theorem generateSchedule_sound_two_stages :
    0 < 2 ∧ 0 < 1 ∧ GenerateScheduleSound 2 2 1 :=
  ⟨by decide, by decide, generateSchedule_sound 2 2 1 (by decide) (by decide)⟩

section NextTokens

variable {microBatches stages maxNewTokens : Nat}

/--
With more micro-batches than stages, the last stage sends micro-batch 0's next tokens at
step `stages`, inside the first stage's first round, where the first stage receives none.
-/
theorem generateSchedule_sendNextTokens_unmatched
    (moreBatches : stages < microBatches)
    (hasStage : 0 < stages)
    (hasToken : 0 < maxNewTokens) :
    (stages, generateMicroBatchId microBatches stages (stages - 1) stages, .sendNextTokens 0) ∈
        events (generateSteps microBatches stages (stages - 1) maxNewTokens) ∧
      ∀ stepMicroBatchId microBatchId, (stages, stepMicroBatchId, .recvNextTokens microBatchId) ∉
        events (generateSteps microBatches stages 0 maxNewTokens) := by
  have ids : generateMicroBatchId microBatches stages (stages - 1) (stages - 1) = (0 : Nat) ∧
      generateTokenId microBatches stages (stages - 1) (stages - 1) = (0 : Nat) :=
    (generateIds_eq_iff (by omega)).mpr (by omega)
  have forwards : generateForwards microBatches stages (stages - 1) maxNewTokens (stages - 1) = true :=
    generateForwards_eq_true_iff.mpr ⟨0, 0, by omega, hasToken, ids⟩
  have inRange := forwardStep_lt_generateMaxSteps (show stages - 1 < stages by omega)
    (show 1 < microBatches by omega) hasToken
  constructor
  · simp only [Nat.zero_mul, Nat.add_zero] at inRange
    simp [mem_events_generateSteps, generateLastIds, forwards, ids.1, show stages ≠ 0 by omega]
    omega
  · intro stepMicroBatchId microBatchId
    simp only [mem_events_generateSteps, mem_generateCmdsAt_recvNextTokens]
    omega

/-- Three micro-batches on two stages: step 2 sends next tokens that the first stage never receives. -/
theorem generateSchedule_sendNextTokens_unmatched_three_on_two :
    2 < 3 ∧ 0 < 2 ∧ 0 < 2 ∧
      ((2, generateMicroBatchId 3 2 (2 - 1) 2, .sendNextTokens 0) ∈ events (generateSteps 3 2 (2 - 1) 2) ∧
        ∀ stepMicroBatchId microBatchId, (2, stepMicroBatchId, .recvNextTokens microBatchId) ∉
          events (generateSteps 3 2 0 2)) :=
  ⟨by decide, by decide, by decide, generateSchedule_sendNextTokens_unmatched (by decide) (by decide) (by decide)⟩

end NextTokens

/-! ## The blocking activation exchange -/

/-- The activation sends and receives of step `stepId` on each stage, in order; none outside the pipeline. -/
def generateExchange (microBatches stages maxNewTokens stepId : Nat) (stageId : Nat) : List PipeInstruction :=
  if stageId < stages then
    (generateCmdsAt microBatches stages stageId maxNewTokens stepId).filter PipeInstruction.isActivationExchange
  else
    []

section Exchange

variable {microBatches stages maxNewTokens stepId stageId : Nat}

/-- A stage sends activations once, when it forwarded in the previous step and is not the last. -/
theorem generateCmdsAt_countP_isSendActivation :
    (generateCmdsAt microBatches stages stageId maxNewTokens stepId).countP PipeInstruction.isSendActivation =
      if 1 ≤ stepId ∧ generateForwards microBatches stages stageId maxNewTokens (stepId - 1) = true ∧
          stageId + 1 ≠ stages then 1 else 0 := by
  unfold generateCmdsAt generateCmds
  rw [generateForwardedLast_eq]
  -- both parities emit the one send under the same condition, before or after the receive
  simp only [List.countP_append, countP_emitIf, apply_ite (List.countP PipeInstruction.isSendActivation),
    PipeInstruction.isSendActivation, Bool.and_false, Bool.and_true, Bool.false_eq_true, if_false, Nat.add_zero,
    Nat.zero_add, ite_self]
  have lastStage : (stageId : Int) = stages - 1 ↔ stageId + 1 = stages := by omega
  refine if_congr ?_ rfl rfl
  simp only [Bool.and_eq_true, decide_eq_true_eq, Bool.not_eq_true', beq_eq_false_iff_ne, ne_eq, lastStage, and_assoc]

/-- A stage receives activations once, when it forwards in this step and is not the first. -/
theorem generateCmdsAt_countP_isRecvActivation :
    (generateCmdsAt microBatches stages stageId maxNewTokens stepId).countP PipeInstruction.isRecvActivation =
      if generateForwards microBatches stages stageId maxNewTokens stepId = true ∧ stageId ≠ 0 then 1 else 0 := by
  unfold generateCmdsAt generateCmds
  simp only [List.countP_append, countP_emitIf, apply_ite (List.countP PipeInstruction.isRecvActivation),
    PipeInstruction.isRecvActivation, Bool.and_false, Bool.and_true, Bool.false_eq_true, if_false, Nat.add_zero,
    Nat.zero_add, ite_self]
  by_cases even : isEven stageId = true
  · -- an even stage receives unless it is the first
    refine (if_pos even).trans (if_congr ?_ rfl rfl)
    simp only [Bool.and_eq_true, Bool.not_eq_true', beq_eq_false_iff_ne, ne_eq, Int.ofNat_eq_zero]
  · -- an odd stage is never the first, and receives whenever it forwards
    have notFirst : stageId ≠ 0 := by
      rintro rfl
      exact even rfl
    refine (if_neg even).trans ?_
    simp only [notFirst, ne_eq, not_false_eq_true, and_true]

/-- A stage forwarded in the previous step exactly when the next stage forwards in this one. -/
theorem generateForwards_previous_iff :
    (1 ≤ stepId ∧ generateForwards microBatches stages stageId maxNewTokens (stepId - 1) = true) ↔
      generateForwards microBatches stages (stageId + 1) maxNewTokens stepId = true := by
  cases stepId with
  | zero => simp [generateForwards_of_lt]
  | succ stepId => simp [generateForwards_succ]

/-- Every step's activation exchange pairs each send with one receive on the next stage. -/
theorem generateExchange_paired :
    PairedExchange stages (generateExchange microBatches stages maxNewTokens stepId) where
  onlyExchange a instruction member := by
    unfold generateExchange at member
    split at member
    · exact (List.mem_filter.mp member).2
    · simp at member
  atMostOneSend a := by
    unfold generateExchange
    split
    · rw [countP_isSendActivation_filter, generateCmdsAt_countP_isSendActivation]
      split <;> omega
    · simp
  atMostOneReceive a := by
    unfold generateExchange
    split
    · rw [countP_isRecvActivation_filter, generateCmdsAt_countP_isRecvActivation]
      split <;> omega
    · simp
  outside a beyond := by
    simp [generateExchange, show ¬ a < stages by omega]
  firstReceivesNothing := by
    unfold generateExchange
    split
    · rw [countP_isRecvActivation_filter, generateCmdsAt_countP_isRecvActivation]
      simp
    · simp
  sendsMatchReceives a := by
    have matched := @generateForwards_previous_iff microBatches stages maxNewTokens stepId a
    unfold generateExchange
    split <;> split <;>
      simp only [countP_isSendActivation_filter, countP_isRecvActivation_filter,
        generateCmdsAt_countP_isSendActivation, generateCmdsAt_countP_isRecvActivation, List.countP_nil] <;>
      split_ifs <;> simp_all <;> omega

end Exchange

/--
No step of the generate schedule stalls on its activation sends and receives: run on all stages
at once, progress reachable by rendezvous is finished on every stage or enables another rendezvous.
-/
theorem generateExchange_finished_or_rendezvous
    {microBatches stages maxNewTokens stepId : Nat}
    {done : Nat → Nat}
    (reachable : ExchangeReachable (generateExchange microBatches stages maxNewTokens stepId) done) :
    ExchangeFinished stages (generateExchange microBatches stages maxNewTokens stepId) done ∨
      ∃ done', Rendezvous (generateExchange microBatches stages maxNewTokens stepId) done done' :=
  reachable.finished_or_rendezvous generateExchange_paired

/-- The start of step `2` with two micro-batches on three stages and two tokens. -/
theorem generateExchange_finished_or_rendezvous_start :
    ExchangeReachable (generateExchange 2 3 2 2) (fun _ => 0) ∧
      (ExchangeFinished 3 (generateExchange 2 3 2 2) (fun _ => 0) ∨
        ∃ done', Rendezvous (generateExchange 2 3 2 2) (fun _ => 0) done') :=
  ⟨.start, generateExchange_finished_or_rendezvous .start⟩

end RealRlhf.Pipeline
