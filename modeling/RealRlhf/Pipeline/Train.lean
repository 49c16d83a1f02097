import RealRlhf.Pipeline.Schedule

namespace RealRlhf.Pipeline

/-!
# The training schedule

`TrainSchedule` is synchronous 1F1B over `2 * (micro_batches + stages - 1)` steps. A
stage alternates forward and backward steps with the parity of `step + stage`; its
micro-batch id comes from four parity cases (`_even_step_forward_id` and its three
siblings). Forward steps send the previous backward's gradient down and receive
activations from below; backward steps receive the gradient from above and send the
previous forward's activations up. The micro-batch of the previous step is the generator's
only state. Activations live in `num_pipe_buffers() = max(2, min(stages - stage, micro_batches))`
buffers, assigned cyclically.
-/

/-- `TrainSchedule.num_pipe_buffers`: the forward passes a stage keeps in flight, at least two. -/
def trainNumPipeBuffers (microBatches stages stageId : Nat) : Nat :=
  max 2 (min (stages - stageId) microBatches)

/-- `PipeSchedule._buffer_idx`: micro-batches take the buffers cyclically. -/
def bufferIdx (numPipeBuffers : Nat) (microBatchId : Int) : Nat :=
  microBatchId.toNat % numPipeBuffers

/-- `_even_step_forward_id`. -/
def evenStepForwardId (stageId stepId : Nat) : Int :=
  (stepId : Int) / 2 - (stageId : Int) / 2

/-- `_odd_step_forward_id`. -/
def oddStepForwardId (stageId stepId : Nat) : Int :=
  ((stepId : Int) - 1) / 2 - (stageId : Int) / 2

/-- `_even_step_backward_id`. -/
def evenStepBackwardId (stages stageId stepId : Nat) : Int :=
  (stepId : Int) / 2 - stages + ((stageId : Int) + 1) / 2

/-- `_odd_step_backward_id`. -/
def oddStepBackwardId (stages stageId stepId : Nat) : Int :=
  ((stepId : Int) - 1) / 2 - stages + 1 + (stageId : Int) / 2

/-- `_step_to_micro_batch`: the step's micro-batch id and whether it is a forward step. -/
def trainStepToMicroBatch (stages stageId stepId : Nat) : Int × Bool :=
  if isEven stepId && isEven stageId then
    (evenStepForwardId stageId stepId, true)
  else if !isEven stepId && !isEven stageId then
    (oddStepForwardId stageId stepId, true)
  else if isEven stepId && !isEven stageId then
    (evenStepBackwardId stages stageId stepId, false)
  else
    (oddStepBackwardId stages stageId stepId, false)

/-- `ReduceTiedGrads`, `ReduceGrads` and `OptimizerStep`, issued in the last step only. -/
def trainModelStepCmds (microBatches stages stepId : Nat) : List PipeInstruction :=
  if stepId == 2 * (microBatches + stages - 1) - 1 then
    [.reduceTiedGrads, .reduceGrads, .optimizerStep]
  else
    []

/-- The commands `TrainSchedule.steps` yields at step `stepId`, after a step with `prevMicroBatchId`. -/
def trainCmds (microBatches stages stageId stepId : Nat) (prevMicroBatchId : Int) : List PipeInstruction :=
  let microBatchId := (trainStepToMicroBatch stages stageId stepId).1
  let isForward := (trainStepToMicroBatch stages stageId stepId).2
  let numBuffers := trainNumPipeBuffers microBatches stages stageId
  let prevBuffer := bufferIdx numBuffers prevMicroBatchId
  let currBuffer := bufferIdx numBuffers microBatchId
  let valid := validMicroBatch microBatches microBatchId
  let prevValid := validMicroBatch microBatches prevMicroBatchId
  emitIf (((stageId : Int) == 0 || (stageId : Int) == (stages : Int) - 1) && isForward && valid)
      (.loadMicroBatch currBuffer microBatchId) ++
    (if isForward then
      emitIf (prevValid && validStage stages ((stageId : Int) - 1)) (.sendGrad prevBuffer) ++
        emitIf (valid && validStage stages ((stageId : Int) - 1)) (.recvActivation currBuffer)
    else
      emitIf (valid && validStage stages ((stageId : Int) + 1)) (.recvGrad currBuffer) ++
        emitIf (prevValid && validStage stages ((stageId : Int) + 1)) (.sendActivation prevBuffer)) ++
    (if isForward then
      emitIf valid (.forwardPass currBuffer microBatchId)
    else
      emitIf valid (.backwardPass currBuffer)) ++
    trainModelStepCmds microBatches stages stepId

/-- The generator loop of `TrainSchedule.steps` from `stepId` on, carrying `prev_micro_batch_id`. -/
def trainLoop (microBatches stages stageId : Nat) : Nat → Nat → Int → List ScheduleStep
  | 0, _, _ => []
  | remaining + 1, stepId, prevMicroBatchId =>
      ⟨stepId, (trainStepToMicroBatch stages stageId stepId).1,
          trainCmds microBatches stages stageId stepId prevMicroBatchId⟩ ::
        trainLoop microBatches stages stageId remaining (stepId + 1)
          (trainStepToMicroBatch stages stageId stepId).1

/-- `TrainSchedule.steps`: `2 * (micro_batches + stages - 1)` steps from `prev_micro_batch_id = -1`. -/
def trainSteps (microBatches stages stageId : Nat) : List ScheduleStep :=
  trainLoop microBatches stages stageId (2 * (microBatches + stages - 1)) 0 (-1)

/-- The generator's `prev_micro_batch_id` when it reaches step `stepId`. -/
def trainPrevMicroBatchId (stages stageId stepId : Nat) : Int :=
  if stepId = 0 then -1 else (trainStepToMicroBatch stages stageId (stepId - 1)).1

/-- The commands of step `stepId` of the run. -/
def trainCmdsAt (microBatches stages stageId stepId : Nat) : List PipeInstruction :=
  trainCmds microBatches stages stageId stepId (trainPrevMicroBatchId stages stageId stepId)

section Lemmas

variable {microBatches stages stageId stepId : Nat}

/-- The four parity cases amount to: forward steps are those with `step + stage` even. -/
theorem trainStepToMicroBatch_eq :
    trainStepToMicroBatch stages stageId stepId =
      if (stepId + stageId) % 2 = 0 then
        (((stepId : Int) - stageId) / 2, true)
      else
        (((stepId : Int) + stageId + 1 - 2 * stages) / 2, false) := by
  unfold trainStepToMicroBatch evenStepForwardId oddStepForwardId evenStepBackwardId oddStepBackwardId
  simp only [isEven_eq_true, isEven_eq_false, Bool.and_eq_true, Bool.not_eq_true']
  split_ifs <;>
    simp only [Prod.mk.injEq, and_true, Bool.true_eq_false, Bool.false_eq_true, and_false] <;>
    omega

/-- The loop from any step yields the closed-form steps from there on. -/
theorem trainLoop_eq
    (remaining start : Nat) :
    trainLoop microBatches stages stageId remaining start (trainPrevMicroBatchId stages stageId start) =
      (List.range' start remaining).map fun stepId =>
        ⟨stepId, (trainStepToMicroBatch stages stageId stepId).1,
          trainCmdsAt microBatches stages stageId stepId⟩ := by
  induction remaining generalizing start with
  | zero =>
      rfl
  | succ remaining inductionHypothesis =>
      have next : trainPrevMicroBatchId stages stageId (start + 1) =
          (trainStepToMicroBatch stages stageId start).1 := by
        simp [trainPrevMicroBatchId]
      rw [trainLoop, ← next, inductionHypothesis, next, List.range'_succ, List.map_cons, trainCmdsAt]

/-- `TrainSchedule.steps` step by step. -/
theorem trainSteps_eq :
    trainSteps microBatches stages stageId =
      (List.range (2 * (microBatches + stages - 1))).map fun stepId =>
        ⟨stepId, (trainStepToMicroBatch stages stageId stepId).1,
          trainCmdsAt microBatches stages stageId stepId⟩ := by
  have start : trainPrevMicroBatchId stages stageId 0 = -1 := rfl
  rw [trainSteps, ← start, trainLoop_eq, List.range_eq_range']

/-- Events of the run: the instructions of each step below `2 * (micro_batches + stages - 1)`. -/
theorem mem_events_trainSteps
    {event : Nat × Int × PipeInstruction} :
    event ∈ events (trainSteps microBatches stages stageId) ↔
      event.1 < 2 * (microBatches + stages - 1) ∧
        event.2.1 = (trainStepToMicroBatch stages stageId event.1).1 ∧
        event.2.2 ∈ trainCmdsAt microBatches stages stageId event.1 := by
  obtain ⟨t, microBatchId, instruction⟩ := event
  simp only [events, trainSteps_eq, List.flatMap_map, List.mem_flatMap, List.mem_range, List.mem_map,
    Prod.mk.injEq]
  constructor
  · rintro ⟨t, inRange, instruction, member, rfl, rfl, rfl⟩
    exact ⟨inRange, rfl, member⟩
  · rintro ⟨inRange, rfl, member⟩
    exact ⟨t, inRange, instruction, member, rfl, rfl, rfl⟩

section Commands

variable {bufferId : Nat} {microBatchId : Int}

/-- The previous step is a forward step exactly when this one is a backward step. -/
theorem trainPrevMicroBatchId_eq :
    trainPrevMicroBatchId stages stageId stepId =
      if stepId = 0 then -1
      else if (stepId + stageId) % 2 = 1 then ((stepId : Int) - 1 - stageId) / 2
      else ((stepId : Int) + stageId - 2 * stages) / 2 := by
  unfold trainPrevMicroBatchId
  split_ifs with first backward
  · rfl
  · rw [trainStepToMicroBatch_eq, if_pos (by omega)]
    omega
  · rw [trainStepToMicroBatch_eq, if_neg (by omega)]
    omega

/-- A forward step: load on the first and last stages, send a gradient down, receive activations, forward. -/
theorem trainCmdsAt_of_forward
    (forward : (stepId + stageId) % 2 = 0) :
    trainCmdsAt microBatches stages stageId stepId =
      let microBatchId := ((stepId : Int) - stageId) / 2
      let numBuffers := trainNumPipeBuffers microBatches stages stageId
      let prevMicroBatchId := trainPrevMicroBatchId stages stageId stepId
      let valid := validMicroBatch microBatches microBatchId
      emitIf (((stageId : Int) == 0 || (stageId : Int) == (stages : Int) - 1) && valid)
          (.loadMicroBatch (bufferIdx numBuffers microBatchId) microBatchId) ++
        (emitIf (validMicroBatch microBatches prevMicroBatchId && validStage stages ((stageId : Int) - 1))
            (.sendGrad (bufferIdx numBuffers prevMicroBatchId)) ++
          emitIf (valid && validStage stages ((stageId : Int) - 1))
            (.recvActivation (bufferIdx numBuffers microBatchId))) ++
        emitIf valid (.forwardPass (bufferIdx numBuffers microBatchId) microBatchId) ++
        trainModelStepCmds microBatches stages stepId := by
  simp only [trainCmdsAt, trainCmds, trainStepToMicroBatch_eq, forward, ↓reduceIte, Bool.and_true]

/-- A backward step: receive the gradient from above, send activations up, backward. -/
theorem trainCmdsAt_of_backward
    (backward : (stepId + stageId) % 2 = 1) :
    trainCmdsAt microBatches stages stageId stepId =
      let microBatchId := ((stepId : Int) + stageId + 1 - 2 * stages) / 2
      let numBuffers := trainNumPipeBuffers microBatches stages stageId
      let prevMicroBatchId := trainPrevMicroBatchId stages stageId stepId
      let valid := validMicroBatch microBatches microBatchId
      (emitIf (valid && validStage stages ((stageId : Int) + 1))
          (.recvGrad (bufferIdx numBuffers microBatchId)) ++
        emitIf (validMicroBatch microBatches prevMicroBatchId && validStage stages ((stageId : Int) + 1))
          (.sendActivation (bufferIdx numBuffers prevMicroBatchId))) ++
        emitIf valid (.backwardPass (bufferIdx numBuffers microBatchId)) ++
        trainModelStepCmds microBatches stages stepId := by
  simp only [trainCmdsAt, trainCmds, trainStepToMicroBatch_eq, backward, Nat.one_ne_zero,
    ↓reduceIte, Bool.and_false, Bool.false_and, emitIf_false, List.nil_append, Bool.false_eq_true]

/-- Only the three model-step instructions come from the last step's tail. -/
@[simp] theorem mem_trainModelStepCmds
    {instruction : PipeInstruction} :
    instruction ∈ trainModelStepCmds microBatches stages stepId ↔
      stepId = 2 * (microBatches + stages - 1) - 1 ∧
        (instruction = .reduceTiedGrads ∨ instruction = .reduceGrads ∨ instruction = .optimizerStep) := by
  unfold trainModelStepCmds
  split <;> simp_all

@[simp] theorem mem_trainCmdsAt_forwardPass :
    .forwardPass bufferId microBatchId ∈ trainCmdsAt microBatches stages stageId stepId ↔
      (stepId + stageId) % 2 = 0 ∧ microBatchId = ((stepId : Int) - stageId) / 2 ∧
        0 ≤ ((stepId : Int) - stageId) / 2 ∧ ((stepId : Int) - stageId) / 2 < microBatches ∧
        bufferId = bufferIdx (trainNumPipeBuffers microBatches stages stageId)
          (((stepId : Int) - stageId) / 2) := by
  by_cases forward : (stepId + stageId) % 2 = 0
  · rw [trainCmdsAt_of_forward forward]
    simp [forward]
    tauto
  · rw [trainCmdsAt_of_backward (by omega)]
    simp [forward]

@[simp] theorem mem_trainCmdsAt_backwardPass :
    .backwardPass bufferId ∈ trainCmdsAt microBatches stages stageId stepId ↔
      (stepId + stageId) % 2 = 1 ∧
        0 ≤ ((stepId : Int) + stageId + 1 - 2 * stages) / 2 ∧
        ((stepId : Int) + stageId + 1 - 2 * stages) / 2 < microBatches ∧
        bufferId = bufferIdx (trainNumPipeBuffers microBatches stages stageId)
          (((stepId : Int) + stageId + 1 - 2 * stages) / 2) := by
  by_cases forward : (stepId + stageId) % 2 = 0
  · rw [trainCmdsAt_of_forward forward]
    simp [forward]
  · rw [trainCmdsAt_of_backward (by omega)]
    simp [show (stepId + stageId) % 2 = 1 by omega]
    tauto

@[simp] theorem mem_trainCmdsAt_sendActivation :
    .sendActivation bufferId ∈ trainCmdsAt microBatches stages stageId stepId ↔
      (stepId + stageId) % 2 = 1 ∧ 1 ≤ stepId ∧ stageId + 1 < stages ∧
        0 ≤ ((stepId : Int) - 1 - stageId) / 2 ∧ ((stepId : Int) - 1 - stageId) / 2 < microBatches ∧
        bufferId = bufferIdx (trainNumPipeBuffers microBatches stages stageId)
          (((stepId : Int) - 1 - stageId) / 2) := by
  by_cases forward : (stepId + stageId) % 2 = 0
  · rw [trainCmdsAt_of_forward forward]
    simp [forward]
  · rw [trainCmdsAt_of_backward (by omega), trainPrevMicroBatchId_eq]
    by_cases first : stepId = 0
    · simp [first]
    · simp [first, show (stepId + stageId) % 2 = 1 by omega]
      omega

@[simp] theorem mem_trainCmdsAt_recvActivation :
    .recvActivation bufferId ∈ trainCmdsAt microBatches stages stageId stepId ↔
      (stepId + stageId) % 2 = 0 ∧ 1 ≤ stageId ∧ stageId ≤ stages ∧
        0 ≤ ((stepId : Int) - stageId) / 2 ∧ ((stepId : Int) - stageId) / 2 < microBatches ∧
        bufferId = bufferIdx (trainNumPipeBuffers microBatches stages stageId)
          (((stepId : Int) - stageId) / 2) := by
  by_cases forward : (stepId + stageId) % 2 = 0
  · rw [trainCmdsAt_of_forward forward]
    simp [forward]
    omega
  · rw [trainCmdsAt_of_backward (by omega)]
    simp [forward]

@[simp] theorem mem_trainCmdsAt_sendGrad :
    .sendGrad bufferId ∈ trainCmdsAt microBatches stages stageId stepId ↔
      (stepId + stageId) % 2 = 0 ∧ 1 ≤ stepId ∧ 1 ≤ stageId ∧ stageId ≤ stages ∧
        0 ≤ ((stepId : Int) + stageId - 2 * stages) / 2 ∧
        ((stepId : Int) + stageId - 2 * stages) / 2 < microBatches ∧
        bufferId = bufferIdx (trainNumPipeBuffers microBatches stages stageId)
          (((stepId : Int) + stageId - 2 * stages) / 2) := by
  by_cases forward : (stepId + stageId) % 2 = 0
  · rw [trainCmdsAt_of_forward forward, trainPrevMicroBatchId_eq]
    by_cases first : stepId = 0
    · simp [first]
    · simp [first, forward]
      omega
  · rw [trainCmdsAt_of_backward (by omega)]
    simp [forward]

@[simp] theorem mem_trainCmdsAt_recvGrad :
    .recvGrad bufferId ∈ trainCmdsAt microBatches stages stageId stepId ↔
      (stepId + stageId) % 2 = 1 ∧ stageId + 1 < stages ∧
        0 ≤ ((stepId : Int) + stageId + 1 - 2 * stages) / 2 ∧
        ((stepId : Int) + stageId + 1 - 2 * stages) / 2 < microBatches ∧
        bufferId = bufferIdx (trainNumPipeBuffers microBatches stages stageId)
          (((stepId : Int) + stageId + 1 - 2 * stages) / 2) := by
  by_cases forward : (stepId + stageId) % 2 = 0
  · rw [trainCmdsAt_of_forward forward]
    simp [forward]
  · rw [trainCmdsAt_of_backward (by omega)]
    simp [show (stepId + stageId) % 2 = 1 by omega]
    omega

@[simp] theorem mem_trainCmdsAt_loadMicroBatch :
    .loadMicroBatch bufferId microBatchId ∈ trainCmdsAt microBatches stages stageId stepId ↔
      ((stageId : Int) = 0 ∨ (stageId : Int) = (stages : Int) - 1) ∧ (stepId + stageId) % 2 = 0 ∧
        microBatchId = ((stepId : Int) - stageId) / 2 ∧
        0 ≤ ((stepId : Int) - stageId) / 2 ∧ ((stepId : Int) - stageId) / 2 < microBatches ∧
        bufferId = bufferIdx (trainNumPipeBuffers microBatches stages stageId)
          (((stepId : Int) - stageId) / 2) := by
  by_cases forward : (stepId + stageId) % 2 = 0
  · rw [trainCmdsAt_of_forward forward]
    simp [forward]
    tauto
  · rw [trainCmdsAt_of_backward (by omega)]
    simp [forward]

end Commands

/-- Buffers of valid micro-batches, which are natural numbers. -/
@[simp] theorem bufferIdx_natCast
    (numPipeBuffers microBatchId : Nat) :
    bufferIdx numPipeBuffers microBatchId = microBatchId % numPipeBuffers := by
  simp [bufferIdx]

/-- The model-step tail holds none of the instructions a filter looks for. -/
theorem trainModelStepCmds_filter_eq_nil
    {p : PipeInstruction → Bool}
    (notModelStep : p .reduceTiedGrads = false ∧ p .reduceGrads = false ∧ p .optimizerStep = false) :
    (trainModelStepCmds microBatches stages stepId).filter p = [] := by
  unfold trainModelStepCmds
  split <;> simp [notModelStep]

/-- The forward passes of one step: the step's own micro-batch, on forward steps, when valid. -/
theorem trainCmdsAt_filter_isForwardPassOf
    (microBatchId : Int) :
    (trainCmdsAt microBatches stages stageId stepId).filter (PipeInstruction.isForwardPassOf microBatchId) =
      emitIf (decide ((stepId + stageId) % 2 = 0) &&
          validMicroBatch microBatches (((stepId : Int) - stageId) / 2) &&
          (((stepId : Int) - stageId) / 2 == microBatchId))
        (.forwardPass (bufferIdx (trainNumPipeBuffers microBatches stages stageId)
          (((stepId : Int) - stageId) / 2)) (((stepId : Int) - stageId) / 2)) := by
  by_cases forward : (stepId + stageId) % 2 = 0
  · rw [trainCmdsAt_of_forward forward]
    simp [List.filter_append, forward, trainModelStepCmds_filter_eq_nil, PipeInstruction.isForwardPassOf]
  · rw [trainCmdsAt_of_backward (by omega)]
    simp [List.filter_append, forward, trainModelStepCmds_filter_eq_nil, PipeInstruction.isForwardPassOf]

/-- Stage `stageId` forwards micro-batch `m` exactly once over the run, at step `2 * m + stageId`. -/
theorem trainSteps_forwardPass_once
    (inPipeline : stageId < stages)
    {microBatchId : Nat}
    (valid : microBatchId < microBatches) :
    (events (trainSteps microBatches stages stageId)).filter
        (fun event => event.2.2.isForwardPassOf microBatchId) =
      [(2 * microBatchId + stageId, (microBatchId : Int),
        .forwardPass (microBatchId % trainNumPipeBuffers microBatches stages stageId) microBatchId)] := by
  have forward : (2 * microBatchId + stageId + stageId) % 2 = 0 := by omega
  have microBatch : (((2 * microBatchId + stageId : Nat) : Int) - stageId) / 2 = microBatchId := by omega
  have atStep :
      (trainCmdsAt microBatches stages stageId (2 * microBatchId + stageId)).filter
          (PipeInstruction.isForwardPassOf microBatchId) =
        [.forwardPass (microBatchId % trainNumPipeBuffers microBatches stages stageId) microBatchId] := by
    rw [trainCmdsAt_filter_isForwardPassOf, microBatch]
    simp [forward, valid]
  rw [trainSteps_eq,
    filter_events_eq_single (show 2 * microBatchId + stageId < 2 * (microBatches + stages - 1) by omega) atStep]
  · simp [trainStepToMicroBatch_eq, forward, microBatch]
  · intro t _ other
    rw [trainCmdsAt_filter_isForwardPassOf, emitIf_eq_nil_iff]
    simp
    omega

/-- The backward passes of one step: on backward steps, when the micro-batch is valid. -/
theorem trainCmdsAt_filter_isBackwardPass :
    (trainCmdsAt microBatches stages stageId stepId).filter PipeInstruction.isBackwardPass =
      emitIf (decide ((stepId + stageId) % 2 = 1) &&
          validMicroBatch microBatches (((stepId : Int) + stageId + 1 - 2 * stages) / 2))
        (.backwardPass (bufferIdx (trainNumPipeBuffers microBatches stages stageId)
          (((stepId : Int) + stageId + 1 - 2 * stages) / 2))) := by
  by_cases forward : (stepId + stageId) % 2 = 0
  · rw [trainCmdsAt_of_forward forward]
    simp [List.filter_append, forward, trainModelStepCmds_filter_eq_nil, PipeInstruction.isBackwardPass]
  · rw [trainCmdsAt_of_backward (by omega)]
    simp [List.filter_append, show (stepId + stageId) % 2 = 1 by omega, trainModelStepCmds_filter_eq_nil,
      PipeInstruction.isBackwardPass]

/-- The loads of one step: the step's own micro-batch, on forward steps of the first and last stages. -/
theorem trainCmdsAt_filter_isLoadMicroBatchOf
    (microBatchId : Int) :
    (trainCmdsAt microBatches stages stageId stepId).filter (PipeInstruction.isLoadMicroBatchOf microBatchId) =
      emitIf (((stageId : Int) == 0 || (stageId : Int) == (stages : Int) - 1) &&
          decide ((stepId + stageId) % 2 = 0) &&
          validMicroBatch microBatches (((stepId : Int) - stageId) / 2) &&
          (((stepId : Int) - stageId) / 2 == microBatchId))
        (.loadMicroBatch (bufferIdx (trainNumPipeBuffers microBatches stages stageId)
          (((stepId : Int) - stageId) / 2)) (((stepId : Int) - stageId) / 2)) := by
  by_cases forward : (stepId + stageId) % 2 = 0
  · rw [trainCmdsAt_of_forward forward]
    simp [List.filter_append, forward, trainModelStepCmds_filter_eq_nil, PipeInstruction.isLoadMicroBatchOf]
  · rw [trainCmdsAt_of_backward (by omega)]
    simp [List.filter_append, forward, trainModelStepCmds_filter_eq_nil, PipeInstruction.isLoadMicroBatchOf]

/-- Stage `stageId` runs the backward pass of micro-batch `m` exactly once, at step `2 * m + 2 * stages - stageId - 1`. -/
theorem trainSteps_backwardPass_once
    (inPipeline : stageId < stages)
    {microBatchId : Nat}
    (valid : microBatchId < microBatches) :
    (events (trainSteps microBatches stages stageId)).filter
        (fun event => event.2.2.isBackwardPass && event.2.1 == (microBatchId : Int)) =
      [(2 * microBatchId + 2 * stages - stageId - 1, (microBatchId : Int),
        .backwardPass (microBatchId % trainNumPipeBuffers microBatches stages stageId))] := by
  obtain ⟨t₀, step⟩ : ∃ t₀, t₀ = 2 * microBatchId + 2 * stages - stageId - 1 := ⟨_, rfl⟩
  rw [← step]
  have backward : (t₀ + stageId) % 2 = 1 := by omega
  have microBatch : ((t₀ : Int) + stageId + 1 - 2 * stages) / 2 = microBatchId := by omega
  have atStep :
      (trainCmdsAt microBatches stages stageId t₀).filter
          (fun instruction => instruction.isBackwardPass &&
            ((trainStepToMicroBatch stages stageId t₀).1 == (microBatchId : Int))) =
        [.backwardPass (microBatchId % trainNumPipeBuffers microBatches stages stageId)] := by
    simp only [trainStepToMicroBatch_eq, backward, Nat.one_ne_zero, ↓reduceIte, microBatch, beq_self_eq_true,
      Bool.and_true]
    rw [trainCmdsAt_filter_isBackwardPass, microBatch]
    simp [valid, backward]
  rw [trainSteps_eq, filter_events_eq_single (show t₀ < 2 * (microBatches + stages - 1) by omega) atStep]
  · simp [trainStepToMicroBatch_eq, backward, microBatch]
  · intro t _ other
    by_cases same : (trainStepToMicroBatch stages stageId t).1 = microBatchId
    · simp only [same, beq_self_eq_true, Bool.and_true]
      rw [trainCmdsAt_filter_isBackwardPass, emitIf_eq_nil_iff]
      rw [trainStepToMicroBatch_eq] at same
      split at same <;> simp at same ⊢ <;> omega
    · simp [same]

/-- Every forward and backward pass of the run is of a valid micro-batch, the one its step names. -/
theorem trainSteps_pass_valid
    {event : Nat × Int × PipeInstruction}
    (member : event ∈ events (trainSteps microBatches stages stageId)) :
    (∀ bufferId microBatchId, event.2.2 = .forwardPass bufferId microBatchId →
      event.2.1 = microBatchId ∧ 0 ≤ microBatchId ∧ microBatchId < microBatches) ∧
    (∀ bufferId, event.2.2 = .backwardPass bufferId → 0 ≤ event.2.1 ∧ event.2.1 < microBatches) := by
  rw [mem_events_trainSteps] at member
  obtain ⟨-, step, member⟩ := member
  constructor
  · intro bufferId microBatchId pass
    rw [pass, mem_trainCmdsAt_forwardPass] at member
    rw [step, trainStepToMicroBatch_eq, if_pos member.1]
    omega
  · intro bufferId pass
    rw [pass, mem_trainCmdsAt_backwardPass] at member
    rw [step, trainStepToMicroBatch_eq, if_neg (by omega)]
    omega

/--
Between the forward and the backward pass of micro-batch `m`, no forward pass of another
micro-batch writes `m`'s buffer: `num_pipe_buffers()` covers the forwards in flight.
-/
theorem trainSteps_buffer_not_overwritten
    {microBatchId : Nat}
    {otherId : Int}
    {event : Nat × Int × PipeInstruction}
    (member : event ∈ events (trainSteps microBatches stages stageId))
    (overwrites : event.2.2 = .forwardPass (microBatchId % trainNumPipeBuffers microBatches stages stageId) otherId)
    (other : otherId ≠ microBatchId) :
    ¬ (2 * microBatchId + stageId < event.1 ∧ event.1 < 2 * microBatchId + 2 * stages - stageId - 1) := by
  rw [mem_events_trainSteps, overwrites, mem_trainCmdsAt_forwardPass] at member
  obtain ⟨-, -, forward, rfl, nonneg, bound, buffer⟩ := member
  obtain ⟨k, hk⟩ : ∃ k : Nat, ((event.1 : Int) - stageId) / 2 = k := ⟨_, (Int.toNat_of_nonneg nonneg).symm⟩
  rw [hk, bufferIdx_natCast] at buffer
  rintro ⟨after, before⟩
  have later : microBatchId < k := by omega
  have gap : trainNumPipeBuffers microBatches stages stageId ≤ k - microBatchId :=
    Nat.le_of_dvd (by omega) (Nat.dvd_of_mod_eq_zero (Nat.sub_mod_eq_zero_of_mod_eq buffer.symm))
  have enough : min (stages - stageId) microBatches ≤ trainNumPipeBuffers microBatches stages stageId :=
    le_max_right _ _
  omega

/--
A send of activations at backward step `t ≥ 1` of a stage, for micro-batch `m`: step `t - 1`
of the stage and step `t` of the next stage are forward steps of `m`.
-/
theorem sendActivation_steps_agree
    {t m : Nat}
    (backward : (t + stageId) % 2 = 1)
    (later : 1 ≤ t)
    (microBatch : ((t : Int) - 1 - stageId) / 2 = m) :
    (t - 1 + stageId) % 2 = 0 ∧ (t + (stageId + 1)) % 2 = 0 ∧
      (((t - 1 : Nat) : Int) - stageId) / 2 = m ∧ ((t : Int) - ((stageId + 1 : Nat) : Int)) / 2 = m :=
  ⟨by omega, by omega, by omega, by omega⟩

/--
Every activation send is matched: stage `s + 1` receives in the same step, and the
micro-batch that `s` forwarded into the sent buffer one step earlier is the one `s + 1`
forwards from the receiving buffer.
-/
theorem trainSteps_sendActivation_matched
    {t sender : Nat}
    (sends : ∃ microBatchId, (t, microBatchId, .sendActivation sender) ∈ events (trainSteps microBatches stages stageId)) :
    stageId + 1 < stages ∧ ∃ (microBatchId : Nat) (receiver : Nat),
      (t - 1, (microBatchId : Int), .forwardPass sender microBatchId) ∈
          events (trainSteps microBatches stages stageId) ∧
        (∃ stepMicroBatchId, (t, stepMicroBatchId, .recvActivation receiver) ∈
          events (trainSteps microBatches stages (stageId + 1))) ∧
        (t, (microBatchId : Int), .forwardPass receiver microBatchId) ∈
          events (trainSteps microBatches stages (stageId + 1)) := by
  obtain ⟨_, sends⟩ := sends
  simp only [mem_events_trainSteps, mem_trainCmdsAt_sendActivation] at sends
  obtain ⟨inRange, -, backward, later, next, nonneg, bound, rfl⟩ := sends
  obtain ⟨m, hm⟩ : ∃ m : Nat, ((t : Int) - 1 - stageId) / 2 = m := ⟨_, (Int.toNat_of_nonneg nonneg).symm⟩
  rw [hm] at bound ⊢
  obtain ⟨senderForward, receiverForward, senderStep, receiverStep⟩ := sendActivation_steps_agree backward later hm
  clear nonneg hm
  refine ⟨next, m, m % trainNumPipeBuffers microBatches stages (stageId + 1), ?_, ⟨m, ?_⟩, ?_⟩ <;>
    simp only [mem_events_trainSteps, mem_trainCmdsAt_forwardPass, mem_trainCmdsAt_recvActivation,
      trainStepToMicroBatch_eq, senderForward, receiverForward, ↓reduceIte, senderStep, receiverStep,
      bufferIdx_natCast, true_and, and_true] <;>
    clear senderStep receiverStep senderForward receiverForward <;>
    omega

/-- Every activation receive is matched by a send of the previous stage in the same step. -/
theorem trainSteps_recvActivation_matched
    (inPipeline : stageId < stages)
    {t receiver : Nat}
    (receives : ∃ microBatchId, (t, microBatchId, .recvActivation receiver) ∈
      events (trainSteps microBatches stages stageId)) :
    1 ≤ stageId ∧ ∃ sender microBatchId, (t, microBatchId, .sendActivation sender) ∈
      events (trainSteps microBatches stages (stageId - 1)) := by
  obtain ⟨_, receives⟩ := receives
  simp only [mem_events_trainSteps, mem_trainCmdsAt_recvActivation] at receives
  obtain ⟨inRange, -, forward, first, -, nonneg, bound, -⟩ := receives
  refine ⟨first, bufferIdx (trainNumPipeBuffers microBatches stages (stageId - 1))
    (((t : Int) - 1 - ((stageId - 1 : Nat) : Int)) / 2), (trainStepToMicroBatch stages (stageId - 1) t).1, ?_⟩
  simp only [mem_events_trainSteps, mem_trainCmdsAt_sendActivation, true_and, and_true]
  omega

/--
A send of gradients at forward step `t ≥ 1` of a stage `s ≥ 1`, for micro-batch `m`: step
`t - 1` of the stage and step `t` of the previous stage are backward steps of `m`.
-/
theorem sendGrad_steps_agree
    {t m : Nat}
    (forward : (t + stageId) % 2 = 0)
    (later : 1 ≤ t)
    (first : 1 ≤ stageId)
    (microBatch : ((t : Int) + stageId - 2 * stages) / 2 = m) :
    (t - 1 + stageId) % 2 = 1 ∧ (t + (stageId - 1)) % 2 = 1 ∧
      (((t - 1 : Nat) : Int) + stageId + 1 - 2 * stages) / 2 = m ∧
      ((t : Int) + ((stageId - 1 : Nat) : Int) + 1 - 2 * stages) / 2 = m :=
  ⟨by omega, by omega, by omega, by omega⟩

/--
Every gradient send is matched: stage `s - 1` receives in the same step, and the
micro-batch whose backward `s` ran one step earlier is the one `s - 1` runs backward on.
-/
theorem trainSteps_sendGrad_matched
    (inPipeline : stageId < stages)
    {t sender : Nat}
    (sends : ∃ microBatchId, (t, microBatchId, .sendGrad sender) ∈ events (trainSteps microBatches stages stageId)) :
    1 ≤ stageId ∧ ∃ (microBatchId : Nat) (receiver : Nat),
      (t - 1, (microBatchId : Int), .backwardPass sender) ∈ events (trainSteps microBatches stages stageId) ∧
        (∃ stepMicroBatchId, (t, stepMicroBatchId, .recvGrad receiver) ∈
          events (trainSteps microBatches stages (stageId - 1))) ∧
        (t, (microBatchId : Int), .backwardPass receiver) ∈ events (trainSteps microBatches stages (stageId - 1)) := by
  obtain ⟨_, sends⟩ := sends
  simp only [mem_events_trainSteps, mem_trainCmdsAt_sendGrad] at sends
  obtain ⟨inRange, -, forward, later, first, -, nonneg, bound, rfl⟩ := sends
  obtain ⟨m, hm⟩ : ∃ m : Nat, ((t : Int) + stageId - 2 * stages) / 2 = m := ⟨_, (Int.toNat_of_nonneg nonneg).symm⟩
  rw [hm] at bound ⊢
  obtain ⟨senderBackward, receiverBackward, senderStep, receiverStep⟩ := sendGrad_steps_agree forward later first hm
  clear nonneg hm
  refine ⟨first, m, m % trainNumPipeBuffers microBatches stages (stageId - 1), ?_, ⟨m, ?_⟩, ?_⟩ <;>
    simp only [mem_events_trainSteps, mem_trainCmdsAt_backwardPass, mem_trainCmdsAt_recvGrad,
      trainStepToMicroBatch_eq, senderBackward, receiverBackward, Nat.one_ne_zero, ↓reduceIte, senderStep,
      receiverStep, bufferIdx_natCast, true_and, and_true] <;>
    clear senderStep receiverStep senderBackward receiverBackward <;>
    omega

/-- Every gradient receive is matched by a send of the next stage in the same step. -/
theorem trainSteps_recvGrad_matched
    {t receiver : Nat}
    (receives : ∃ microBatchId, (t, microBatchId, .recvGrad receiver) ∈
      events (trainSteps microBatches stages stageId)) :
    stageId + 1 < stages ∧ ∃ sender microBatchId, (t, microBatchId, .sendGrad sender) ∈
      events (trainSteps microBatches stages (stageId + 1)) := by
  obtain ⟨_, receives⟩ := receives
  simp only [mem_events_trainSteps, mem_trainCmdsAt_recvGrad] at receives
  obtain ⟨inRange, -, backward, next, nonneg, bound, -⟩ := receives
  refine ⟨next, bufferIdx (trainNumPipeBuffers microBatches stages (stageId + 1))
    (((t : Int) + ((stageId + 1 : Nat) : Int) - 2 * stages) / 2), (trainStepToMicroBatch stages (stageId + 1) t).1, ?_⟩
  simp only [mem_events_trainSteps, mem_trainCmdsAt_sendGrad, true_and, and_true]
  omega

/-- The first and last stages load micro-batch `m` exactly once, in the step of its forward pass. -/
theorem trainSteps_loadMicroBatch_once
    (inPipeline : stageId < stages)
    (endStage : stageId = 0 ∨ stageId + 1 = stages)
    {microBatchId : Nat}
    (valid : microBatchId < microBatches) :
    (events (trainSteps microBatches stages stageId)).filter
        (fun event => event.2.2.isLoadMicroBatchOf microBatchId) =
      [(2 * microBatchId + stageId, (microBatchId : Int),
        .loadMicroBatch (microBatchId % trainNumPipeBuffers microBatches stages stageId) microBatchId)] := by
  have forward : (2 * microBatchId + stageId + stageId) % 2 = 0 := by omega
  have microBatch : (((2 * microBatchId + stageId : Nat) : Int) - stageId) / 2 = microBatchId := by omega
  have loads : ((stageId : Int) == 0 || (stageId : Int) == (stages : Int) - 1) = true := by
    rcases endStage with rfl | rfl <;> simp
  have atStep :
      (trainCmdsAt microBatches stages stageId (2 * microBatchId + stageId)).filter
          (PipeInstruction.isLoadMicroBatchOf microBatchId) =
        [.loadMicroBatch (microBatchId % trainNumPipeBuffers microBatches stages stageId) microBatchId] := by
    rw [trainCmdsAt_filter_isLoadMicroBatchOf, microBatch, loads]
    simp [forward, valid]
  rw [trainSteps_eq,
    filter_events_eq_single (show 2 * microBatchId + stageId < 2 * (microBatches + stages - 1) by omega) atStep]
  · simp [trainStepToMicroBatch_eq, forward, microBatch]
  · intro t _ other
    rw [trainCmdsAt_filter_isLoadMicroBatchOf, emitIf_eq_nil_iff]
    simp
    omega

/-- A step's commands end with the model-step tail, and nothing before it is a model-step instruction. -/
theorem trainCmdsAt_eq_append_modelStep :
    ∃ body, trainCmdsAt microBatches stages stageId stepId = body ++ trainModelStepCmds microBatches stages stepId ∧
      ∀ instruction ∈ body, instruction.isModelStep = false := by
  by_cases forward : (stepId + stageId) % 2 = 0
  · rw [trainCmdsAt_of_forward forward]
    refine ⟨_, rfl, fun instruction member => ?_⟩
    simp only [List.mem_append, mem_emitIf, or_assoc] at member
    rcases member with ⟨rfl, -⟩ | ⟨rfl, -⟩ | ⟨rfl, -⟩ | ⟨rfl, -⟩ <;> rfl
  · rw [trainCmdsAt_of_backward (by omega)]
    refine ⟨_, rfl, fun instruction member => ?_⟩
    simp only [List.mem_append, mem_emitIf, or_assoc] at member
    rcases member with ⟨rfl, -⟩ | ⟨rfl, -⟩ | ⟨rfl, -⟩ <;> rfl

/-- Steps before the last issue no model-step instruction. -/
theorem isModelStep_eq_false_of_mem_trainCmdsAt
    {instruction : PipeInstruction}
    (member : instruction ∈ trainCmdsAt microBatches stages stageId stepId)
    (early : stepId ≠ 2 * (microBatches + stages - 1) - 1) :
    instruction.isModelStep = false := by
  obtain ⟨body, split, plain⟩ :=
    (trainCmdsAt_eq_append_modelStep : ∃ body, trainCmdsAt microBatches stages stageId stepId = _ ∧ _)
  rw [split, List.mem_append, mem_trainModelStepCmds] at member
  rcases member with member | ⟨last, -⟩
  · exact plain instruction member
  · exact absurd last early

/--
`ReduceTiedGrads`, `ReduceGrads` and `OptimizerStep` are the last three instructions of
the run, issued in its last step, and no earlier instruction is a model step.
-/
theorem trainSteps_modelStep_last
    (inPipeline : stageId < stages)
    (nonEmpty : 0 < microBatches) :
    ∃ before, events (trainSteps microBatches stages stageId) =
        before ++
          [(2 * (microBatches + stages - 1) - 1,
              (trainStepToMicroBatch stages stageId (2 * (microBatches + stages - 1) - 1)).1, .reduceTiedGrads),
            (2 * (microBatches + stages - 1) - 1,
              (trainStepToMicroBatch stages stageId (2 * (microBatches + stages - 1) - 1)).1, .reduceGrads),
            (2 * (microBatches + stages - 1) - 1,
              (trainStepToMicroBatch stages stageId (2 * (microBatches + stages - 1) - 1)).1, .optimizerStep)] ∧
      ∀ event ∈ before, event.2.2.isModelStep = false := by
  obtain ⟨last, total⟩ : ∃ last, 2 * (microBatches + stages - 1) = last + 1 :=
    ⟨2 * (microBatches + stages - 1) - 1, by omega⟩
  have lastStep : 2 * (microBatches + stages - 1) - 1 = last := by omega
  obtain ⟨body, split, plain⟩ :=
    (trainCmdsAt_eq_append_modelStep : ∃ body, trainCmdsAt microBatches stages stageId last = _ ∧ _)
  have modelStep : trainModelStepCmds microBatches stages last = [.reduceTiedGrads, .reduceGrads, .optimizerStep] := by
    simp [trainModelStepCmds, lastStep]
  refine ⟨events ((List.range last).map fun t =>
      ⟨t, (trainStepToMicroBatch stages stageId t).1, trainCmdsAt microBatches stages stageId t⟩) ++
    body.map fun instruction => (last, (trainStepToMicroBatch stages stageId last).1, instruction), ?_, ?_⟩
  · rw [lastStep, trainSteps_eq, total, List.range_succ, List.map_append, events_append]
    simp [events, split, modelStep]
  · intro event member
    rw [List.mem_append, List.mem_map] at member
    rcases member with early | ⟨instruction, inBody, rfl⟩
    · simp only [events, List.flatMap_map, List.mem_flatMap, List.mem_range, List.mem_map] at early
      obtain ⟨t, below, instruction, member, rfl⟩ := early
      exact isModelStep_eq_false_of_mem_trainCmdsAt member (by omega)
    · exact plain instruction inBody

end Lemmas

/-- What one stage's run of `TrainSchedule.steps` guarantees, clause by clause. -/
structure TrainScheduleSound (microBatches stages stageId : Nat) : Prop where
  /-- One forward pass of each micro-batch, at step `2 * m + stageId`, in buffer `m mod num_pipe_buffers()`. -/
  forwardOnce : ∀ microBatchId < microBatches,
    (events (trainSteps microBatches stages stageId)).filter
        (fun event => event.2.2.isForwardPassOf microBatchId) =
      [(2 * microBatchId + stageId, (microBatchId : Int),
        .forwardPass (microBatchId % trainNumPipeBuffers microBatches stages stageId) microBatchId)]
  /-- One backward pass of each micro-batch, in the same buffer, strictly after its forward pass. -/
  backwardOnce : ∀ microBatchId < microBatches,
    (events (trainSteps microBatches stages stageId)).filter
        (fun event => event.2.2.isBackwardPass && event.2.1 == (microBatchId : Int)) =
      [(2 * microBatchId + 2 * stages - stageId - 1, (microBatchId : Int),
        .backwardPass (microBatchId % trainNumPipeBuffers microBatches stages stageId))] ∧
    2 * microBatchId + stageId < 2 * microBatchId + 2 * stages - stageId - 1
  /-- No pass of an id outside `[0, micro_batches)`. -/
  passesValid : ∀ event ∈ events (trainSteps microBatches stages stageId),
    (∀ bufferId microBatchId, event.2.2 = .forwardPass bufferId microBatchId →
      event.2.1 = microBatchId ∧ 0 ≤ microBatchId ∧ microBatchId < microBatches) ∧
    (∀ bufferId, event.2.2 = .backwardPass bufferId → 0 ≤ event.2.1 ∧ event.2.1 < microBatches)
  /-- No forward pass of another micro-batch writes the buffer between a forward and its backward. -/
  bufferNotOverwritten : ∀ (microBatchId : Nat) (otherId : Int),
    ∀ event ∈ events (trainSteps microBatches stages stageId),
      event.2.2 = .forwardPass (microBatchId % trainNumPipeBuffers microBatches stages stageId) otherId →
      otherId ≠ microBatchId →
      ¬ (2 * microBatchId + stageId < event.1 ∧ event.1 < 2 * microBatchId + 2 * stages - stageId - 1)
  /-- An activation send meets a receive of the next stage, which forwards what was sent. -/
  sendActivationMatched : ∀ t sender : Nat,
    (∃ microBatchId, (t, microBatchId, .sendActivation sender) ∈ events (trainSteps microBatches stages stageId)) →
    stageId + 1 < stages ∧ ∃ (microBatchId : Nat) (receiver : Nat),
      (t - 1, (microBatchId : Int), .forwardPass sender microBatchId) ∈
          events (trainSteps microBatches stages stageId) ∧
        (∃ stepMicroBatchId, (t, stepMicroBatchId, .recvActivation receiver) ∈
          events (trainSteps microBatches stages (stageId + 1))) ∧
        (t, (microBatchId : Int), .forwardPass receiver microBatchId) ∈
          events (trainSteps microBatches stages (stageId + 1))
  /-- An activation receive meets a send of the previous stage. -/
  recvActivationMatched : ∀ t receiver : Nat,
    (∃ microBatchId, (t, microBatchId, .recvActivation receiver) ∈ events (trainSteps microBatches stages stageId)) →
    1 ≤ stageId ∧ ∃ sender microBatchId, (t, microBatchId, .sendActivation sender) ∈
      events (trainSteps microBatches stages (stageId - 1))
  /-- A gradient send meets a receive of the previous stage, which runs backward on the same micro-batch. -/
  sendGradMatched : ∀ t sender : Nat,
    (∃ microBatchId, (t, microBatchId, .sendGrad sender) ∈ events (trainSteps microBatches stages stageId)) →
    1 ≤ stageId ∧ ∃ (microBatchId : Nat) (receiver : Nat),
      (t - 1, (microBatchId : Int), .backwardPass sender) ∈ events (trainSteps microBatches stages stageId) ∧
        (∃ stepMicroBatchId, (t, stepMicroBatchId, .recvGrad receiver) ∈
          events (trainSteps microBatches stages (stageId - 1))) ∧
        (t, (microBatchId : Int), .backwardPass receiver) ∈ events (trainSteps microBatches stages (stageId - 1))
  /-- A gradient receive meets a send of the next stage. -/
  recvGradMatched : ∀ t receiver : Nat,
    (∃ microBatchId, (t, microBatchId, .recvGrad receiver) ∈ events (trainSteps microBatches stages stageId)) →
    stageId + 1 < stages ∧ ∃ sender microBatchId, (t, microBatchId, .sendGrad sender) ∈
      events (trainSteps microBatches stages (stageId + 1))
  /-- The first and last stages load each micro-batch once, in the step of its forward pass. -/
  loadsOnce : (stageId = 0 ∨ stageId + 1 = stages) → ∀ microBatchId < microBatches,
    (events (trainSteps microBatches stages stageId)).filter
        (fun event => event.2.2.isLoadMicroBatchOf microBatchId) =
      [(2 * microBatchId + stageId, (microBatchId : Int),
        .loadMicroBatch (microBatchId % trainNumPipeBuffers microBatches stages stageId) microBatchId)]
  /-- The model step is the run's last three instructions, in its last step. -/
  modelStepLast : ∃ before, events (trainSteps microBatches stages stageId) =
      before ++
        [(2 * (microBatches + stages - 1) - 1,
            (trainStepToMicroBatch stages stageId (2 * (microBatches + stages - 1) - 1)).1, .reduceTiedGrads),
          (2 * (microBatches + stages - 1) - 1,
            (trainStepToMicroBatch stages stageId (2 * (microBatches + stages - 1) - 1)).1, .reduceGrads),
          (2 * (microBatches + stages - 1) - 1,
            (trainStepToMicroBatch stages stageId (2 * (microBatches + stages - 1) - 1)).1, .optimizerStep)] ∧
    ∀ event ∈ before, event.2.2.isModelStep = false

/-- Every stage of a non-empty batch runs a sound 1F1B schedule. -/
theorem trainSchedule_sound
    (microBatches stages stageId : Nat)
    (inPipeline : stageId < stages)
    (nonEmpty : 0 < microBatches) :
    TrainScheduleSound microBatches stages stageId where
  forwardOnce _ valid := trainSteps_forwardPass_once inPipeline valid
  backwardOnce _ valid := ⟨trainSteps_backwardPass_once inPipeline valid, by omega⟩
  passesValid _ member := trainSteps_pass_valid member
  bufferNotOverwritten _ _ _ member overwrites other := trainSteps_buffer_not_overwritten member overwrites other
  sendActivationMatched _ _ sends := trainSteps_sendActivation_matched sends
  recvActivationMatched _ _ receives := trainSteps_recvActivation_matched inPipeline receives
  sendGradMatched _ _ sends := trainSteps_sendGrad_matched inPipeline sends
  recvGradMatched _ _ receives := trainSteps_recvGrad_matched receives
  loadsOnce endStage _ valid := trainSteps_loadMicroBatch_once inPipeline endStage valid
  modelStepLast := trainSteps_modelStep_last inPipeline nonEmpty

/-- The two-stage pipeline of two micro-batches meets the hypotheses, so its first stage is sound. -/
theorem trainSchedule_sound_two_stages :
    0 < 2 ∧ 0 < 2 ∧ TrainScheduleSound 2 2 0 :=
  ⟨by decide, by decide, trainSchedule_sound 2 2 0 (by decide) (by decide)⟩

end RealRlhf.Pipeline
