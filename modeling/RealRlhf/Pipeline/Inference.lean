import RealRlhf.Pipeline.Schedule

namespace RealRlhf.Pipeline

/-!
# The inference schedule

`InferenceSchedule` runs `micro_batches + stages - 1` steps. At step `t` stage `s`
forwards micro-batch `t - s`; it receives that micro-batch's activations from stage
`s - 1` and sends the previous one's to stage `s + 1`. Even stages send before they
receive and odd stages the other way round, and the two activation buffers alternate
with the step's parity, in opposite phase on neighbouring stages.
-/

/-- `SendActivation(send_buf)`, issued when there is a next stage and a previous micro-batch. -/
def inferenceSend (microBatches stages stageId stepId : Nat) : List PipeInstruction :=
  emitIf (validStage stages ((stageId : Int) + 1) &&
      validMicroBatch microBatches ((stepId : Int) - stageId - 1))
    (.sendActivation (alternatingBuffers stageId stepId).2)

/-- `RecvActivation(recv_buf)`, issued when there is a previous stage and a current micro-batch. -/
def inferenceRecv (microBatches stages stageId stepId : Nat) : List PipeInstruction :=
  emitIf (validStage stages ((stageId : Int) - 1) &&
      validMicroBatch microBatches ((stepId : Int) - stageId))
    (.recvActivation (alternatingBuffers stageId stepId).1)

/-- The commands `InferenceSchedule.steps` yields at step `stepId` of stage `stageId`. -/
def inferenceCmds (microBatches stages stageId stepId : Nat) : List PipeInstruction :=
  let microBatchId : Int := (stepId : Int) - stageId
  let recvBuf := (alternatingBuffers stageId stepId).1
  emitIf (stageId == 0 && validMicroBatch microBatches microBatchId)
      (.loadMicroBatch recvBuf microBatchId) ++
    (if isEven stageId then
      inferenceSend microBatches stages stageId stepId ++ inferenceRecv microBatches stages stageId stepId
    else
      inferenceRecv microBatches stages stageId stepId ++ inferenceSend microBatches stages stageId stepId) ++
    emitIf (validMicroBatch microBatches microBatchId) (.forwardPass recvBuf microBatchId)

/-- `InferenceSchedule.steps`: `micro_batches + stages - 1` steps of `(step_id, step_id - stage_id, cmds)`. -/
def inferenceSteps (microBatches stages stageId : Nat) : List ScheduleStep :=
  (List.range (microBatches + stages - 1)).map fun stepId =>
    ⟨stepId, (stepId : Int) - stageId, inferenceCmds microBatches stages stageId stepId⟩

/-- The blocking exchange of step `stepId`: each stage's activation sends and receives. -/
def inferenceExchange (microBatches stages stepId : Nat) (stageId : Nat) : List PipeInstruction :=
  if stageId < stages then
    (inferenceCmds microBatches stages stageId stepId).filter PipeInstruction.isActivationExchange
  else
    []

section Lemmas

variable {microBatches stages stageId stepId : Nat}

@[simp] theorem mem_inferenceCmds_sendActivation
    {bufferId : Nat} :
    .sendActivation bufferId ∈ inferenceCmds microBatches stages stageId stepId ↔
      stageId + 1 < stages ∧ 0 ≤ (stepId : Int) - stageId - 1 ∧
        (stepId : Int) - stageId - 1 < microBatches ∧ bufferId = (alternatingBuffers stageId stepId).2 := by
  unfold inferenceCmds inferenceSend inferenceRecv
  split <;> simp <;> omega

@[simp] theorem mem_inferenceCmds_recvActivation
    {bufferId : Nat} :
    .recvActivation bufferId ∈ inferenceCmds microBatches stages stageId stepId ↔
      1 ≤ stageId ∧ stageId ≤ stages ∧ 0 ≤ (stepId : Int) - stageId ∧
        (stepId : Int) - stageId < microBatches ∧ bufferId = (alternatingBuffers stageId stepId).1 := by
  unfold inferenceCmds inferenceSend inferenceRecv
  split <;> simp <;> omega

@[simp] theorem mem_inferenceCmds_forwardPass
    {bufferId : Nat}
    {microBatchId : Int} :
    .forwardPass bufferId microBatchId ∈ inferenceCmds microBatches stages stageId stepId ↔
      0 ≤ (stepId : Int) - stageId ∧ (stepId : Int) - stageId < microBatches ∧
        microBatchId = (stepId : Int) - stageId ∧ bufferId = (alternatingBuffers stageId stepId).1 := by
  unfold inferenceCmds inferenceSend inferenceRecv
  split <;> simp <;> omega

/-- The forward passes of one step: the step's own micro-batch, when it is valid. -/
theorem inferenceCmds_filter_isForwardPassOf
    (microBatchId : Int) :
    (inferenceCmds microBatches stages stageId stepId).filter
        (PipeInstruction.isForwardPassOf microBatchId) =
      emitIf (validMicroBatch microBatches ((stepId : Int) - stageId) &&
          (((stepId : Int) - stageId) == microBatchId))
        (.forwardPass (alternatingBuffers stageId stepId).1 ((stepId : Int) - stageId)) := by
  unfold inferenceCmds inferenceSend inferenceRecv
  split <;> simp [List.filter_append, PipeInstruction.isForwardPassOf]

theorem inferenceCmds_countP_isSendActivation :
    (inferenceCmds microBatches stages stageId stepId).countP PipeInstruction.isSendActivation =
      if stageId + 1 < stages ∧ 0 ≤ (stepId : Int) - stageId - 1 ∧
          (stepId : Int) - stageId - 1 < microBatches then 1 else 0 := by
  unfold inferenceCmds inferenceSend inferenceRecv
  split <;> simp [List.countP_append, PipeInstruction.isSendActivation] <;> split_ifs <;> omega

theorem inferenceCmds_countP_isRecvActivation :
    (inferenceCmds microBatches stages stageId stepId).countP PipeInstruction.isRecvActivation =
      if 1 ≤ stageId ∧ stageId ≤ stages ∧ 0 ≤ (stepId : Int) - stageId ∧
          (stepId : Int) - stageId < microBatches then 1 else 0 := by
  unfold inferenceCmds inferenceSend inferenceRecv
  split <;> simp [List.countP_append, PipeInstruction.isRecvActivation] <;> split_ifs <;> omega

/-- Every forward pass of stage `stageId` is of a valid micro-batch `m`, at step `stageId + m`. -/
theorem inferenceSteps_forwardPass_valid
    {event : Nat × Int × PipeInstruction}
    (member : event ∈ events (inferenceSteps microBatches stages stageId))
    {bufferId : Nat}
    {microBatchId : Int}
    (forward : event.2.2 = .forwardPass bufferId microBatchId) :
    0 ≤ microBatchId ∧ microBatchId < microBatches ∧ (event.1 : Int) = stageId + microBatchId := by
  simp only [events, inferenceSteps, List.flatMap_map, List.mem_flatMap, List.mem_range,
    List.mem_map] at member
  obtain ⟨stepId, -, instruction, inCmds, rfl⟩ := member
  subst forward
  rw [mem_inferenceCmds_forwardPass] at inCmds
  omega

/-- Stage `stageId` forwards micro-batch `m` exactly once over the run, at step `stageId + m`. -/
theorem inferenceSteps_forwardPass_once
    (inPipeline : stageId < stages)
    {microBatchId : Nat}
    (valid : microBatchId < microBatches) :
    (events (inferenceSteps microBatches stages stageId)).filter
        (fun event => event.2.2.isForwardPassOf microBatchId) =
      [(stageId + microBatchId, (microBatchId : Int),
        .forwardPass (alternatingBuffers stageId (stageId + microBatchId)).1 microBatchId)] := by
  rw [inferenceSteps, filter_events_map_range,
    flatMap_range_eq_single (show stageId + microBatchId < microBatches + stages - 1 by omega)]
  · have atStep : ((stageId + microBatchId : Nat) : Int) - stageId = microBatchId := by omega
    simp only [List.filter_map, Function.comp_def, inferenceCmds_filter_isForwardPassOf, atStep]
    simp [emitIf, valid, Int.ofNat_nonneg]
  · intro t _ other
    simp only [List.filter_map, Function.comp_def, inferenceCmds_filter_isForwardPassOf]
    simp [emitIf]
    omega

/-- On the first stage, micro-batch `m` is loaded into the buffer it is then forwarded in. -/
theorem inferenceCmds_load_before_forward
    {microBatchId : Nat}
    (valid : microBatchId < microBatches) :
    [.loadMicroBatch (microBatchId % 2) microBatchId, .forwardPass (microBatchId % 2) microBatchId].Sublist
      (inferenceCmds microBatches stages 0 microBatchId) := by
  have loaded : validMicroBatch microBatches microBatchId = true := by
    simp only [validMicroBatch_eq_true]
    omega
  simp [inferenceCmds, alternatingBuffers, loaded]

/-- Stage `s` sends activations at step `t` exactly when stage `s + 1` receives them. -/
theorem inferenceCmds_sends_iff_next_receives
    (nextInPipeline : stageId + 1 < stages) :
    (∃ bufferId, .sendActivation bufferId ∈ inferenceCmds microBatches stages stageId stepId) ↔
      ∃ bufferId, .recvActivation bufferId ∈ inferenceCmds microBatches stages (stageId + 1) stepId := by
  simp only [mem_inferenceCmds_sendActivation, mem_inferenceCmds_recvActivation]
  constructor
  · rintro ⟨_, _, low, high, -⟩
    exact ⟨_, by omega, by omega, by omega, by omega, rfl⟩
  · rintro ⟨_, _, _, low, high, -⟩
    exact ⟨_, nextInPipeline, by omega, by omega, rfl⟩

/--
What stage `s` sends at step `t` is the micro-batch it forwarded at `t - 1`, taken from the
buffer of that forward pass; stage `s + 1` receives it into the buffer it forwards it from at `t`.
-/
theorem inferenceCmds_send_forwarded
    {bufferId : Nat}
    (sends : .sendActivation bufferId ∈ inferenceCmds microBatches stages stageId stepId) :
    1 ≤ stepId ∧ ∃ (microBatchId : Int) (recvBufferId : Nat),
      .forwardPass bufferId microBatchId ∈ inferenceCmds microBatches stages stageId (stepId - 1) ∧
      .recvActivation recvBufferId ∈ inferenceCmds microBatches stages (stageId + 1) stepId ∧
      .forwardPass recvBufferId microBatchId ∈ inferenceCmds microBatches stages (stageId + 1) stepId := by
  rw [mem_inferenceCmds_sendActivation] at sends
  obtain ⟨nextInPipeline, low, high, rfl⟩ := sends
  have later : 1 ≤ stepId := by omega
  refine ⟨later, (stepId : Int) - stageId - 1, (alternatingBuffers (stageId + 1) stepId).1, ?_, ?_, ?_⟩
  · rw [mem_inferenceCmds_forwardPass, alternatingBuffers_send_eq_previous_recv later]
    omega
  · rw [mem_inferenceCmds_recvActivation]
    omega
  · rw [mem_inferenceCmds_forwardPass]
    omega

/-- Even stages send before they receive; odd stages receive before they send. -/
theorem inferenceCmds_exchange_order :
    if isEven stageId then
      SendsBeforeReceives (inferenceCmds microBatches stages stageId stepId)
    else
      ReceivesBeforeSends (inferenceCmds microBatches stages stageId stepId) := by
  unfold inferenceCmds inferenceSend inferenceRecv SendsBeforeReceives ReceivesBeforeSends
  split <;>
    simp only [PipeInstruction.isRecvActivation, PipeInstruction.isSendActivation, List.append_assoc,
      List.pairwise_append, pairwise_emitIf, mem_emitIf, List.mem_append, and_imp, forall_eq, implies_true,
      and_self, Bool.false_eq_true, IsEmpty.forall_iff]

/-- Every step's exchange pairs each send with one receive on the next stage. -/
theorem inferenceExchange_paired :
    PairedExchange stages (inferenceExchange microBatches stages stepId) where
  onlyExchange := by
    intro a instruction member
    unfold inferenceExchange at member
    split at member
    · exact (List.mem_filter.mp member).2
    · simp at member
  atMostOneSend := by
    intro a
    unfold inferenceExchange
    split
    · rw [countP_isSendActivation_filter, inferenceCmds_countP_isSendActivation]
      split <;> omega
    · simp
  atMostOneReceive := by
    intro a
    unfold inferenceExchange
    split
    · rw [countP_isRecvActivation_filter, inferenceCmds_countP_isRecvActivation]
      split <;> omega
    · simp
  outside := by
    intro a beyond
    simp [inferenceExchange, show ¬ a < stages by omega]
  firstReceivesNothing := by
    unfold inferenceExchange
    split
    · rw [countP_isRecvActivation_filter, inferenceCmds_countP_isRecvActivation]
      simp
    · simp
  sendsMatchReceives := by
    intro a
    unfold inferenceExchange
    split <;> split <;>
      simp only [countP_isSendActivation_filter, countP_isRecvActivation_filter,
        inferenceCmds_countP_isSendActivation, inferenceCmds_countP_isRecvActivation,
        List.countP_nil] <;>
      split_ifs <;> omega

/-- Deadlock freedom of every inference step: its sends and receives never wait in a cycle. -/
theorem inferenceExchange_finished_or_rendezvous
    {done : Nat → Nat}
    (reachable : ExchangeReachable (inferenceExchange microBatches stages stepId) done) :
    ExchangeFinished stages (inferenceExchange microBatches stages stepId) done ∨
      ∃ done', Rendezvous (inferenceExchange microBatches stages stepId) done done' :=
  reachable.finished_or_rendezvous inferenceExchange_paired

end Lemmas

/--
The inference schedule of every pipeline shape. Each stage forwards each micro-batch exactly
once, at step `stage + micro-batch`, after the first stage loaded it into the same buffer.
Sends of a stage meet receives of the next stage in the same step, carrying the micro-batch
forwarded one step earlier from the buffer it was forwarded in. Even stages send first and
odd stages receive first, and no step's blocking exchange can wait in a cycle.
-/
theorem inferenceSchedule_forwards_once_and_pairs_exchange
    (microBatches stages : Nat) :
    (∀ stageId < stages, ∀ microBatchId < microBatches,
      (events (inferenceSteps microBatches stages stageId)).filter
          (fun event => event.2.2.isForwardPassOf microBatchId) =
        [(stageId + microBatchId, (microBatchId : Int),
          .forwardPass (alternatingBuffers stageId (stageId + microBatchId)).1 microBatchId)]) ∧
    (∀ stageId : Nat, ∀ event ∈ events (inferenceSteps microBatches stages stageId),
      ∀ bufferId microBatchId, event.2.2 = .forwardPass bufferId microBatchId →
        0 ≤ microBatchId ∧ microBatchId < microBatches ∧ (event.1 : Int) = stageId + microBatchId) ∧
    (∀ microBatchId < microBatches,
      [.loadMicroBatch (microBatchId % 2) microBatchId, .forwardPass (microBatchId % 2) microBatchId].Sublist
        (inferenceCmds microBatches stages 0 microBatchId)) ∧
    (∀ stageId stepId : Nat, stageId + 1 < stages →
      ((∃ bufferId, .sendActivation bufferId ∈ inferenceCmds microBatches stages stageId stepId) ↔
        ∃ bufferId, .recvActivation bufferId ∈ inferenceCmds microBatches stages (stageId + 1) stepId)) ∧
    (∀ stageId stepId bufferId : Nat,
      .sendActivation bufferId ∈ inferenceCmds microBatches stages stageId stepId →
        1 ≤ stepId ∧ ∃ (microBatchId : Int) (recvBufferId : Nat),
          .forwardPass bufferId microBatchId ∈ inferenceCmds microBatches stages stageId (stepId - 1) ∧
          .recvActivation recvBufferId ∈ inferenceCmds microBatches stages (stageId + 1) stepId ∧
          .forwardPass recvBufferId microBatchId ∈ inferenceCmds microBatches stages (stageId + 1) stepId) ∧
    (∀ stageId stepId : Nat,
      if isEven stageId then
        SendsBeforeReceives (inferenceCmds microBatches stages stageId stepId)
      else
        ReceivesBeforeSends (inferenceCmds microBatches stages stageId stepId)) ∧
    (∀ (stepId : Nat) (done : Nat → Nat), ExchangeReachable (inferenceExchange microBatches stages stepId) done →
      ExchangeFinished stages (inferenceExchange microBatches stages stepId) done ∨
        ∃ done', Rendezvous (inferenceExchange microBatches stages stepId) done done') :=
  ⟨fun _ inPipeline _ valid => inferenceSteps_forwardPass_once inPipeline valid,
    fun _ _ member _ _ forward => inferenceSteps_forwardPass_valid member forward,
    fun _ valid => inferenceCmds_load_before_forward valid,
    fun _ _ nextInPipeline => inferenceCmds_sends_iff_next_receives nextInPipeline,
    fun _ _ _ sends => inferenceCmds_send_forwarded sends,
    fun _ _ => inferenceCmds_exchange_order,
    fun _ _ reachable => inferenceExchange_finished_or_rendezvous reachable⟩

end RealRlhf.Pipeline
