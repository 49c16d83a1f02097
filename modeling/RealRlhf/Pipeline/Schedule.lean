import Mathlib.Data.List.Basic
import Mathlib.Data.Nat.Find

namespace RealRlhf.Pipeline

/-!
# Pipeline schedules and their instructions

`PipeSchedule` in `ds_pipe_engine/schedule.py` is a generator: for every step it yields
`(step_id, micro_batch_id, cmds)`, and the stage executes `cmds` in order. The
activation sends and receives block until the neighbouring stage issues the matching
instruction, so a step is atomic only when those instructions pair up across stages.

This module fixes the instruction set, the validity tests every schedule shares, and a
blocking-exchange semantics for the sends and receives of one step, in which a step
cannot stall while every sender has exactly one matching receiver.
-/

/-- A pipeline instruction with the positional arguments the schedules pass to it. -/
inductive PipeInstruction where
  | optimizerStep
  | reduceGrads
  | reduceTiedGrads
  | loadMicroBatch (bufferId : Nat) (microBatchId : Int)
  | forwardPass (bufferId : Nat) (microBatchId : Int)
  | backwardPass (bufferId : Nat)
  | sendActivation (bufferId : Nat)
  | recvActivation (bufferId : Nat)
  | sendGrad (bufferId : Nat)
  | recvGrad (bufferId : Nat)
  | sendNextTokens (microBatchId : Int)
  | recvNextTokens (microBatchId : Int)
  | loadNextTokens (bufferId : Nat) (microBatchId : Int)
  deriving Repr, DecidableEq

namespace PipeInstruction

/-- `SendActivation` with any buffer. -/
def isSendActivation : PipeInstruction → Bool
  | .sendActivation _ => true
  | _ => false

/-- `RecvActivation` with any buffer. -/
def isRecvActivation : PipeInstruction → Bool
  | .recvActivation _ => true
  | _ => false

/-- The blocking activation exchange: a send to the next stage or a receive from the previous one. -/
def isActivationExchange (instruction : PipeInstruction) : Bool :=
  instruction.isSendActivation || instruction.isRecvActivation

/-- `ForwardPass` of the given micro-batch, in any buffer. -/
def isForwardPassOf (microBatchId : Int) : PipeInstruction → Bool
  | .forwardPass _ id => id == microBatchId
  | _ => false

/-- `BackwardPass` with any buffer. -/
def isBackwardPass : PipeInstruction → Bool
  | .backwardPass _ => true
  | _ => false

/-- `LoadMicroBatch` of the given micro-batch, in any buffer. -/
def isLoadMicroBatchOf (microBatchId : Int) : PipeInstruction → Bool
  | .loadMicroBatch _ id => id == microBatchId
  | _ => false

/-- `ReduceTiedGrads`, `ReduceGrads` or `OptimizerStep`: the model step closing a batch. -/
def isModelStep : PipeInstruction → Bool
  | .reduceTiedGrads | .reduceGrads | .optimizerStep => true
  | _ => false

end PipeInstruction

/-- One item yielded by `steps()`: `(step_id, micro_batch_id, cmds)`. -/
structure ScheduleStep where
  stepId : Nat
  microBatchId : Int
  cmds : List PipeInstruction
  deriving Repr, DecidableEq

/-- `PipeSchedule._valid_micro_batch`. -/
def validMicroBatch (microBatches : Nat) (microBatchId : Int) : Bool :=
  0 ≤ microBatchId && microBatchId < microBatches

/-- `PipeSchedule._valid_stage`. -/
def validStage (stages : Nat) (stageId : Int) : Bool :=
  0 ≤ stageId && stageId < stages

/-- `_is_even`. -/
def isEven (x : Int) : Bool :=
  x % 2 == 0

/-- The instruction as a one-element command list when `condition` holds, else nothing. -/
def emitIf (condition : Bool) (instruction : PipeInstruction) : List PipeInstruction :=
  if condition then [instruction] else []

/--
`(recv_buf, send_buf)` of the inference and generate schedules: both alternate with the
step's parity, in opposite phase on even and odd stages, so that the buffer ids are
global for all stages.
-/
def alternatingBuffers (stageId stepId : Nat) : Nat × Nat :=
  if isEven stageId then (stepId % 2, (stepId + 1) % 2) else ((stepId + 1) % 2, stepId % 2)

/-- What a stage sends at step `t` sits in the buffer it received into at step `t - 1`. -/
theorem alternatingBuffers_send_eq_previous_recv
    {stageId stepId : Nat}
    (later : 1 ≤ stepId) :
    (alternatingBuffers stageId stepId).2 = (alternatingBuffers stageId (stepId - 1)).1 := by
  unfold alternatingBuffers
  split <;> simp only <;> omega

/-- No receive precedes a send: the stage sends first. -/
def SendsBeforeReceives (cmds : List PipeInstruction) : Prop :=
  cmds.Pairwise fun earlier later => earlier.isRecvActivation → later.isSendActivation = false

/-- No send precedes a receive: the stage receives first. -/
def ReceivesBeforeSends (cmds : List PipeInstruction) : Prop :=
  cmds.Pairwise fun earlier later => earlier.isSendActivation → later.isRecvActivation = false

/-- Every instruction of a run, with the step id and micro-batch id of the step issuing it. -/
def events (steps : List ScheduleStep) : List (Nat × Int × PipeInstruction) :=
  steps.flatMap fun step => step.cmds.map fun instruction => (step.stepId, step.microBatchId, instruction)

@[simp] theorem events_append
    (earlier later : List ScheduleStep) :
    events (earlier ++ later) = events earlier ++ events later := by
  simp [events]

@[simp] theorem validMicroBatch_eq_true
    {microBatches : Nat}
    {microBatchId : Int} :
    validMicroBatch microBatches microBatchId = true ↔
      0 ≤ microBatchId ∧ microBatchId < microBatches := by
  simp [validMicroBatch]

@[simp] theorem validMicroBatch_natCast
    {microBatches microBatchId : Nat} :
    validMicroBatch microBatches microBatchId = decide (microBatchId < microBatches) := by
  simp [validMicroBatch, Int.ofNat_nonneg]

@[simp] theorem validStage_eq_true
    {stages : Nat}
    {stageId : Int} :
    validStage stages stageId = true ↔ 0 ≤ stageId ∧ stageId < stages := by
  simp [validStage]

@[simp] theorem isEven_eq_true
    {x : Int} :
    isEven x = true ↔ x % 2 = 0 := by
  simp [isEven]

@[simp] theorem isEven_eq_false
    {x : Int} :
    isEven x = false ↔ ¬ x % 2 = 0 := by
  simp [isEven]

@[simp] theorem emitIf_false
    (instruction : PipeInstruction) :
    emitIf false instruction = [] :=
  rfl

@[simp] theorem emitIf_true
    (instruction : PipeInstruction) :
    emitIf true instruction = [instruction] :=
  rfl

@[simp] theorem emitIf_eq_nil_iff
    {condition : Bool}
    {instruction : PipeInstruction} :
    emitIf condition instruction = [] ↔ condition = false := by
  cases condition <;> simp [emitIf]

@[simp] theorem mem_emitIf
    {condition : Bool}
    {instruction other : PipeInstruction} :
    other ∈ emitIf condition instruction ↔ other = instruction ∧ condition = true := by
  cases condition <;> simp [emitIf]

@[simp] theorem filter_emitIf
    (p : PipeInstruction → Bool)
    (condition : Bool)
    (instruction : PipeInstruction) :
    (emitIf condition instruction).filter p = emitIf (condition && p instruction) instruction := by
  by_cases holds : p instruction <;> cases condition <;> simp [emitIf, holds]

@[simp] theorem countP_emitIf
    (p : PipeInstruction → Bool)
    (condition : Bool)
    (instruction : PipeInstruction) :
    (emitIf condition instruction).countP p = if condition && p instruction then 1 else 0 := by
  by_cases holds : p instruction <;> cases condition <;> simp [emitIf, holds]

/-- Membership in a command list chosen by a condition. -/
@[simp] theorem mem_ite_cmds
    {condition : Prop}
    [Decidable condition]
    {instruction : PipeInstruction}
    {cmds other : List PipeInstruction} :
    instruction ∈ (if condition then cmds else other) ↔
      (condition ∧ instruction ∈ cmds) ∨ (¬ condition ∧ instruction ∈ other) := by
  split <;> simp [*]

@[simp] theorem pairwise_emitIf
    (R : PipeInstruction → PipeInstruction → Prop)
    (condition : Bool)
    (instruction : PipeInstruction) :
    (emitIf condition instruction).Pairwise R := by
  cases condition <;> simp [emitIf]

@[simp] theorem any_emitIf
    (p : PipeInstruction → Bool)
    (condition : Bool)
    (instruction : PipeInstruction) :
    (emitIf condition instruction).any p = (condition && p instruction) := by
  cases condition <;> simp [emitIf]

/-- Filtering the exchange instructions keeps every send. -/
theorem countP_isSendActivation_filter
    (cmds : List PipeInstruction) :
    (cmds.filter PipeInstruction.isActivationExchange).countP PipeInstruction.isSendActivation =
      cmds.countP PipeInstruction.isSendActivation := by
  rw [List.countP_filter]
  congr 1
  funext instruction
  cases instruction <;> rfl

/-- Filtering the exchange instructions keeps every receive. -/
theorem countP_isRecvActivation_filter
    (cmds : List PipeInstruction) :
    (cmds.filter PipeInstruction.isActivationExchange).countP PipeInstruction.isRecvActivation =
      cmds.countP PipeInstruction.isRecvActivation := by
  rw [List.countP_filter]
  congr 1
  funext instruction
  cases instruction <;> rfl

/-- A run given step by step keeps, under a filter, only what the steps themselves keep. -/
theorem filter_events_map_range
    (total : Nat)
    (step : Nat → ScheduleStep)
    (p : Nat × Int × PipeInstruction → Bool) :
    (events ((List.range total).map step)).filter p =
      (List.range total).flatMap fun t =>
        ((step t).cmds.map fun instruction => ((step t).stepId, (step t).microBatchId, instruction)).filter p := by
  simp [events, List.filter_flatMap, List.flatMap_map]

/-- A list in which exactly one element satisfies `p`, namely `x`, filters to `[x]`. -/
theorem filter_eq_singleton_of_countP
    {α : Type}
    {l : List α}
    {p : α → Bool}
    {x : α}
    (member : x ∈ l)
    (holds : p x)
    (once : l.countP p = 1) :
    l.filter p = [x] := by
  rw [List.countP_eq_length_filter] at once
  obtain ⟨y, hy⟩ := List.length_eq_one.mp once
  have : x ∈ l.filter p := List.mem_filter.mpr ⟨member, holds⟩
  rw [hy, List.mem_singleton] at this
  rw [hy, this]

/-- A `flatMap` over a range in which only step `t₀` contributes is what `t₀` contributes. -/
theorem flatMap_range_eq_single
    {β : Type}
    {total t₀ : Nat}
    {contribution : Nat → List β}
    (inRange : t₀ < total)
    (others : ∀ t < total, t ≠ t₀ → contribution t = []) :
    (List.range total).flatMap contribution = contribution t₀ := by
  induction total with
  | zero =>
      omega
  | succ total inductionHypothesis =>
      rw [List.range_succ, List.flatMap_append]
      by_cases last : t₀ = total
      · subst last
        have before : (List.range t₀).flatMap contribution = [] := by
          simp only [List.flatMap_eq_nil_iff, List.mem_range]
          exact fun t below => others t (by omega) (by omega)
        simp [before]
      · rw [inductionHypothesis (by omega) (fun t below => others t (by omega))]
        simp [others total (by omega) (Ne.symm last)]

/--
A step-by-step run keeps exactly one event under a filter when only step `t₀` keeps an
instruction, namely `x`.
-/
theorem filter_events_eq_single
    {total t₀ : Nat}
    {step : Nat → ScheduleStep}
    {p : Nat × Int × PipeInstruction → Bool}
    {x : PipeInstruction}
    (inRange : t₀ < total)
    (atStep : (step t₀).cmds.filter (fun instruction =>
      p ((step t₀).stepId, (step t₀).microBatchId, instruction)) = [x])
    (others : ∀ t < total, t ≠ t₀ → (step t).cmds.filter (fun instruction =>
      p ((step t).stepId, (step t).microBatchId, instruction)) = []) :
    (events ((List.range total).map step)).filter p =
      [((step t₀).stepId, (step t₀).microBatchId, x)] := by
  rw [filter_events_map_range, flatMap_range_eq_single inRange]
  · simp only [List.filter_map, Function.comp_def, atStep, List.map_cons, List.map_nil]
  · intro t below other
    simp only [List.filter_map, Function.comp_def, others t below other, List.map_nil]

/-!
## Blocking exchange within one step

Stage `a` holds the activation sends and receives of its command list, in order. A
rendezvous on the link `a → a + 1` completes `a`'s next instruction, a send, together with
`a + 1`'s next instruction, a receive. A step is deadlock free when every state reachable
by rendezvous is either finished or enables another rendezvous.
-/

section Exchange

variable (stages : Nat) (exchange : Nat → List PipeInstruction)

/-- Stage `a`'s next exchange instruction after `done a` of them completed. -/
def nextExchange (done : Nat → Nat) (a : Nat) : Option PipeInstruction :=
  (exchange a)[done a]?

/-- A rendezvous on the link `a → a + 1`. -/
inductive Rendezvous : (Nat → Nat) → (Nat → Nat) → Prop where
  | link
      (a : Nat)
      (done : Nat → Nat)
      {send receive : PipeInstruction}
      (atSender : nextExchange exchange done a = some send)
      (sends : send.isSendActivation)
      (atReceiver : nextExchange exchange done (a + 1) = some receive)
      (receives : receive.isRecvActivation) :
      Rendezvous done
        (Function.update (Function.update done a (done a + 1)) (a + 1) (done (a + 1) + 1))

/-- Progress reachable from the start of a step by rendezvous. -/
inductive ExchangeReachable : (Nat → Nat) → Prop where
  | start : ExchangeReachable fun _ => 0
  | step {done done' : Nat → Nat} :
      ExchangeReachable done → Rendezvous exchange done done' → ExchangeReachable done'

/-- Every stage has completed all of its exchange instructions. -/
def ExchangeFinished (done : Nat → Nat) : Prop :=
  ∀ a < stages, (exchange a).length ≤ done a

/-- Sends completed by stage `a`. -/
def sentCount (done : Nat → Nat) (a : Nat) : Nat :=
  ((exchange a).take (done a)).countP PipeInstruction.isSendActivation

/-- Receives completed by stage `a`. -/
def receivedCount (done : Nat → Nat) (a : Nat) : Nat :=
  ((exchange a).take (done a)).countP PipeInstruction.isRecvActivation

/--
The shape of one step's exchange the deadlock argument needs: only sends and receives,
at most one of each per stage, none outside the pipeline, no receive on the first stage,
no send on the last, and a send on `a` exactly when `a + 1` receives.
-/
structure PairedExchange : Prop where
  onlyExchange : ∀ a, ∀ instruction ∈ exchange a, instruction.isActivationExchange
  atMostOneSend : ∀ a, (exchange a).countP PipeInstruction.isSendActivation ≤ 1
  atMostOneReceive : ∀ a, (exchange a).countP PipeInstruction.isRecvActivation ≤ 1
  outside : ∀ a, stages ≤ a → exchange a = []
  firstReceivesNothing : (exchange 0).countP PipeInstruction.isRecvActivation = 0
  sendsMatchReceives : ∀ a,
    (exchange a).countP PipeInstruction.isSendActivation =
      (exchange (a + 1)).countP PipeInstruction.isRecvActivation

/-- A list's count splits at position `d` into the prefix and the element there. -/
private theorem countP_take_succ_of_getElem?
    {l : List PipeInstruction}
    {d : Nat}
    {x : PipeInstruction}
    (p : PipeInstruction → Bool)
    (atD : l[d]? = some x) :
    (l.take (d + 1)).countP p = (l.take d).countP p + if p x then 1 else 0 := by
  by_cases holds : p x <;> simp [List.take_succ, atD, List.countP_append, holds]

/-- An element at position `d` satisfying `p` is not yet counted by the prefix before `d`. -/
private theorem countP_take_lt_of_getElem?
    {l : List PipeInstruction}
    {d : Nat}
    {x : PipeInstruction}
    {p : PipeInstruction → Bool}
    (atD : l[d]? = some x)
    (holds : p x = true) :
    (l.take d).countP p < l.countP p := by
  have split := List.countP_append p (l.take d) (l.drop d)
  rw [List.take_append_drop] at split
  obtain ⟨bound, rfl⟩ := List.getElem?_eq_some_iff.mp atD
  rw [List.drop_eq_getElem_cons bound, List.countP_cons] at split
  simp only [holds, ↓reduceIte] at split
  omega

variable {stages exchange}

/-- Along reachable progress, the sends completed on each link equal the receives completed. -/
theorem ExchangeReachable.sent_eq_received
    {done : Nat → Nat}
    (reachable : ExchangeReachable exchange done) :
    ∀ a, sentCount exchange done a = receivedCount exchange done (a + 1) := by
  induction reachable with
  | start =>
      simp [sentCount, receivedCount]
  | step _ rendezvous inductionHypothesis =>
      cases rendezvous with
      | link a done atSender sends atReceiver receives =>
          rename_i send receive
          have sendNoRecv : send.isRecvActivation = false := by
            cases send <;> simp_all [PipeInstruction.isSendActivation, PipeInstruction.isRecvActivation]
          have receiveNoSend : receive.isSendActivation = false := by
            cases receive <;> simp_all [PipeInstruction.isSendActivation, PipeInstruction.isRecvActivation]
          intro b
          have link := inductionHypothesis b
          simp only [nextExchange] at atSender atReceiver
          simp only [sentCount, receivedCount, Function.update_apply] at link ⊢
          by_cases onSender : b = a
          · subst onSender
            simp [countP_take_succ_of_getElem? _ atSender, countP_take_succ_of_getElem? _ atReceiver,
              sends, receives, link]
          · by_cases belowSender : b + 1 = a
            · subst belowSender
              simp [countP_take_succ_of_getElem? _ atSender, sendNoRecv, link,
                show b ≠ b + 1 + 1 by omega]
            · by_cases onReceiver : b = a + 1
              · subst onReceiver
                simp [countP_take_succ_of_getElem? _ atReceiver, receiveNoSend, link,
                  show a + 1 + 1 ≠ a by omega]
              · simp [onSender, onReceiver, show b + 1 ≠ a + 1 by omega, belowSender, link]

/-- A send waiting at stage `b` leads, further up the pipeline, to a link ready to rendezvous. -/
private theorem rendezvous_of_waiting_send
    {done : Nat → Nat}
    (paired : PairedExchange stages exchange)
    (balanced : ∀ a, sentCount exchange done a = receivedCount exchange done (a + 1))
    (bound : Nat) :
    ∀ b, stages - b ≤ bound →
      ∀ {send}, nextExchange exchange done b = some send → send.isSendActivation →
        ∃ done', Rendezvous exchange done done' := by
  induction bound with
  | zero =>
      intro b exhausted send atSender _
      simp [nextExchange, paired.outside b (by omega)] at atSender
  | succ bound inductionHypothesis =>
      intro b within send atSender sends
      have notYetSent := countP_take_lt_of_getElem? atSender sends
      have oneSend := paired.atMostOneSend b
      have noneReceived : receivedCount exchange done (b + 1) = 0 := by
        rw [← balanced b, sentCount]
        omega
      have receiverWaits : done (b + 1) < (exchange (b + 1)).length := by
        by_contra finished
        rw [receivedCount, List.take_of_length_le (by omega), ← paired.sendsMatchReceives b] at noneReceived
        omega
      have atReceiver : nextExchange exchange done (b + 1) = some (exchange (b + 1))[done (b + 1)] :=
        List.getElem?_eq_getElem receiverWaits
      have exchanges := paired.onlyExchange (b + 1) _ (List.getElem_mem receiverWaits)
      simp only [PipeInstruction.isActivationExchange, Bool.or_eq_true] at exchanges
      rcases exchanges with sendsOn | receives
      · have receiverInside : b + 1 < stages := by
          by_contra outside
          simp [paired.outside (b + 1) (by omega)] at receiverWaits
        exact inductionHypothesis (b + 1) (by omega) atReceiver sendsOn
      · exact ⟨_, Rendezvous.link b done atSender sends atReceiver receives⟩

/--
Deadlock freedom of one step's exchange: progress reachable by rendezvous is either
finished on every stage or enables a further rendezvous.
-/
theorem ExchangeReachable.finished_or_rendezvous
    {done : Nat → Nat}
    (paired : PairedExchange stages exchange)
    (reachable : ExchangeReachable exchange done) :
    ExchangeFinished stages exchange done ∨ ∃ done', Rendezvous exchange done done' := by
  classical
  have balanced := reachable.sent_eq_received
  by_cases finished : ExchangeFinished stages exchange done
  · exact Or.inl finished
  right
  have pending : ∃ a, done a < (exchange a).length := by
    simp only [ExchangeFinished, not_forall, not_le] at finished
    obtain ⟨a, _, waits⟩ := finished
    exact ⟨a, waits⟩
  let first := Nat.find pending
  have firstWaits : done first < (exchange first).length := Nat.find_spec pending
  have atFirst : nextExchange exchange done first = some (exchange first)[done first] :=
    List.getElem?_eq_getElem firstWaits
  have exchanges := paired.onlyExchange first _ (List.getElem_mem firstWaits)
  simp only [PipeInstruction.isActivationExchange, Bool.or_eq_true] at exchanges
  rcases exchanges with sends | receives
  · exact rendezvous_of_waiting_send paired balanced (stages - first) first le_rfl atFirst sends
  · exfalso
    have notYetReceived := countP_take_lt_of_getElem? atFirst receives
    cases hFirst : first with
    | zero =>
        rw [hFirst] at notYetReceived
        have none := paired.firstReceivesNothing
        omega
    | succ below =>
        have belowDone : ¬ done below < (exchange below).length :=
          Nat.find_min pending (by omega)
        have allSent := balanced below
        rw [sentCount, List.take_of_length_le (by omega), paired.sendsMatchReceives below,
          receivedCount, ← hFirst] at allSent
        omega

end Exchange

end RealRlhf.Pipeline
