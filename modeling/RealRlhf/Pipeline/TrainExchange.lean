import Mathlib.Algebra.Order.BigOperators.Group.Finset
import Mathlib.Data.List.Forall2
import RealRlhf.Pipeline.Train

namespace RealRlhf.Pipeline

/-!
# Blocking exchange in the training schedule

In a step of `TrainSchedule`, a stage on a forward step sends the previous backward's
gradient down and receives activations from below; a stage on a backward step receives the
gradient from above and sends the previous forward's activations up. Neighbouring stages are
on opposite steps. So the only links that carry anything in a step are those `b → b + 1`
whose lower stage `b` is on a backward step, and each of them carries a gradient down and then
activations up, in this order on both ends.

The exchange of `Schedule.lean` moves activations one way. Here a rendezvous on a link sends
activations up or a gradient down (`LinkRendezvous`). A step whose links pair up like this
(`PairedLinks`) never stalls: progress reachable by rendezvous is finished on every stage or
enables another rendezvous (`LinkReachable.finished_or_rendezvous`). Every step of the
training schedule pairs up (`trainExchange_paired`).
-/

namespace PipeInstruction

/-- `SendGrad` with any buffer. -/
def isSendGrad : PipeInstruction → Bool
  | .sendGrad _ => true
  | _ => false

/-- `RecvGrad` with any buffer. -/
def isRecvGrad : PipeInstruction → Bool
  | .recvGrad _ => true
  | _ => false

/-- The lower end of a link: activations sent up, or a gradient received from above. -/
def isLowerExchange (instruction : PipeInstruction) : Bool :=
  instruction.isSendActivation || instruction.isRecvGrad

/-- The upper end of a link: activations received from below, or a gradient sent down. -/
def isUpperExchange (instruction : PipeInstruction) : Bool :=
  instruction.isRecvActivation || instruction.isSendGrad

/-- A blocking send or receive of the training schedule. -/
def isP2p (instruction : PipeInstruction) : Bool :=
  instruction.isLowerExchange || instruction.isUpperExchange

/-- No instruction is at both ends of a link. -/
theorem isUpperExchange_eq_false_of_isLowerExchange
    {instruction : PipeInstruction}
    (lower : instruction.isLowerExchange) :
    instruction.isUpperExchange = false := by
  cases instruction <;> simp_all [isLowerExchange, isUpperExchange, isSendActivation, isRecvActivation,
    isSendGrad, isRecvGrad]

end PipeInstruction

open PipeInstruction

/-- Stage `b`'s `lower` and stage `b + 1`'s `upper` complete together: activations sent up, or a gradient sent down. -/
def Complementary (lower upper : PipeInstruction) : Prop :=
  lower.isSendActivation ∧ upper.isRecvActivation ∨ lower.isRecvGrad ∧ upper.isSendGrad

/-- The lower instruction of a complementary pair is at the lower end of its link. -/
theorem Complementary.isLowerExchange
    {lower upper : PipeInstruction}
    (matched : Complementary lower upper) :
    lower.isLowerExchange := by
  rcases matched with ⟨sends, -⟩ | ⟨receives, -⟩
  · simp [PipeInstruction.isLowerExchange, sends]
  · simp [PipeInstruction.isLowerExchange, receives]

/-- Two lists related position by position relate the entries found at one position. -/
theorem exists_of_forall₂_of_getElem?
    {R : PipeInstruction → PipeInstruction → Prop}
    {l₁ l₂ : List PipeInstruction}
    (related : List.Forall₂ R l₁ l₂)
    {i : Nat}
    {x : PipeInstruction}
    (atI : l₁[i]? = some x) :
    ∃ y, l₂[i]? = some y ∧ R x y := by
  induction related generalizing i with
  | nil => simp at atI
  | @cons a b l₁ l₂ head _ inductionHypothesis =>
      cases i with
      | zero =>
          simp only [List.getElem?_cons_zero, Option.some.injEq] at atI ⊢
          exact ⟨b, rfl, atI ▸ head⟩
      | succ i => simpa using inductionHypothesis (by simpa using atI)

section Links

variable (stages : Nat) (exchange : Nat → List PipeInstruction)

/-- A rendezvous on the link `a → a + 1`: activations sent up or a gradient sent down. -/
inductive LinkRendezvous : (Nat → Nat) → (Nat → Nat) → Prop where
  | link
      (a : Nat)
      (done : Nat → Nat)
      {lower upper : PipeInstruction}
      (atLower : nextExchange exchange done a = some lower)
      (atUpper : nextExchange exchange done (a + 1) = some upper)
      (matched : Complementary lower upper) :
      LinkRendezvous done
        (Function.update (Function.update done a (done a + 1)) (a + 1) (done (a + 1) + 1))

/-- Progress reachable from the start of a step by rendezvous. -/
inductive LinkReachable : (Nat → Nat) → Prop where
  | start : LinkReachable fun _ => 0
  | step {done done' : Nat → Nat} :
      LinkReachable done → LinkRendezvous exchange done done' → LinkReachable done'

/--
The shape of one step's exchange the deadlock argument needs. The links whose lower stage `b`
has `lowerEnd b` are the ones in use, and no two of them share a stage. A stage at the lower
end of no link issues only upper-end instructions, and none unless the stage below is a lower
end. Along a link in use, the two stages issue complementary instructions, position by position.
-/
structure PairedLinks (lowerEnd : Nat → Bool) : Prop where
  alternate : ∀ b, lowerEnd b → lowerEnd (b + 1) = false
  upperRoles : ∀ a, lowerEnd a = false → ∀ instruction ∈ exchange a, instruction.isUpperExchange
  idle : ∀ a, lowerEnd a = false → (∀ b, b + 1 = a → lowerEnd b = false) → exchange a = []
  mirrored : ∀ b, lowerEnd b → List.Forall₂ Complementary (exchange b) (exchange (b + 1))

/-- What remains of a step's exchange: the instructions each stage of the pipeline has still to complete. -/
def remaining (done : Nat → Nat) : Nat :=
  ∑ a in Finset.range stages, ((exchange a).length - done a)

variable {stages exchange} {lowerEnd : Nat → Bool}

/-- A rendezvous only happens on a link in use. -/
theorem lowerEnd_of_complementary
    (paired : PairedLinks exchange lowerEnd)
    {a : Nat}
    {done : Nat → Nat}
    {lower upper : PipeInstruction}
    (atLower : nextExchange exchange done a = some lower)
    (matched : Complementary lower upper) :
    lowerEnd a := by
  by_contra unused
  have upperEnd := paired.upperRoles a (by simpa using unused) lower (List.getElem?_mem atLower)
  simp [isUpperExchange_eq_false_of_isLowerExchange matched.isLowerExchange] at upperEnd

/-- Along reachable progress, both stages of every link in use have done as many exchanges. -/
theorem LinkReachable.done_eq
    (paired : PairedLinks exchange lowerEnd)
    {done : Nat → Nat}
    (reachable : LinkReachable exchange done) :
    ∀ b, lowerEnd b → done b = done (b + 1) := by
  induction reachable with
  | start => exact fun _ _ => rfl
  | step _ rendezvous inductionHypothesis =>
      cases rendezvous with
      | link a done atLower _ matched =>
          have inUse := lowerEnd_of_complementary paired atLower matched
          intro b lower
          by_cases same : b = a
          · subst same
            simp [Function.update_apply, inductionHypothesis b lower]
          · -- the links in use share no stage, so the link of `b` did not move
            have notAbove : b ≠ a + 1 := fun above => by simp_all [paired.alternate a inUse]
            have notBelow : b + 1 ≠ a := fun below => by
              subst below
              simp_all [paired.alternate b lower]
            simp [Function.update_apply, same, notAbove, notBelow, inductionHypothesis b lower]

/--
Deadlock freedom of one step's exchange in both directions: progress reachable by rendezvous is
either finished on every stage or enables a further rendezvous.
-/
theorem LinkReachable.finished_or_rendezvous
    (paired : PairedLinks exchange lowerEnd)
    {done : Nat → Nat}
    (reachable : LinkReachable exchange done) :
    ExchangeFinished stages exchange done ∨ ∃ done', LinkRendezvous exchange done done' := by
  by_cases finished : ExchangeFinished stages exchange done
  · exact .inl finished
  right
  simp only [ExchangeFinished, not_forall, not_le] at finished
  obtain ⟨a, _, waits⟩ := finished
  -- the waiting stage is one end of a link in use
  obtain ⟨b, inUse, ends⟩ : ∃ b, lowerEnd b ∧ (a = b ∨ a = b + 1) := by
    by_contra unused
    push_neg at unused
    have idle := paired.idle a (by simpa using fun lower => (unused a lower).1 rfl)
      fun b below => by simpa using fun lower => (unused b lower).2 below.symm
    simp [idle] at waits
  have balanced := reachable.done_eq paired b inUse
  have sameLength := (paired.mirrored b inUse).length_eq
  have lowerWaits : done b < (exchange b).length := by rcases ends with rfl | rfl <;> omega
  obtain ⟨upper, atUpper, matched⟩ :=
    exists_of_forall₂_of_getElem? (paired.mirrored b inUse) (List.getElem?_eq_getElem lowerWaits)
  exact ⟨_, .link b done (List.getElem?_eq_getElem lowerWaits) (by rw [nextExchange, ← balanced]; exact atUpper) matched⟩

/-- A rendezvous inside the pipeline completes an instruction on each end, so less remains. -/
theorem remaining_lt_of_rendezvous
    (outside : ∀ a, stages ≤ a → exchange a = [])
    {done done' : Nat → Nat}
    (rendezvous : LinkRendezvous exchange done done') :
    remaining stages exchange done' < remaining stages exchange done := by
  cases rendezvous with
  | link a done atLower _ _ =>
      have lowerWaits : done a < (exchange a).length := (List.getElem?_eq_some_iff.mp atLower).1
      have inside : a < stages := by
        by_contra beyond
        simp [outside a (by omega)] at lowerWaits
      refine Finset.sum_lt_sum (fun i _ => ?_) ⟨a, Finset.mem_range.mpr inside, ?_⟩
      · simp only [Function.update_apply]
        split_ifs with above atLink
        · subst above
          omega
        · subst atLink
          omega
        · omega
      · simp only [Function.update_apply, if_neg (show a ≠ a + 1 by omega), ↓reduceIte]
        omega

/--
A step whose links pair up completes: from any progress reachable by rendezvous, further
rendezvous finish the sends and receives of every stage.
-/
theorem LinkReachable.exists_finished
    (paired : PairedLinks exchange lowerEnd)
    (outside : ∀ a, stages ≤ a → exchange a = [])
    {done : Nat → Nat}
    (reachable : LinkReachable exchange done) :
    ∃ done', Relation.ReflTransGen (LinkRendezvous exchange) done done' ∧
      ExchangeFinished stages exchange done' := by
  rcases reachable.finished_or_rendezvous paired with finished | ⟨next, rendezvous⟩
  · exact ⟨done, .refl, finished⟩
  · have lower := remaining_lt_of_rendezvous outside rendezvous
    obtain ⟨last, run, finished⟩ := (reachable.step rendezvous).exists_finished paired outside
    exact ⟨last, .head rendezvous run, finished⟩
termination_by remaining stages exchange done

end Links

/-! ## The training schedule -/

/-- The blocking sends and receives of step `stepId` on each stage, in order; none outside the pipeline. -/
def trainExchange (microBatches stages stepId : Nat) (stageId : Nat) : List PipeInstruction :=
  if stageId < stages then (trainCmdsAt microBatches stages stageId stepId).filter PipeInstruction.isP2p else []

/-- Two instructions on each end, each pair complementary and issued under the same condition. -/
theorem forall₂_emitIf_append
    {first second : Bool}
    {lower lower' upper upper' : PipeInstruction}
    (firstMatched : Complementary lower upper)
    (secondMatched : Complementary lower' upper') :
    List.Forall₂ Complementary (emitIf first lower ++ emitIf second lower') (emitIf first upper ++ emitIf second upper') := by
  cases first <;> cases second <;> simp [emitIf, firstMatched, secondMatched]

section Train

variable {microBatches stages stepId : Nat}

/-- On a forward step a stage sends the previous gradient down, then receives activations from below. -/
theorem trainExchange_of_forward
    {stageId : Nat}
    (inPipeline : stageId < stages)
    (forward : (stepId + stageId) % 2 = 0) :
    trainExchange microBatches stages stepId stageId =
      let numBuffers := trainNumPipeBuffers microBatches stages stageId
      let prevMicroBatchId := trainPrevMicroBatchId stages stageId stepId
      let microBatchId := ((stepId : Int) - stageId) / 2
      emitIf (validMicroBatch microBatches prevMicroBatchId && validStage stages ((stageId : Int) - 1))
          (.sendGrad (bufferIdx numBuffers prevMicroBatchId)) ++
        emitIf (validMicroBatch microBatches microBatchId && validStage stages ((stageId : Int) - 1))
          (.recvActivation (bufferIdx numBuffers microBatchId)) := by
  rw [trainExchange, if_pos inPipeline, trainCmdsAt_of_forward forward]
  simp [List.filter_append, trainModelStepCmds_filter_eq_nil, isP2p, isLowerExchange, isUpperExchange,
    isSendActivation, isRecvActivation, isSendGrad, isRecvGrad]

/-- On a backward step a stage receives the gradient from above, then sends the previous activations up. -/
theorem trainExchange_of_backward
    {stageId : Nat}
    (inPipeline : stageId < stages)
    (backward : (stepId + stageId) % 2 = 1) :
    trainExchange microBatches stages stepId stageId =
      let numBuffers := trainNumPipeBuffers microBatches stages stageId
      let prevMicroBatchId := trainPrevMicroBatchId stages stageId stepId
      let microBatchId := ((stepId : Int) + stageId + 1 - 2 * stages) / 2
      emitIf (validMicroBatch microBatches microBatchId && validStage stages ((stageId : Int) + 1))
          (.recvGrad (bufferIdx numBuffers microBatchId)) ++
        emitIf (validMicroBatch microBatches prevMicroBatchId && validStage stages ((stageId : Int) + 1))
          (.sendActivation (bufferIdx numBuffers prevMicroBatchId)) := by
  rw [trainExchange, if_pos inPipeline, trainCmdsAt_of_backward backward]
  simp [List.filter_append, trainModelStepCmds_filter_eq_nil, isP2p, isLowerExchange, isUpperExchange,
    isSendActivation, isRecvActivation, isSendGrad, isRecvGrad]

/-- On a link in use, the gradient the upper stage sends is the one the lower stage receives, under the same test. -/
theorem sendGrad_condition_eq
    {b : Nat}
    (backward : (stepId + b) % 2 = 1)
    (inside : b + 1 < stages) :
    (validMicroBatch microBatches (trainPrevMicroBatchId stages (b + 1) stepId) &&
        validStage stages (((b + 1 : Nat) : Int) - 1)) =
      (validMicroBatch microBatches (((stepId : Int) + b + 1 - 2 * stages) / 2) &&
        validStage stages ((b : Int) + 1)) := by
  rw [trainPrevMicroBatchId_eq, Bool.eq_iff_iff]
  simp only [validMicroBatch, validStage, Bool.and_eq_true, decide_eq_true_eq]
  split_ifs <;> omega

/-- On a link in use, the activations the lower stage sends are the ones the upper stage receives, under the same test. -/
theorem sendActivation_condition_eq
    {b : Nat}
    (backward : (stepId + b) % 2 = 1)
    (inside : b + 1 < stages) :
    (validMicroBatch microBatches (trainPrevMicroBatchId stages b stepId) && validStage stages ((b : Int) + 1)) =
      (validMicroBatch microBatches (((stepId : Int) - (b + 1 : Nat)) / 2) &&
        validStage stages (((b + 1 : Nat) : Int) - 1)) := by
  rw [trainPrevMicroBatchId_eq, Bool.eq_iff_iff]
  simp only [validMicroBatch, validStage, Bool.and_eq_true, decide_eq_true_eq]
  split_ifs <;> omega

/--
Every step of the training schedule pairs up: the links in use are those whose lower stage is
on a backward step, a stage on a forward step only sends gradients down and receives activations,
and along a link in use the gradient and the activations meet in the same order.
-/
theorem trainExchange_paired :
    PairedLinks (trainExchange microBatches stages stepId) fun b => (stepId + b) % 2 = 1 where
  alternate b lower := by
    simp only [decide_eq_true_eq, decide_eq_false_iff_not] at lower ⊢
    omega
  upperRoles a unused instruction member := by
    simp only [decide_eq_false_iff_not] at unused
    by_cases inPipeline : a < stages
    · rw [trainExchange_of_forward inPipeline (by omega)] at member
      simp only [List.mem_append, mem_emitIf] at member
      rcases member with ⟨rfl, -⟩ | ⟨rfl, -⟩ <;> rfl
    · simp [trainExchange, inPipeline] at member
  idle a unused noneBelow := by
    simp only [decide_eq_false_iff_not] at unused noneBelow
    by_cases inPipeline : a < stages
    · have first : a = 0 := by
        by_contra later
        exact noneBelow (a - 1) (by omega) (by omega)
      subst first
      rw [trainExchange_of_forward inPipeline (by omega)]
      simp [validStage]
    · simp [trainExchange, inPipeline]
  mirrored b lower := by
    simp only [decide_eq_true_eq] at lower
    by_cases inside : b + 1 < stages
    · rw [trainExchange_of_backward (by omega) lower, trainExchange_of_forward inside (by omega)]
      simp only
      rw [sendGrad_condition_eq lower inside, sendActivation_condition_eq lower inside]
      exact forall₂_emitIf_append (.inr ⟨rfl, rfl⟩) (.inl ⟨rfl, rfl⟩)
    · have upperOutside : trainExchange microBatches stages stepId (b + 1) = [] := by
        simp [trainExchange, inside]
      by_cases inPipeline : b < stages
      · rw [upperOutside, trainExchange_of_backward inPipeline lower]
        simp [validStage, show ¬ (b : Int) + 1 < stages by omega]
      · rw [upperOutside]
        simp [trainExchange, inPipeline]

end Train

/--
No step of the training schedule stalls on its blocking sends and receives: run on all stages at
once, progress reachable by rendezvous is finished on every stage or enables another rendezvous.
-/
theorem trainExchange_finished_or_rendezvous
    {microBatches stages stepId : Nat}
    {done : Nat → Nat}
    (reachable : LinkReachable (trainExchange microBatches stages stepId) done) :
    ExchangeFinished stages (trainExchange microBatches stages stepId) done ∨
      ∃ done', LinkRendezvous (trainExchange microBatches stages stepId) done done' :=
  reachable.finished_or_rendezvous trainExchange_paired

/--
Every step of the training schedule completes: from any progress reachable by rendezvous,
further rendezvous finish the sends and receives of every stage.
-/
theorem trainExchange_completes
    {microBatches stages stepId : Nat}
    {done : Nat → Nat}
    (reachable : LinkReachable (trainExchange microBatches stages stepId) done) :
    ∃ done', Relation.ReflTransGen (LinkRendezvous (trainExchange microBatches stages stepId)) done done' ∧
      ExchangeFinished stages (trainExchange microBatches stages stepId) done' :=
  reachable.exists_finished trainExchange_paired fun _ beyond => by simp [trainExchange, Nat.not_lt.mpr beyond]

/-- With two micro-batches on three stages, stages `1` and `2` meet at step `4` in both directions. -/
example : trainExchange 2 3 4 1 = [.recvGrad 0, .sendActivation 1] ∧ trainExchange 2 3 4 2 = [.sendGrad 0, .recvActivation 1] := by
  decide

/-- The start of step `4` with two micro-batches on three stages. -/
theorem trainExchange_finished_or_rendezvous_start :
    LinkReachable (trainExchange 2 3 4) (fun _ => 0) ∧
      (ExchangeFinished 3 (trainExchange 2 3 4) (fun _ => 0) ∨
        ∃ done', LinkRendezvous (trainExchange 2 3 4) (fun _ => 0) done') :=
  ⟨.start, trainExchange_finished_or_rendezvous .start⟩

/-- Step `4` with two micro-batches on three stages completes. -/
theorem trainExchange_completes_start :
    LinkReachable (trainExchange 2 3 4) (fun _ => 0) ∧
      ∃ done', Relation.ReflTransGen (LinkRendezvous (trainExchange 2 3 4)) (fun _ => 0) done' ∧
        ExchangeFinished 3 (trainExchange 2 3 4) done' :=
  ⟨.start, trainExchange_completes .start⟩

end RealRlhf.Pipeline
