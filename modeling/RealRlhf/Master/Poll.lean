import RealRlhf.Master.Scheduler
import Mathlib.Algebra.BigOperators.Group.Finset
import Mathlib.Data.Fintype.Fin

namespace RealRlhf.Master

/-!
# What `_poll` counts and what it clears

`_poll` leaves its wait loop once `train_count` has yielded `len(rpc_dsts)` items. An item
is put by the reply coroutine of a terminal RPC after the call's replies arrived, whichever
terminal RPC made the call. The accounting below follows every completed terminal call,
counted by `rpc_traversal`, through the reply coroutine that holds it, the queue and
`_poll`'s counter, to the exits, counted by the clears: per exit the terminal RPCs complete
`len(rpc_dsts)` calls in total, not one each.

Two runs on small graphs show what this counting admits: a terminal RPC beside a slower
one completes twice before the first exit, and a source takes a batch of the next step
before the exit, so that its indices are cleared while other RPCs still have them pending.
-/

/-- A reply coroutine holds a completed call from its replies to its delivery. -/
def ReplyPc.heldCompletions : ReplyPc → Nat
  | .delivering _ => 1
  | _ => 0

variable {Key ModelName : Type} [DecidableEq Key] [DecidableEq ModelName]

/-- A quantity summed over the terminal RPCs. -/
def Dfg.dstTotal (dfg : Dfg Key ModelName) (f : dfg.RpcId → Nat) : Nat :=
  ∑ d, if dfg.isDst d then f d else 0

/-- The completed calls held by the reply coroutines `j < calls` of one RPC. -/
def heldCompletions (replyPc : Nat → ReplyPc) (calls : Nat) : Nat :=
  ∑ j in Finset.range calls, (replyPc j).heldCompletions

section Accounting

variable {dfg : Dfg Key ModelName}

/-- The completed terminal calls held by reply coroutines. -/
def Dfg.heldDstCompletions (dfg : Dfg Key ModelName) (replyPc : dfg.RpcId → Nat → ReplyPc) : Nat :=
  dfg.dstTotal fun d => heldCompletions (replyPc d) (dfg.rpc d).maxConcurrentCalls

/--
Every completed terminal call is held by its reply coroutine, waits in `train_count`, has
been counted by `_poll`, or belongs to an exit: `len(rpc_dsts)` per clear.
-/
def TrainAccounting (s : MasterState dfg) : Prop :=
  dfg.dstTotal s.rpcTraversal =
    dfg.nRpcDsts * s.clears.length + s.rpcDstCnt + s.trainCount + dfg.heldDstCompletions s.replyPc

omit [DecidableEq ModelName] in
/-- Changing the quantity of one RPC changes the total by the change, if that RPC is terminal. -/
theorem dstTotal_update
    (f : dfg.RpcId → Nat)
    (r : dfg.RpcId)
    (value : Nat) :
    dfg.dstTotal (Function.update f r value) + (if dfg.isDst r then f r else 0) =
      dfg.dstTotal f + (if dfg.isDst r then value else 0) := by
  have pointwise : (fun d => if dfg.isDst d then Function.update f r value d else 0) =
      Function.update (fun d => if dfg.isDst d then f d else 0) r (if dfg.isDst r then value else 0) := by
    funext d
    by_cases same : d = r
    · subst same
      simp
    · simp [same]
  have split := Finset.add_sum_erase Finset.univ (fun d => if dfg.isDst d then f d else 0) (Finset.mem_univ r)
  simp only [Dfg.dstTotal, pointwise, Finset.sum_update_of_mem (Finset.mem_univ r),
    Finset.sdiff_singleton_eq_erase] at split ⊢
  omega

omit [DecidableEq Key] [DecidableEq ModelName] in
/-- Moving reply coroutine `j < calls` changes the completions held by the move. -/
theorem heldCompletions_update
    (replyPc : Nat → ReplyPc)
    {calls j : Nat}
    (coroutine : j < calls)
    (pc : ReplyPc) :
    heldCompletions (Function.update replyPc j pc) calls + (replyPc j).heldCompletions =
      heldCompletions replyPc calls + pc.heldCompletions := by
  have member : j ∈ Finset.range calls := Finset.mem_range.mpr coroutine
  have pointwise : (fun k => (Function.update replyPc j pc k).heldCompletions) =
      Function.update (fun k => (replyPc k).heldCompletions) j pc.heldCompletions := by
    funext k
    by_cases same : k = j
    · subst same
      simp
    · simp [same]
  have split := Finset.add_sum_erase _ (fun k => (replyPc k).heldCompletions) member
  simp only [heldCompletions, pointwise, Finset.sum_update_of_mem member,
    Finset.sdiff_singleton_eq_erase] at split ⊢
  omega

omit [DecidableEq ModelName] in
/-- Moving reply coroutine `j` of `r` changes the terminal completions held by the move, if `r` is terminal. -/
theorem heldDstCompletions_update
    (replyPc : dfg.RpcId → Nat → ReplyPc)
    {r : dfg.RpcId}
    {j : Nat}
    (coroutine : j < (dfg.rpc r).maxConcurrentCalls)
    (pc : ReplyPc) :
    dfg.heldDstCompletions (Function.update replyPc r (Function.update (replyPc r) j pc)) +
        (if dfg.isDst r then (replyPc r j).heldCompletions else 0) =
      dfg.heldDstCompletions replyPc + (if dfg.isDst r then pc.heldCompletions else 0) := by
  have pointwise :
      (fun d => heldCompletions (Function.update replyPc r (Function.update (replyPc r) j pc) d)
        (dfg.rpc d).maxConcurrentCalls) =
      Function.update (fun d => heldCompletions (replyPc d) (dfg.rpc d).maxConcurrentCalls) r
        (heldCompletions (Function.update (replyPc r) j pc) (dfg.rpc r).maxConcurrentCalls) := by
    funext d
    by_cases same : d = r
    · subst same
      simp
    · simp [same]
  have total := dstTotal_update (fun d => heldCompletions (replyPc d) (dfg.rpc d).maxConcurrentCalls) r
    (heldCompletions (Function.update (replyPc r) j pc) (dfg.rpc r).maxConcurrentCalls)
  have moved := heldCompletions_update (replyPc r) coroutine pc
  simp only [Dfg.heldDstCompletions, pointwise] at total ⊢
  split_ifs at total ⊢ <;> omega

/-- Every step keeps the accounting of terminal completions. -/
theorem trainAccounting_step
    {s t : MasterState dfg}
    {action : MasterAction dfg}
    (accounted : TrainAccounting s)
    (stepped : Step dfg s action t) :
    TrainAccounting t := by
  unfold TrainAccounting at accounted ⊢
  cases stepped with
  | acquire | passGuard | getBatch | putRequest | loadData => exact accounted
  | @takeRequest r j batch _ coroutine atWait _ =>
      have held := heldDstCompletions_update s.replyPc coroutine (.awaitingReplies batch)
      simp only [atWait, ReplyPc.heldCompletions, ite_self] at held
      simp only [MasterState.takeRequest]
      omega
  | @receiveReplies r j batch _ coroutine atReplies =>
      have held := heldDstCompletions_update s.replyPc coroutine (.delivering batch)
      have traversal := dstTotal_update s.rpcTraversal r (s.rpcTraversal r + 1)
      simp only [atReplies, ReplyPc.heldCompletions] at held
      simp only [MasterState.receiveReplies]
      split_ifs at held traversal <;> omega
  | @deliver r j batch _ coroutine atDeliver _ =>
      have held := heldDstCompletions_update s.replyPc coroutine .waiting
      simp only [atDeliver, ReplyPc.heldCompletions] at held
      simp only [MasterState.deliver]
      split_ifs at held ⊢ <;> omega
  | pollTake _ item =>
      simp only [MasterState.pollTake]
      omega
  | pollExit done =>
      simp only [MasterState.pollExit, List.length_append, List.length_singleton]
      rw [Nat.mul_succ]
      omega

/-- The accounting holds in every reachable state. -/
theorem trainAccounting_of_reachable
    {s : MasterState dfg}
    (reach : Reachable dfg s) :
    TrainAccounting s := by
  induction reach with
  | init => simp [TrainAccounting, MasterState.init, Dfg.heldDstCompletions, heldCompletions,
      ReplyPc.heldCompletions, Dfg.dstTotal]
  | step _ stepped accounted => exact trainAccounting_step accounted stepped

/--
When the wait loop exits for the `n`-th time, `n = len(clears) + 1`, the terminal RPCs
have completed `n * len(rpc_dsts)` calls in total, plus those still in `train_count` or
held by a reply coroutine.
-/
theorem dstTraversal_at_pollExit
    {s : MasterState dfg}
    (reach : Reachable dfg s)
    (exits : s.rpcDstCnt = dfg.nRpcDsts) :
    dfg.dstTotal s.rpcTraversal =
      dfg.nRpcDsts * (s.clears.length + 1) + s.trainCount + dfg.heldDstCompletions s.replyPc := by
  have accounted := trainAccounting_of_reachable reach
  unfold TrainAccounting at accounted
  rw [Nat.mul_succ]
  omega

end Accounting

section SmallGraphs

/-- The keys of the small graphs below. -/
inductive SampleKey where
  | prompt
  | seq
  | logp
  deriving Repr, DecidableEq

/-- The models of the small graphs below. -/
inductive SampleModel where
  | actor
  | ref
  | critic
  deriving Repr, DecidableEq

/-- An RPC taking exactly `nSeqs` sequences per call, one call in flight, with no remap and no hooks. -/
def sampleRpc (modelName : SampleModel) (inputData outputData : List SampleKey) (nSeqs : Nat)
    (positive : 0 < nSeqs) : ModelRpc SampleKey SampleModel where
  modelName := modelName
  interfaceType := .inference
  inputData := inputData
  outputData := outputData
  outputKeyRemap := []
  dataProducers := []
  minNSeqs := nSeqs
  maxNSeqs := nSeqs
  balancedDp := false
  maxConcurrentCalls := 1
  preHooks := []
  postHooks := []
  minPositive := positive
  minLeMax := Nat.le_refl nSeqs
  callsPositive := Nat.one_pos

/-- One call of an RPC on one batch, from `acquire` to delivery, by reply coroutine `0`. -/
def callOnce {dfg : Dfg SampleKey SampleModel} (r : dfg.RpcId) (batch : List Nat) :
    List (MasterAction dfg) :=
  [.acquire r, .passGuard r, .getBatch r batch [(0, batch.length)], .putRequest r, .takeRequest r 0,
    .receiveReplies r 0, .deliver r 0]

/-- Generation feeds two terminal RPCs: a critic taking one sequence per call, a reference taking two. -/
def forkDfg : Dfg SampleKey SampleModel where
  rpcs := [sampleRpc .actor [.prompt] [.seq] 2 (by decide), sampleRpc .critic [.seq] [] 1 (by decide),
    sampleRpc .ref [.seq] [] 2 (by decide)]
  datasetKeys := [.prompt]
  dpSize _ := 1

/-- The generation, critic and reference RPCs of `forkDfg`. -/
def forkGen : forkDfg.RpcId := ⟨0, by decide⟩
/-- The critic RPC of `forkDfg`. -/
def forkCritic : forkDfg.RpcId := ⟨1, by decide⟩
/-- The reference RPC of `forkDfg`. -/
def forkRef : forkDfg.RpcId := ⟨2, by decide⟩

/--
Two records are loaded and generated; the critic completes both of its calls and `_poll`
takes both items, before the reference is ever handed a batch.
-/
def forkRun : MasterState forkDfg :=
  (run forkDfg (.init forkDfg)
    ([.loadData [0, 0]] ++ callOnce forkGen [0, 1] ++ callOnce forkCritic [0] ++ callOnce forkCritic [1] ++
      [.pollTake, .pollTake])).getD (.init forkDfg)

/-- Every action of the run above is enabled. -/
theorem forkRun_reachable : Reachable forkDfg forkRun :=
  reachable_run_getD .init (by decide)

/--
When the wait loop first exits, one terminal RPC has completed two calls and the other
none, in a graph where every RPC takes exactly its `max_n_seqs`.
-/
theorem pollExit_first_uneven_traversal :
    (∀ r : forkDfg.RpcId, (forkDfg.rpc r).minNSeqs = (forkDfg.rpc r).maxNSeqs) ∧
      Reachable forkDfg forkRun ∧ forkRun.clears = [] ∧ forkRun.rpcDstCnt = forkDfg.nRpcDsts ∧
      forkRun.rpcTraversal forkCritic = 2 ∧ forkRun.rpcTraversal forkRef = 0 :=
  ⟨by decide, forkRun_reachable, by decide, by decide, by decide, by decide⟩

/-- Generation, then a reference, then a training RPC, each on one sequence per call. -/
def chainDfg : Dfg SampleKey SampleModel where
  rpcs := [sampleRpc .actor [.prompt] [.seq] 1 (by decide), sampleRpc .ref [.seq] [.logp] 1 (by decide),
    sampleRpc .actor [.logp] [] 1 (by decide)]
  datasetKeys := [.prompt]
  dpSize _ := 1

/-- The generation RPC of `chainDfg`. -/
def chainGen : chainDfg.RpcId := ⟨0, by decide⟩
/-- The reference RPC of `chainDfg`. -/
def chainRef : chainDfg.RpcId := ⟨1, by decide⟩
/-- The training RPC of `chainDfg`. -/
def chainTrain : chainDfg.RpcId := ⟨2, by decide⟩

/--
Record `0` passes through the three RPCs; after the reference completes, the back-pressure
guard lets generation take record `1`, and the training call completes before `_poll`
takes its item and exits.
-/
def chainRun : MasterState chainDfg :=
  (run chainDfg (.init chainDfg)
    ([.loadData [0, 0]] ++ callOnce chainGen [0] ++ callOnce chainRef [0] ++
      [.acquire chainGen, .passGuard chainGen, .getBatch chainGen [1] [(0, 1)]] ++
      callOnce chainTrain [0] ++ [.pollTake, .pollExit])).getD (.init chainDfg)

/--
The first `clear_data_cache` carries index `1`, which the reference RPC still has pending
and has never been handed.
-/
theorem pollExit_clears_index_pending_for_ref :
    Reachable chainDfg chainRun ∧ chainRun.clears = [[0, 1]] ∧
      (∃ record ∈ chainRun.buffer, record.bufferIndex = 1 ∧ chainRef ∈ record.pendingRpcs) ∧
      ∀ request ∈ chainRun.requests, request.1 = chainRef → 1 ∉ request.2.1 :=
  ⟨reachable_run_getD .init (by decide), by decide, by decide, by decide⟩

end SmallGraphs

end RealRlhf.Master
