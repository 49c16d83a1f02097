import RealRlhf.Master.Buffer

namespace RealRlhf.Master

/-!
# The master's coroutines as one state machine

`MasterWorker` runs, in one asyncio event loop, a request coroutine
(`model_rpc_request_func`) and `max_concurrent_calls` reply coroutines
(`model_rpc_reply_func`) per RPC, and the data loader (`load_data_func`). `_poll` drives
the loop one tick at a time until the terminal-completion queue `train_count` has yielded
one item per terminal RPC, then posts `clear_data_cache(training_buffer_indices)` and
empties that set.

A state records where every coroutine is suspended, the shared control
(`RPCCorountineControl`: semaphores, traversal counters, mailboxes, `train_count`), the
buffer, the data-owner registry and `_poll`'s counter, with three logs that no coroutine
reads: the batches requested, the calls completed, and the index sets cleared. A step is
the move of one coroutine from one suspension point to the next, or one action of
`_poll`; any enabled step may come next. The coroutines move only while `_poll` is in its
wait loop, and none moves after a coroutine raised (`crashed`).

`Step` is the relation the proofs use, one constructor per move; `step` computes it and
replays concrete runs (`step_sound`).
-/

/-- Where `model_rpc_request_func` is suspended. -/
inductive RequestPc where
  /-- `await can_do_rpc.acquire()`. -/
  | acquiring
  /-- The back-pressure loop, sleeping while some child lags behind. -/
  | guarding
  /-- `await buffer.get_batch_for_rpc(rpc)`. -/
  | fetching
  /-- The batch's requests are posted: `await request_queues[idx].put(...)`. -/
  | posting (batch : List Nat)
  deriving Repr, DecidableEq

/-- Where one `model_rpc_reply_func` is suspended. -/
inductive ReplyPc where
  /-- `await request_queue.get()`. -/
  | waiting
  /-- Awaiting the workers' replies to the batch's requests. -/
  | awaitingReplies (batch : List Nat)
  /-- `await ctrl.train_count.put(1)` for a terminal RPC, `await buffer.amend_batch(...)` otherwise. -/
  | delivering (batch : List Nat)
  deriving Repr, DecidableEq

variable {Key ModelName : Type}

/-- The master's state: the coroutines, the shared control, the buffer, the registry, `_poll`, and the logs. -/
structure MasterState (dfg : Dfg Key ModelName) where
  requestPc : dfg.RpcId → RequestPc
  responseCoroutineIdx : dfg.RpcId → Nat
  /-- `this_rpc_consumed_seqs` of each request coroutine. -/
  consumedSeqs : dfg.RpcId → Nat
  /-- The value of `can_do_rpc[rpc.name]`. -/
  canDoRpc : dfg.RpcId → Nat
  rpcTraversal : dfg.RpcId → Nat
  /-- `request_queues[rpc.name][j]`, each of size one. -/
  requestQueues : dfg.RpcId → Nat → Option (List Nat)
  replyPc : dfg.RpcId → Nat → ReplyPc
  buffer : SequenceBuffer dfg
  nextIndex : Nat
  /-- `data_owner[(buffer_index, key)]`. -/
  dataOwner : Nat → Key → Option (ModelName × Nat)
  /-- The number of items in `train_count`, a queue of size `len(rpc_dsts)`. -/
  trainCount : Nat
  /-- `_poll`'s `_rpc_dst_cnt`. -/
  rpcDstCnt : Nat
  trainingBufferIndices : List Nat
  /-- Every batch handed to a request coroutine, with its partitions, in order. -/
  requests : List (dfg.RpcId × List Nat × List (Nat × Nat))
  /-- Every call whose replies arrived, in order. -/
  completions : List (dfg.RpcId × List Nat)
  /-- Every index set `clear_data_cache` was posted with, in order. -/
  clears : List (List Nat)
  /-- Every load: the first new index and the data worker of each record. -/
  loads : List (Nat × List Nat)
  crashed : Bool

/-- The moves of the coroutines and of `_poll`, with the choices the buffer and the workers make. -/
inductive MasterAction (dfg : Dfg Key ModelName) where
  | acquire (r : dfg.RpcId)
  | passGuard (r : dfg.RpcId)
  | getBatch (r : dfg.RpcId) (batch : List Nat) (partitions : List (Nat × Nat))
  | putRequest (r : dfg.RpcId)
  | takeRequest (r : dfg.RpcId) (j : Nat)
  | receiveReplies (r : dfg.RpcId) (j : Nat)
  | deliver (r : dfg.RpcId) (j : Nat)
  | loadData (dataRanks : List Nat)
  | pollTake
  | pollExit

/-- `(start, end)` ranges that cover `[start, stop)` one after another. -/
def RangesCover : Nat → List (Nat × Nat) → Nat → Prop
  | start, [], stop => start = stop
  | start, range :: rest, stop => range.1 = start ∧ range.1 ≤ range.2 ∧ RangesCover range.2 rest stop

instance : (start : Nat) → (ranges : List (Nat × Nat)) → (stop : Nat) → Decidable (RangesCover start ranges stop)
  | _, [], _ => inferInstanceAs (Decidable (_ = _))
  | _, _ :: rest, _ =>
      have := fun start => instDecidableRangesCover start rest
      inferInstanceAs (Decidable (_ ∧ _ ∧ _))

/--
Modelled from the spec: the partitions `min_abs_diff_partition(seqlens, dp_size, min_size)`
returns for a batch: `dp_size` ranges covering the batch positions in order.
-/
def PartitionsContract (dpSize length : Nat) (partitions : List (Nat × Nat)) : Prop :=
  partitions.length = dpSize ∧ RangesCover 0 partitions length

instance (dpSize length : Nat) (partitions : List (Nat × Nat)) :
    Decidable (PartitionsContract dpSize length partitions) :=
  inferInstanceAs (Decidable (_ ∧ _))

variable [DecidableEq Key] [DecidableEq ModelName]

/-- `data_owner[(index, key)] = owner`. -/
def setOwner (dataOwner : Nat → Key → Option (ModelName × Nat)) (index : Nat) (key : Key) (owner : ModelName × Nat) :
    Nat → Key → Option (ModelName × Nat) :=
  fun index' key' => if index' = index ∧ key' = key then some owner else dataOwner index' key'

/-- The loop that records this RPC as the owner of its outputs, at the partition index of each position. -/
def recordOutputOwners (dataOwner : Nat → Key → Option (ModelName × Nat)) (rpc : ModelRpc Key ModelName)
    (batch : List Nat) (partitions : List (Nat × Nat)) : Nat → Key → Option (ModelName × Nat) :=
  (partitions.enum).foldl (fun dataOwner (dpIdx, start, stop) =>
    (List.range' start (stop - start)).foldl (fun dataOwner position =>
      rpc.outputData.foldl (fun dataOwner key =>
        setOwner dataOwner (batch.getD position 0) (rpc.remapOutputKey key) (rpc.modelName, dpIdx))
        dataOwner) dataOwner) dataOwner

/-- `producer_mapping[dp_idx].append(i)` on a `defaultdict(list)`, kept as its items in insertion order. -/
def appendPosition (mapping : List (Nat × List Nat)) (entry : Nat × Nat) : List (Nat × List Nat) :=
  if mapping.any (·.1 == entry.2) then
    mapping.map fun item => if item.1 = entry.2 then (item.1, item.2 ++ [entry.1]) else item
  else
    mapping ++ [(entry.2, [entry.1])]

/-- `producer_mapping`: filled over `enumerate(dp_indices)`, each list then sorted. -/
def producerMapping (dpIndices : List Nat) : List (Nat × List Nat) :=
  (dpIndices.enum.foldl appendPosition []).map fun item => (item.1, item.2.mergeSort fun a b => decide (a ≤ b))

/--
`producer_mappings` for the input keys: for each key, the owners of the batch's records;
`none` when an owner is missing (`KeyError`) or two owners differ (`len(set(names)) == 1`
fails). A key's entry is its producer name and its `producer_mapping`.
-/
def assembleProducerMappings (dataOwner : Nat → Key → Option (ModelName × Nat)) (rpc : ModelRpc Key ModelName)
    (batch : List Nat) : Option (List (Key × ModelName × List (Nat × List Nat))) :=
  rpc.inputData.mapM fun key => do
    let owners ← batch.mapM fun index => dataOwner index key
    match owners with
    | [] => none
    | (name, _) :: _ =>
        if owners.all (·.1 == name) then some (key, name, producerMapping (owners.map (·.2))) else none

namespace MasterState

variable {dfg : Dfg Key ModelName}

/-- The state at the start: every coroutine at the top of its loop, everything empty. -/
def init (dfg : Dfg Key ModelName) : MasterState dfg where
  requestPc _ := .acquiring
  responseCoroutineIdx _ := 0
  consumedSeqs _ := 0
  canDoRpc r := (dfg.rpc r).maxConcurrentCalls
  rpcTraversal _ := 0
  requestQueues _ _ := none
  replyPc _ _ := .waiting
  buffer := []
  nextIndex := 0
  dataOwner _ _ := none
  trainCount := 0
  rpcDstCnt := 0
  trainingBufferIndices := []
  requests := []
  completions := []
  clears := []
  loads := []
  crashed := false

/-- The coroutines run: `_poll` is in its wait loop and no coroutine has raised. -/
def Running (s : MasterState dfg) : Prop :=
  s.rpcDstCnt < dfg.nRpcDsts ∧ s.crashed = false

instance (s : MasterState dfg) : Decidable s.Running :=
  inferInstanceAs (Decidable (_ ∧ _))

/-- The back-pressure condition: every child has completed enough calls for what `r` consumed. -/
def GuardOpen (s : MasterState dfg) (r : dfg.RpcId) : Prop :=
  ∀ c ∈ dfg.children r, s.consumedSeqs r < (s.rpcTraversal c + 1) * (dfg.rpc c).maxNSeqs

instance (s : MasterState dfg) (r : dfg.RpcId) : Decidable (s.GuardOpen r) :=
  inferInstanceAs (Decidable (∀ _ ∈ _, _))

/-- `can_do_rpc.acquire()` returns. -/
def acquireRpc (s : MasterState dfg) (r : dfg.RpcId) : MasterState dfg :=
  { s with
    requestPc := Function.update s.requestPc r .guarding
    canDoRpc := Function.update s.canDoRpc r (s.canDoRpc r - 1) }

/-- The back-pressure loop exits. -/
def passGuard (s : MasterState dfg) (r : dfg.RpcId) : MasterState dfg :=
  { s with requestPc := Function.update s.requestPc r .fetching }

/--
`get_batch_for_rpc` returns `batch` and the request coroutine runs on to its next
suspension: a source records the indices for the step, `this_rpc_consumed_seqs` grows,
the RPC becomes the owner of its outputs, and the producer mappings are assembled.
-/
def takeBatch (s : MasterState dfg) (r : dfg.RpcId) (batch : List Nat) (partitions : List (Nat × Nat)) :
    MasterState dfg :=
  let dataOwner := recordOutputOwners s.dataOwner (dfg.rpc r) batch partitions
  { s with
    requestPc := Function.update s.requestPc r (.posting batch)
    buffer := handBatch s.buffer r batch
    trainingBufferIndices := if dfg.isSrc r then s.trainingBufferIndices ∪ batch else s.trainingBufferIndices
    consumedSeqs := Function.update s.consumedSeqs r (s.consumedSeqs r + batch.length)
    dataOwner := dataOwner
    requests := s.requests ++ [(r, batch, partitions)]
    crashed := (assembleProducerMappings dataOwner (dfg.rpc r) batch).isNone }

/-- `request_queues[idx].put(...)` returns; `idx` moves on round robin. -/
def putRequest (s : MasterState dfg) (r : dfg.RpcId) (batch : List Nat) : MasterState dfg :=
  { s with
    requestPc := Function.update s.requestPc r .acquiring
    requestQueues := Function.update s.requestQueues r
      (Function.update (s.requestQueues r) (s.responseCoroutineIdx r) (some batch))
    responseCoroutineIdx := Function.update s.responseCoroutineIdx r
      ((s.responseCoroutineIdx r + 1) % (dfg.rpc r).maxConcurrentCalls) }

/-- Reply coroutine `j` takes the batch from its mailbox. -/
def takeRequest (s : MasterState dfg) (r : dfg.RpcId) (j : Nat) (batch : List Nat) : MasterState dfg :=
  { s with
    requestQueues := Function.update s.requestQueues r (Function.update (s.requestQueues r) j none)
    replyPc := Function.update s.replyPc r (Function.update (s.replyPc r) j (.awaitingReplies batch)) }

/-- The replies arrive: `can_do_rpc.release()` and `rpc_traversal[rpc.name] += 1`. -/
def receiveReplies (s : MasterState dfg) (r : dfg.RpcId) (j : Nat) (batch : List Nat) : MasterState dfg :=
  { s with
    canDoRpc := Function.update s.canDoRpc r (s.canDoRpc r + 1)
    rpcTraversal := Function.update s.rpcTraversal r (s.rpcTraversal r + 1)
    replyPc := Function.update s.replyPc r (Function.update (s.replyPc r) j (.delivering batch))
    completions := s.completions ++ [(r, batch)] }

/-- `train_count.put(1)` for a terminal RPC, `buffer.amend_batch` with the produced keys otherwise. -/
def deliver (s : MasterState dfg) (r : dfg.RpcId) (j : Nat) (batch : List Nat) : MasterState dfg :=
  { s with
    trainCount := if dfg.isDst r then s.trainCount + 1 else s.trainCount
    buffer := if dfg.isDst r then s.buffer else amendBatch s.buffer batch (dfg.rpc r).producedKeys
    replyPc := Function.update s.replyPc r (Function.update (s.replyPc r) j .waiting) }

/-- `load_data_func` puts one record per entry, owned by the data worker of that entry. -/
def loadData (s : MasterState dfg) (srcModelName : ModelName) (dataRanks : List Nat) : MasterState dfg :=
  { s with
    buffer := putBatch s.buffer s.nextIndex dataRanks.length dfg.datasetKeys
    nextIndex := s.nextIndex + dataRanks.length
    dataOwner := (dataRanks.enum).foldl (fun dataOwner (offset, dpIdx) =>
      dfg.datasetKeys.foldl (fun dataOwner key =>
        setOwner dataOwner (s.nextIndex + offset) key (srcModelName, dpIdx)) dataOwner) s.dataOwner
    loads := s.loads ++ [(s.nextIndex, dataRanks)] }

/-- `train_count.get_nowait()` succeeds. -/
def pollTake (s : MasterState dfg) : MasterState dfg :=
  { s with trainCount := s.trainCount - 1, rpcDstCnt := s.rpcDstCnt + 1 }

/-- The wait loop exits: `clear_data_cache(training_buffer_indices)` is posted and the set emptied. -/
def pollExit (s : MasterState dfg) : MasterState dfg :=
  { s with rpcDstCnt := 0, trainingBufferIndices := [], clears := s.clears ++ [s.trainingBufferIndices] }

end MasterState

open MasterState

/-- One move of a coroutine or of `_poll`. -/
inductive Step (dfg : Dfg Key ModelName) : MasterState dfg → MasterAction dfg → MasterState dfg → Prop
  | acquire {s : MasterState dfg} {r : dfg.RpcId}
      (running : s.Running)
      (atAcquire : s.requestPc r = .acquiring)
      (permit : 0 < s.canDoRpc r) :
      Step dfg s (.acquire r) (s.acquireRpc r)
  | passGuard {s : MasterState dfg} {r : dfg.RpcId}
      (running : s.Running)
      (atGuard : s.requestPc r = .guarding)
      (guardOpen : s.GuardOpen r) :
      Step dfg s (.passGuard r) (s.passGuard r)
  | getBatch {s : MasterState dfg} {r : dfg.RpcId} {batch : List Nat} {partitions : List (Nat × Nat)}
      (running : s.Running)
      (atFetch : s.requestPc r = .fetching)
      (valid : ValidBatch s.buffer r batch)
      (partitioned : PartitionsContract (dfg.dpSize (dfg.rpc r).modelName) batch.length partitions) :
      Step dfg s (.getBatch r batch partitions) (s.takeBatch r batch partitions)
  | putRequest {s : MasterState dfg} {r : dfg.RpcId} {batch : List Nat}
      (running : s.Running)
      (atPost : s.requestPc r = .posting batch)
      (mailboxFree : s.requestQueues r (s.responseCoroutineIdx r) = none) :
      Step dfg s (.putRequest r) (s.putRequest r batch)
  | takeRequest {s : MasterState dfg} {r : dfg.RpcId} {j : Nat} {batch : List Nat}
      (running : s.Running)
      (coroutine : j < (dfg.rpc r).maxConcurrentCalls)
      (atWait : s.replyPc r j = .waiting)
      (mailboxFull : s.requestQueues r j = some batch) :
      Step dfg s (.takeRequest r j) (s.takeRequest r j batch)
  | receiveReplies {s : MasterState dfg} {r : dfg.RpcId} {j : Nat} {batch : List Nat}
      (running : s.Running)
      (coroutine : j < (dfg.rpc r).maxConcurrentCalls)
      (atReplies : s.replyPc r j = .awaitingReplies batch) :
      Step dfg s (.receiveReplies r j) (s.receiveReplies r j batch)
  | deliver {s : MasterState dfg} {r : dfg.RpcId} {j : Nat} {batch : List Nat}
      (running : s.Running)
      (coroutine : j < (dfg.rpc r).maxConcurrentCalls)
      (atDeliver : s.replyPc r j = .delivering batch)
      (queueRoom : dfg.isDst r = true → s.trainCount < dfg.nRpcDsts) :
      Step dfg s (.deliver r j) (s.deliver r j batch)
  | loadData {s : MasterState dfg} {srcModelName : ModelName} {dataRanks : List Nat}
      (running : s.Running)
      (source : dfg.srcRpcModelName? = some srcModelName)
      (dataWorkers : ∀ dpIdx ∈ dataRanks, dpIdx < dfg.dpSize srcModelName) :
      Step dfg s (.loadData dataRanks) (s.loadData srcModelName dataRanks)
  | pollTake {s : MasterState dfg}
      (waiting : s.rpcDstCnt < dfg.nRpcDsts)
      (item : 0 < s.trainCount) :
      Step dfg s .pollTake s.pollTake
  | pollExit {s : MasterState dfg}
      (done : s.rpcDstCnt = dfg.nRpcDsts) :
      Step dfg s .pollExit s.pollExit

/-- The states reachable from the start. -/
inductive Reachable (dfg : Dfg Key ModelName) : MasterState dfg → Prop
  | init : Reachable dfg (MasterState.init dfg)
  | step {s t : MasterState dfg} {action : MasterAction dfg} :
      Reachable dfg s → Step dfg s action t → Reachable dfg t

/-- `Step`, computed: `none` when the move is not enabled. -/
def step (dfg : Dfg Key ModelName) (s : MasterState dfg) : MasterAction dfg → Option (MasterState dfg)
  | .acquire r =>
      if s.Running ∧ s.requestPc r = .acquiring ∧ 0 < s.canDoRpc r then some (s.acquireRpc r) else none
  | .passGuard r =>
      if s.Running ∧ s.requestPc r = .guarding ∧ s.GuardOpen r then some (s.passGuard r) else none
  | .getBatch r batch partitions =>
      if s.Running ∧ s.requestPc r = .fetching ∧ ValidBatch s.buffer r batch ∧
          PartitionsContract (dfg.dpSize (dfg.rpc r).modelName) batch.length partitions then
        some (s.takeBatch r batch partitions)
      else none
  | .putRequest r =>
      match s.requestPc r with
      | .posting batch =>
          if s.Running ∧ s.requestQueues r (s.responseCoroutineIdx r) = none then
            some (s.putRequest r batch)
          else none
      | _ => none
  | .takeRequest r j =>
      match s.requestQueues r j with
      | some batch =>
          if s.Running ∧ j < (dfg.rpc r).maxConcurrentCalls ∧ s.replyPc r j = .waiting then
            some (s.takeRequest r j batch)
          else none
      | none => none
  | .receiveReplies r j =>
      match s.replyPc r j with
      | .awaitingReplies batch =>
          if s.Running ∧ j < (dfg.rpc r).maxConcurrentCalls then some (s.receiveReplies r j batch) else none
      | _ => none
  | .deliver r j =>
      match s.replyPc r j with
      | .delivering batch =>
          if s.Running ∧ j < (dfg.rpc r).maxConcurrentCalls ∧ (dfg.isDst r = true → s.trainCount < dfg.nRpcDsts) then
            some (s.deliver r j batch)
          else none
      | _ => none
  | .loadData dataRanks =>
      match dfg.srcRpcModelName? with
      | some srcModelName =>
          if s.Running ∧ ∀ dpIdx ∈ dataRanks, dpIdx < dfg.dpSize srcModelName then
            some (s.loadData srcModelName dataRanks)
          else none
      | none => none
  | .pollTake => if s.rpcDstCnt < dfg.nRpcDsts ∧ 0 < s.trainCount then some s.pollTake else none
  | .pollExit => if s.rpcDstCnt = dfg.nRpcDsts then some s.pollExit else none

/-- `step` computes `Step`. -/
theorem step_sound
    {dfg : Dfg Key ModelName}
    {s t : MasterState dfg}
    {action : MasterAction dfg}
    (computed : step dfg s action = some t) :
    Step dfg s action t := by
  cases action with
  | acquire r =>
      simp only [step] at computed
      split_ifs at computed with enabled
      cases computed
      exact .acquire enabled.1 enabled.2.1 enabled.2.2
  | passGuard r =>
      simp only [step] at computed
      split_ifs at computed with enabled
      cases computed
      exact .passGuard enabled.1 enabled.2.1 enabled.2.2
  | getBatch r batch partitions =>
      simp only [step] at computed
      split_ifs at computed with enabled
      cases computed
      exact .getBatch enabled.1 enabled.2.1 enabled.2.2.1 enabled.2.2.2
  | putRequest r =>
      simp only [step] at computed
      split at computed
      · rename_i batch atPost
        split_ifs at computed with enabled
        cases computed
        exact .putRequest enabled.1 atPost enabled.2
      · cases computed
  | takeRequest r j =>
      simp only [step] at computed
      split at computed
      · rename_i batch mailboxFull
        split_ifs at computed with enabled
        cases computed
        exact .takeRequest enabled.1 enabled.2.1 enabled.2.2 mailboxFull
      · cases computed
  | receiveReplies r j =>
      simp only [step] at computed
      split at computed
      · rename_i batch atReplies
        split_ifs at computed with enabled
        cases computed
        exact .receiveReplies enabled.1 enabled.2 atReplies
      · cases computed
  | deliver r j =>
      simp only [step] at computed
      split at computed
      · rename_i batch atDeliver
        split_ifs at computed with enabled
        cases computed
        exact .deliver enabled.1 enabled.2.1 atDeliver enabled.2.2
      · cases computed
  | loadData dataRanks =>
      simp only [step] at computed
      split at computed
      · rename_i srcModelName source
        split_ifs at computed with enabled
        cases computed
        exact .loadData enabled.1 source enabled.2
      · cases computed
  | pollTake =>
      simp only [step] at computed
      split_ifs at computed with enabled
      cases computed
      exact .pollTake enabled.1 enabled.2
  | pollExit =>
      simp only [step] at computed
      split_ifs at computed with enabled
      cases computed
      exact .pollExit enabled

/-- A run of actions from a state, computed: `none` when some action is not enabled. -/
def run (dfg : Dfg Key ModelName) : MasterState dfg → List (MasterAction dfg) → Option (MasterState dfg)
  | s, [] => some s
  | s, action :: rest => (step dfg s action).bind fun t => run dfg t rest

/-- What a computed run reaches from a reachable state is reachable. -/
theorem reachable_of_run
    {dfg : Dfg Key ModelName}
    {s t : MasterState dfg}
    {actions : List (MasterAction dfg)}
    (start : Reachable dfg s)
    (computed : run dfg s actions = some t) :
    Reachable dfg t := by
  induction actions generalizing s with
  | nil =>
      cases computed
      exact start
  | cons action rest inductionHypothesis =>
      simp only [run, Option.bind_eq_some] at computed
      obtain ⟨middle, stepped, rest⟩ := computed
      exact inductionHypothesis (start.step (step_sound stepped)) rest

/-- A run in which every action is enabled ends in a reachable state. -/
theorem reachable_run_getD
    {dfg : Dfg Key ModelName}
    {s : MasterState dfg}
    {actions : List (MasterAction dfg)}
    (start : Reachable dfg s)
    (enabled : (run dfg s actions).isSome = true) :
    Reachable dfg ((run dfg s actions).getD s) := by
  obtain ⟨t, computed⟩ := Option.isSome_iff_exists.mp enabled
  rw [computed]
  exact reachable_of_run start computed

end RealRlhf.Master
