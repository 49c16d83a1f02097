import RealRlhf.Master.Scheduler

namespace RealRlhf.Master

/-!
# The life of a call

A batch handed to a request coroutine is logged with its partition (`requests`); it then
waits at the coroutine's `posting` point, in a mailbox, with a reply coroutine awaiting its
replies, in the `completions` log, and with the reply coroutine that delivers it. Every
batch found at one of these places was requested (`CallsRequested`), and every request
keeps what `get_batch_for_rpc` and `min_abs_diff_partition` promised about it
(`RequestsValid`). The logs agree with the counters `this_rpc_consumed_seqs` and
`rpc_traversal` (`CallCounts`).
-/

variable {Key ModelName : Type} [DecidableEq Key] [DecidableEq ModelName] {dfg : Dfg Key ModelName}

namespace MasterState

/-- The indices handed to `r` so far, batch after batch. -/
def takenBy (s : MasterState dfg) (r : dfg.RpcId) : List Nat :=
  (s.requests.filter (·.1 = r)).flatMap (·.2.1)

/-- The calls of `r` that completed, in order. -/
def completedCalls (s : MasterState dfg) (r : dfg.RpcId) : List (List Nat) :=
  (s.completions.filter (·.1 = r)).map (·.2)

/-- The indices of the completed calls of `r`, batch after batch. -/
def completedBy (s : MasterState dfg) (r : dfg.RpcId) : List Nat :=
  (s.completedCalls r).flatten

/-- `batch` was handed to `r`, with some partition. -/
def Requested (s : MasterState dfg) (r : dfg.RpcId) (batch : List Nat) : Prop :=
  ∃ partitions, (r, batch, partitions) ∈ s.requests

end MasterState

open MasterState

/-- A size `get_batch_for_rpc` may return for `r`. -/
def Dfg.BatchSized (dfg : Dfg Key ModelName) (r : dfg.RpcId) (batch : List Nat) : Prop :=
  (dfg.rpc r).minNSeqs ≤ batch.length ∧ batch.length ≤ (dfg.rpc r).maxNSeqs

variable {s t : MasterState dfg} {action : MasterAction dfg} {r : dfg.RpcId}

section Requests

/-- Every request holds distinct indices, as many as `r` may take, and a partition covering its positions. -/
def RequestsValid (s : MasterState dfg) : Prop :=
  ∀ request ∈ s.requests, request.2.1.Nodup ∧ dfg.BatchSized request.1 request.2.1 ∧
    PartitionsContract (dfg.dpSize (dfg.rpc request.1).modelName) request.2.1.length request.2.2

/-- Steps only add requests. -/
theorem requests_grow
    (stepped : Step dfg s action t) :
    ∀ request ∈ s.requests, request ∈ t.requests := by
  intro request member
  cases stepped
  case getBatch => exact List.mem_append_left _ member
  all_goals exact member

/-- Every step keeps the requests valid. -/
theorem requestsValid_step
    (valid : RequestsValid s)
    (stepped : Step dfg s action t) :
    RequestsValid t := by
  cases stepped with
  | @getBatch r batch partitions _ _ validBatch partitioned =>
      intro request member
      simp only [takeBatch, List.mem_append, List.mem_singleton] at member
      rcases member with earlier | rfl
      · exact valid request earlier
      · exact ⟨validBatch.1, ⟨validBatch.2.2.1, validBatch.2.2.2.1⟩, partitioned⟩
  | acquire | passGuard | putRequest | takeRequest | receiveReplies | deliver | loadData | pollTake | pollExit =>
      exact valid

/-- Every reachable state has valid requests. -/
theorem requestsValid_of_reachable
    (reach : Reachable dfg s) :
    RequestsValid s := by
  induction reach with
  | init => simp [RequestsValid, MasterState.init]
  | step _ stepped valid => exact requestsValid_step valid stepped

end Requests

section InFlight

/-- Every batch of `r` between the buffer and its delivery was requested; a delivered one has completed. -/
structure CallsRequested (s : MasterState dfg) (r : dfg.RpcId) : Prop where
  posting : ∀ batch, s.requestPc r = .posting batch → s.Requested r batch
  mailbox : ∀ j batch, s.requestQueues r j = some batch → s.Requested r batch
  awaiting : ∀ j batch, s.replyPc r j = .awaitingReplies batch → s.Requested r batch
  delivering : ∀ j batch, s.replyPc r j = .delivering batch → (r, batch) ∈ s.completions
  completed : ∀ batch, (r, batch) ∈ s.completions → s.Requested r batch

omit [DecidableEq Key] [DecidableEq ModelName] in
theorem MasterState.Requested.mono
    {batch : List Nat}
    (requested : s.Requested r batch)
    (grown : ∀ request ∈ s.requests, request ∈ t.requests) :
    t.Requested r batch :=
  let ⟨partitions, member⟩ := requested
  ⟨partitions, grown _ member⟩

omit [DecidableEq Key] [DecidableEq ModelName] in
/-- A move that leaves the coroutines of `r` and the completions alone keeps its calls requested. -/
theorem CallsRequested.frame
    (calls : CallsRequested s r)
    (samePc : t.requestPc r = s.requestPc r)
    (sameQueues : t.requestQueues r = s.requestQueues r)
    (sameReplies : t.replyPc r = s.replyPc r)
    (grown : ∀ request ∈ s.requests, request ∈ t.requests)
    (sameCompletions : t.completions = s.completions) :
    CallsRequested t r where
  posting batch posting := (calls.posting batch (samePc ▸ posting)).mono grown
  mailbox j batch queued := (calls.mailbox j batch (sameQueues ▸ queued)).mono grown
  awaiting j batch awaiting := (calls.awaiting j batch (sameReplies ▸ awaiting)).mono grown
  delivering j batch delivering := sameCompletions ▸ calls.delivering j batch (sameReplies ▸ delivering)
  completed batch completed := (calls.completed batch (sameCompletions ▸ completed)).mono grown

/-- Every step keeps the calls of `r` requested. -/
theorem callsRequested_step
    (calls : CallsRequested s r)
    (stepped : Step dfg s action t) :
    CallsRequested t r := by
  have grown := requests_grow stepped
  cases stepped with
  | @acquire r' _ _ _ =>
      by_cases same : r = r'
      · subst same
        exact { calls with posting := fun batch posting => by simp [acquireRpc] at posting }
      · exact calls.frame (by simp [acquireRpc, same]) rfl rfl grown rfl
  | @passGuard r' _ _ _ =>
      by_cases same : r = r'
      · subst same
        exact { calls with posting := fun batch posting => by simp [MasterState.passGuard] at posting }
      · exact calls.frame (by simp [MasterState.passGuard, same]) rfl rfl grown rfl
  | @getBatch r' batch partitions _ _ _ _ =>
      by_cases same : r = r'
      · subst same
        refine ⟨fun batch' posting => ?_, fun j batch' queued => (calls.mailbox j batch' queued).mono grown,
          fun j batch' awaiting => (calls.awaiting j batch' awaiting).mono grown, calls.delivering,
          fun batch' completed => (calls.completed batch' completed).mono grown⟩
        simp only [takeBatch, Function.update_same, RequestPc.posting.injEq] at posting
        exact ⟨partitions, by simp [takeBatch, posting]⟩
      · exact calls.frame (by simp [takeBatch, same]) rfl rfl grown rfl
  | @putRequest r' batch _ atPost _ =>
      by_cases same : r = r'
      · subst same
        refine ⟨fun batch' posting => by simp [MasterState.putRequest] at posting, fun j batch' queued => ?_,
          calls.awaiting, calls.delivering, calls.completed⟩
        simp only [MasterState.putRequest, Function.update_same, Function.update_apply] at queued
        split_ifs at queued
        · cases queued
          exact calls.posting batch atPost
        · exact calls.mailbox j batch' queued
      · exact calls.frame (by simp [MasterState.putRequest, same]) (by simp [MasterState.putRequest, same]) rfl
          grown rfl
  | @takeRequest r' j batch _ _ _ mailboxFull =>
      by_cases same : r = r'
      · subst same
        refine ⟨calls.posting, fun k batch' queued => ?_, fun k batch' awaiting => ?_,
          fun k batch' delivering => ?_, calls.completed⟩
        · simp only [MasterState.takeRequest, Function.update_same, Function.update_apply] at queued
          split_ifs at queued
          exact calls.mailbox k batch' queued
        · simp only [MasterState.takeRequest, Function.update_same, Function.update_apply] at awaiting
          split_ifs at awaiting
          · cases awaiting
            exact calls.mailbox j batch mailboxFull
          · exact calls.awaiting k batch' awaiting
        · simp only [MasterState.takeRequest, Function.update_same, Function.update_apply] at delivering
          split_ifs at delivering
          exact calls.delivering k batch' delivering
      · exact calls.frame rfl (by simp [MasterState.takeRequest, same]) (by simp [MasterState.takeRequest, same])
          grown rfl
  | @receiveReplies r' j batch _ _ atReplies =>
      have completions : ∀ batch', (r, batch') ∈ (s.receiveReplies r' j batch).completions ↔
          (r, batch') ∈ s.completions ∨ (r = r' ∧ batch' = batch) := by
        simp [MasterState.receiveReplies, eq_comm]
      by_cases same : r = r'
      · subst same
        refine ⟨calls.posting, calls.mailbox, fun k batch' awaiting => ?_, fun k batch' delivering => ?_,
          fun batch' completed => ?_⟩
        · simp only [MasterState.receiveReplies, Function.update_same, Function.update_apply] at awaiting
          split_ifs at awaiting
          exact calls.awaiting k batch' awaiting
        · simp only [MasterState.receiveReplies, Function.update_same, Function.update_apply] at delivering
          rw [completions]
          split_ifs at delivering
          · cases delivering
            exact .inr ⟨rfl, rfl⟩
          · exact .inl (calls.delivering k batch' delivering)
        · rcases (completions batch').mp completed with earlier | ⟨-, rfl⟩
          · exact calls.completed batch' earlier
          · exact calls.awaiting j batch' atReplies
      · refine ⟨calls.posting, calls.mailbox, ?_, fun k batch' delivering => ?_, fun batch' completed => ?_⟩
        · simpa [MasterState.receiveReplies, same] using calls.awaiting
        · exact (completions batch').mpr (.inl (calls.delivering k batch' (by
            simpa [MasterState.receiveReplies, same] using delivering)))
        · rcases (completions batch').mp completed with earlier | ⟨wrong, -⟩
          · exact calls.completed batch' earlier
          · exact absurd wrong same
  | @deliver r' j batch _ _ _ _ =>
      by_cases same : r = r'
      · subst same
        refine ⟨calls.posting, calls.mailbox, fun k batch' awaiting => ?_, fun k batch' delivering => ?_,
          calls.completed⟩
        · simp only [MasterState.deliver, Function.update_same, Function.update_apply] at awaiting
          split_ifs at awaiting
          exact calls.awaiting k batch' awaiting
        · simp only [MasterState.deliver, Function.update_same, Function.update_apply] at delivering
          split_ifs at delivering
          exact calls.delivering k batch' delivering
      · exact calls.frame rfl rfl (by simp [MasterState.deliver, same]) grown rfl
  | loadData | pollTake | pollExit => exact calls.frame rfl rfl rfl grown rfl

/-- In every reachable state the calls of every RPC were requested. -/
theorem callsRequested_of_reachable
    (reach : Reachable dfg s) :
    CallsRequested s r := by
  induction reach with
  | init => exact ⟨by simp [MasterState.init], by simp [MasterState.init], by simp [MasterState.init],
      by simp [MasterState.init], by simp [MasterState.init]⟩
  | step _ stepped calls => exact callsRequested_step calls stepped

end InFlight

section Counts

/-- The logs agree with the counters: `this_rpc_consumed_seqs` and `rpc_traversal`. -/
structure CallCounts (s : MasterState dfg) (r : dfg.RpcId) : Prop where
  taken : (s.takenBy r).length = s.consumedSeqs r
  completed : (s.completedCalls r).length = s.rpcTraversal r

/-- Every step keeps the logs in agreement with the counters. -/
theorem callCounts_step
    (counts : CallCounts s r)
    (stepped : Step dfg s action t) :
    CallCounts t r := by
  obtain ⟨taken, completed⟩ := counts
  cases stepped with
  | @getBatch r' batch partitions =>
      refine ⟨?_, completed⟩
      by_cases same : r' = r
      · subst same
        simp [takeBatch, takenBy, ← taken]
      · simp [takeBatch, takenBy, Function.update_apply, Ne.symm same, same, ← taken]
  | @receiveReplies r' j batch =>
      refine ⟨taken, ?_⟩
      by_cases same : r' = r
      · subst same
        simp [MasterState.receiveReplies, completedCalls, ← completed]
      · simp [MasterState.receiveReplies, completedCalls, Function.update_apply, Ne.symm same, same, ← completed]
  | acquire | passGuard | putRequest | takeRequest | deliver | loadData | pollTake | pollExit =>
      exact ⟨taken, completed⟩

/-- In every reachable state the logs agree with the counters. -/
theorem callCounts_of_reachable
    (reach : Reachable dfg s) :
    CallCounts s r := by
  induction reach with
  | init => exact ⟨by simp [MasterState.init, takenBy], by simp [MasterState.init, completedCalls]⟩
  | step _ stepped counts => exact callCounts_step counts stepped

end Counts

end RealRlhf.Master
