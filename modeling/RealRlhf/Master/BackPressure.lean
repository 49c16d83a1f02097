import RealRlhf.Master.Calls
import RealRlhf.Master.Poll

namespace RealRlhf.Master

/-!
# Back-pressure

Before each `get_batch_for_rpc`, the request coroutine of `r` sleeps while
`this_rpc_consumed_seqs >= (rpc_traversal[c] + 1) * c.max_n_seqs` for some child `c`. The
counter grows only after the batch arrives, by at most `r.max_n_seqs`, and the traversal
counters only grow; so on every edge `r → c`, `r` is less than one call of `c` plus one call
of `r` ahead of the calls `c` has completed (`edgeBound_of_reachable`).

Counted in records: the records handed to `r` are `this_rpc_consumed_seqs`, and when `c`
takes exactly `max_n_seqs` records per call, its completed calls hold
`rpc_traversal[c] * c.max_n_seqs` records, since every completed call was requested with
a size `get_batch_for_rpc` may return.
-/

variable {Key ModelName : Type} [DecidableEq Key] [DecidableEq ModelName] {dfg : Dfg Key ModelName}

open MasterState

section EdgeBound

/-- The back-pressure bound of the edge `r → c`, and the guard remembered while `r` fetches. -/
structure EdgeBound (s : MasterState dfg) (r c : dfg.RpcId) : Prop where
  guarded : s.requestPc r = .fetching → s.consumedSeqs r < (s.rpcTraversal c + 1) * (dfg.rpc c).maxNSeqs
  bounded : s.consumedSeqs r < (s.rpcTraversal c + 1) * (dfg.rpc c).maxNSeqs + (dfg.rpc r).maxNSeqs

variable {r c : dfg.RpcId}

omit [DecidableEq Key] [DecidableEq ModelName] in
/-- A move that leaves `r`'s coroutine and counter alone and does not lower `c`'s traversal keeps the bound. -/
theorem EdgeBound.frame
    {s t : MasterState dfg}
    (bound : EdgeBound s r c)
    (samePc : t.requestPc r = s.requestPc r)
    (sameConsumed : t.consumedSeqs r = s.consumedSeqs r)
    (grown : s.rpcTraversal c ≤ t.rpcTraversal c) :
    EdgeBound t r c := by
  have more : (s.rpcTraversal c + 1) * (dfg.rpc c).maxNSeqs ≤ (t.rpcTraversal c + 1) * (dfg.rpc c).maxNSeqs :=
    Nat.mul_le_mul_right _ (Nat.succ_le_succ grown)
  constructor
  · intro atFetch
    rw [samePc] at atFetch
    have := bound.guarded atFetch
    omega
  · have := bound.bounded
    omega

/-- Every step keeps the bound of an edge. -/
theorem edgeBound_step
    {s t : MasterState dfg}
    {action : MasterAction dfg}
    (edge : c ∈ dfg.children r)
    (bound : EdgeBound s r c)
    (stepped : Step dfg s action t) :
    EdgeBound t r c := by
  cases stepped with
  | @acquire r' _ _ _ =>
      by_cases same : r = r'
      · subst same
        exact ⟨fun atFetch => by simp [acquireRpc] at atFetch, bound.bounded⟩
      · exact bound.frame (by simp [acquireRpc, same]) rfl le_rfl
  | @passGuard r' _ _ guardOpen =>
      by_cases same : r = r'
      · subst same
        exact ⟨fun _ => guardOpen c edge, bound.bounded⟩
      · exact bound.frame (by simp [MasterState.passGuard, same]) rfl le_rfl
  | @getBatch r' batch partitions _ atFetch valid _ =>
      by_cases same : r = r'
      · subst same
        have guard := bound.guarded atFetch
        have sized := valid.2.2.2.1
        refine ⟨fun posting => by simp [takeBatch] at posting, ?_⟩
        simp only [takeBatch, Function.update_same]
        omega
      · exact bound.frame (by simp [takeBatch, same]) (by simp [takeBatch, same]) le_rfl
  | @putRequest r' batch _ atPost _ =>
      by_cases same : r = r'
      · subst same
        exact ⟨fun atFetch => by simp [MasterState.putRequest] at atFetch, bound.bounded⟩
      · exact bound.frame (by simp [MasterState.putRequest, same]) rfl le_rfl
  | @receiveReplies r' j batch _ _ _ =>
      refine bound.frame rfl rfl ?_
      by_cases same : c = r'
      · subst same
        simp [MasterState.receiveReplies]
      · simp [MasterState.receiveReplies, same]
  | takeRequest | deliver | loadData | pollTake | pollExit => exact bound.frame rfl rfl le_rfl

/-- Every reachable state keeps the back-pressure bound on every edge. -/
theorem edgeBound_of_reachable
    {s : MasterState dfg}
    (reach : Reachable dfg s)
    (edge : c ∈ dfg.children r) :
    EdgeBound s r c := by
  induction reach with
  | init =>
      have positive := (dfg.rpc c).minPositive.trans_le (dfg.rpc c).minLeMax
      exact ⟨fun atFetch => by simp [MasterState.init] at atFetch, by simp [MasterState.init]; omega⟩
  | step _ stepped bound => exact edgeBound_step edge bound stepped

end EdgeBound

section Records

variable {r c : dfg.RpcId}

/-- Calls of `size` records each hold `size` records per call. -/
theorem length_flatten_of_sized
    {calls : List (List Nat)}
    {size : Nat}
    (sized : ∀ call ∈ calls, call.length = size) :
    calls.flatten.length = calls.length * size := by
  induction calls with
  | nil => simp
  | cons call rest inductionHypothesis =>
      simp only [List.flatten, List.length_append, List.length_cons,
        sized call (List.mem_cons_self _ _), inductionHypothesis fun other member => sized other (List.mem_cons_of_mem _ member)]
      rw [Nat.succ_mul, Nat.add_comm]

/-- When `c` takes exactly `max_n_seqs` records per call, its completed calls hold `rpc_traversal[c] * max_n_seqs` records. -/
theorem completedBy_length
    {s : MasterState dfg}
    (reach : Reachable dfg s)
    (exact : (dfg.rpc c).minNSeqs = (dfg.rpc c).maxNSeqs) :
    (s.completedBy c).length = s.rpcTraversal c * (dfg.rpc c).maxNSeqs := by
  rw [completedBy, length_flatten_of_sized fun call member => ?_, (callCounts_of_reachable reach).completed]
  obtain ⟨⟨r, call⟩, completed, rfl⟩ := List.mem_map.mp member
  obtain ⟨inLog, sameRpc⟩ := List.mem_filter.mp completed
  obtain rfl : r = c := of_decide_eq_true sameRpc
  obtain ⟨partitions, requested⟩ := (callsRequested_of_reachable reach).completed call inLog
  have sized := (requestsValid_of_reachable reach _ requested).2.1
  unfold Dfg.BatchSized at sized
  dsimp only at sized ⊢
  omega

end Records

/-- What the back-pressure guard guarantees on an edge `r → c`. -/
structure BackPressureSound (s : MasterState dfg) (r c : dfg.RpcId) : Prop where
  /-- `this_rpc_consumed_seqs(r) < (rpc_traversal[c] + 1) * c.max_n_seqs + r.max_n_seqs`. -/
  consumedBound : s.consumedSeqs r < (s.rpcTraversal c + 1) * (dfg.rpc c).maxNSeqs + (dfg.rpc r).maxNSeqs
  /-- The records handed to `r` are `this_rpc_consumed_seqs(r)` many. -/
  takenCount : (s.takenBy r).length = s.consumedSeqs r
  /-- With exact batches, `c`'s completed calls hold `rpc_traversal[c] * c.max_n_seqs` records. -/
  completedCount : (dfg.rpc c).minNSeqs = (dfg.rpc c).maxNSeqs →
    (s.completedBy c).length = s.rpcTraversal c * (dfg.rpc c).maxNSeqs
  /-- With exact batches, `r` has taken fewer than `c.max_n_seqs + r.max_n_seqs` records beyond those in `c`'s completed calls. -/
  waitingBound : (dfg.rpc c).minNSeqs = (dfg.rpc c).maxNSeqs →
    (s.takenBy r).length < (s.completedBy c).length + (dfg.rpc c).maxNSeqs + (dfg.rpc r).maxNSeqs

/-- In every reachable state, every edge of the graph meets the back-pressure guarantees. -/
theorem backPressure_sound
    {s : MasterState dfg}
    {r c : dfg.RpcId}
    (reach : Reachable dfg s)
    (edge : c ∈ dfg.children r) :
    BackPressureSound s r c := by
  have bound := (edgeBound_of_reachable reach edge).bounded
  have taken := (callCounts_of_reachable reach : CallCounts s r).taken
  refine ⟨bound, taken, completedBy_length reach, fun exact => ?_⟩
  rw [completedBy_length reach exact, taken]
  rw [Nat.succ_mul] at bound
  omega

/-- After `forkRun`, generation has taken two records and the critic has completed both. -/
theorem backPressure_sound_fork :
    Reachable forkDfg forkRun ∧ forkCritic ∈ forkDfg.children forkGen ∧
      BackPressureSound forkRun forkGen forkCritic :=
  ⟨forkRun_reachable, by decide, backPressure_sound forkRun_reachable (by decide)⟩

end RealRlhf.Master
