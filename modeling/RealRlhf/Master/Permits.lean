import Mathlib.Algebra.BigOperators.Group.Finset
import RealRlhf.Master.Calls
import RealRlhf.Master.Poll

namespace RealRlhf.Master

/-!
# The permits of `can_do_rpc`

`model_rpc_request_func` takes a permit of the semaphore `can_do_rpc[rpc.name]`, made with
`max_concurrent_calls` permits, before it waits on the back-pressure guard and for a batch.
It then puts the call in one of the `max_concurrent_calls` mailboxes `request_queues[rpc.name]`,
each of size one, chosen round robin by `response_coroutine_idx`. The reply coroutine of that
mailbox takes the call and awaits its replies, and releases the permit once they are in.

Over every run, the semaphore's value and the calls holding a permit add up to
`max_concurrent_calls` (`canDoRpc_add_permitsHeld`). So an RPC never has more than
`max_concurrent_calls` calls between being handed a batch and completing
(`requests_le_completed_add`).
-/

/-- Whether the request coroutine holds a permit: from `acquire` until its call is in a mailbox. -/
def RequestPc.holdsPermit : RequestPc → Nat
  | .acquiring => 0
  | _ => 1

/-- Whether the request coroutine holds a batch it has not yet put in a mailbox. -/
def RequestPc.holdsBatch : RequestPc → Nat
  | .posting _ => 1
  | _ => 0

/-- A request coroutine holding a batch holds a permit. -/
theorem RequestPc.holdsBatch_le_holdsPermit
    (pc : RequestPc) :
    pc.holdsBatch ≤ pc.holdsPermit := by
  cases pc <;> simp [RequestPc.holdsBatch, RequestPc.holdsPermit]

/-- Whether a reply coroutine awaits the replies of a call. -/
def ReplyPc.awaitedCalls : ReplyPc → Nat
  | .awaitingReplies _ => 1
  | _ => 0

/-- Whether a mailbox holds a call. -/
def mailboxCalls : Option (List Nat) → Nat
  | some _ => 1
  | none => 0

/-- Changing a function on `range n` at one point `j < n` changes its sum by that point's change. -/
theorem sum_range_of_eq_off
    {f g : Nat → Nat}
    {n j : Nat}
    (below : j < n)
    (off : ∀ k, k ≠ j → g k = f k) :
    ∑ k in Finset.range n, g k + f j = ∑ k in Finset.range n, f k + g j := by
  have member := Finset.mem_range.mpr below
  have rest : ∑ k in (Finset.range n).erase j, g k = ∑ k in (Finset.range n).erase j, f k :=
    Finset.sum_congr rfl fun k inErase => off k (Finset.ne_of_mem_erase inErase)
  have splitG := Finset.add_sum_erase _ g member
  have splitF := Finset.add_sum_erase _ f member
  omega

variable {Key ModelName : Type} [DecidableEq Key] [DecidableEq ModelName] {dfg : Dfg Key ModelName}

namespace MasterState

/-- The calls of `r` at mailbox `j` or at its reply coroutine, awaiting replies. -/
def postedAt (s : MasterState dfg) (r : dfg.RpcId) (j : Nat) : Nat :=
  mailboxCalls (s.requestQueues r j) + (s.replyPc r j).awaitedCalls

/-- The calls of `r` in the mailboxes or awaiting replies. -/
def postedCalls (s : MasterState dfg) (r : dfg.RpcId) : Nat :=
  ∑ j in Finset.range (dfg.rpc r).maxConcurrentCalls, s.postedAt r j

/-- What the permits of `r` depend on. -/
def permitView (s : MasterState dfg) (r : dfg.RpcId) :=
  (s.canDoRpc r, s.requestPc r, s.requestQueues r, s.replyPc r, s.responseCoroutineIdx r,
    (s.requests.filter (·.1 = r)).length, s.completedCalls r)

omit [DecidableEq Key] [DecidableEq ModelName] in
/-- The posted calls depend only on the mailboxes and the reply coroutines. -/
theorem postedCalls_congr
    {s t : MasterState dfg}
    (sameQueues : t.requestQueues = s.requestQueues)
    (sameReplies : t.replyPc = s.replyPc)
    (r : dfg.RpcId) :
    t.postedCalls r = s.postedCalls r := by
  simp only [postedCalls, postedAt, sameQueues, sameReplies]

omit [DecidableEq Key] [DecidableEq ModelName] in
/-- A move of mailbox `j` and its reply coroutine changes the posted calls by the change at `j`. -/
theorem postedCalls_of_eq_off
    (s t : MasterState dfg)
    {r : dfg.RpcId}
    {j : Nat}
    (coroutine : j < (dfg.rpc r).maxConcurrentCalls)
    (off : ∀ k, k ≠ j → t.requestQueues r k = s.requestQueues r k ∧ t.replyPc r k = s.replyPc r k) :
    t.postedCalls r + s.postedAt r j = s.postedCalls r + t.postedAt r j :=
  sum_range_of_eq_off coroutine fun k other => by simp only [postedAt, (off k other).1, (off k other).2]

end MasterState

open MasterState

/-- The permits of `r` and where its calls are. -/
structure PermitAccounting (s : MasterState dfg) (r : dfg.RpcId) : Prop where
  /-- `can_do_rpc` and the calls holding a permit make `max_concurrent_calls`. -/
  permits : s.canDoRpc r + (s.requestPc r).holdsPermit + s.postedCalls r = (dfg.rpc r).maxConcurrentCalls
  /-- Every batch handed to `r` is at its request coroutine, in a mailbox, awaiting replies, or completed. -/
  handed : (s.requests.filter (·.1 = r)).length =
    (s.completedCalls r).length + (s.requestPc r).holdsBatch + s.postedCalls r
  /-- Only the mailboxes of the reply coroutines hold calls. -/
  mailboxes : ∀ j, (dfg.rpc r).maxConcurrentCalls ≤ j → s.requestQueues r j = none
  /-- `response_coroutine_idx` names a reply coroutine. -/
  nextMailbox : s.responseCoroutineIdx r < (dfg.rpc r).maxConcurrentCalls

variable {s t : MasterState dfg} {action : MasterAction dfg} {r : dfg.RpcId}

omit [DecidableEq Key] [DecidableEq ModelName] in
/-- The start holds every permit, and no call. -/
theorem permitAccounting_init
    (r : dfg.RpcId) :
    PermitAccounting (MasterState.init dfg) r where
  permits := by simp [MasterState.init, RequestPc.holdsPermit, postedCalls, postedAt, mailboxCalls, ReplyPc.awaitedCalls]
  handed := by simp [MasterState.init, completedCalls, RequestPc.holdsBatch, postedCalls, postedAt, mailboxCalls,
    ReplyPc.awaitedCalls]
  mailboxes _ _ := rfl
  nextMailbox := (dfg.rpc r).callsPositive

omit [DecidableEq Key] [DecidableEq ModelName] in
/-- A move that leaves everything the permits of `r` depend on keeps their accounting. -/
theorem PermitAccounting.frame
    (accounted : PermitAccounting s r)
    (same : t.permitView r = s.permitView r) :
    PermitAccounting t r := by
  simp only [permitView, Prod.mk.injEq] at same
  obtain ⟨permits, pc, queues, replies, idx, requested, completed⟩ := same
  have posted : t.postedCalls r = s.postedCalls r := by simp only [postedCalls, postedAt, queues, replies]
  exact ⟨by rw [permits, pc, posted]; exact accounted.permits, by rw [requested, completed, pc, posted]; exact accounted.handed,
    fun j beyond => queues ▸ accounted.mailboxes j beyond, idx ▸ accounted.nextMailbox⟩

/-- Every move keeps the accounting of the permits of `r`. -/
theorem permitAccounting_step
    (accounted : PermitAccounting s r)
    (stepped : Step dfg s action t) :
    PermitAccounting t r := by
  have frame : t.permitView r = s.permitView r → PermitAccounting t r := accounted.frame
  obtain ⟨permits, handed, mailboxes, nextMailbox⟩ := accounted
  cases stepped with
  | @acquire r' _ atAcquire permit =>
      by_cases same : r = r'
      · subst same
        have posted : (s.acquireRpc r).postedCalls r = s.postedCalls r := postedCalls_congr rfl rfl r
        simp only [atAcquire, RequestPc.holdsPermit, RequestPc.holdsBatch] at permits handed
        refine ⟨?_, ?_, mailboxes, nextMailbox⟩
        · rw [posted]
          simp only [acquireRpc, Function.update_same, RequestPc.holdsPermit]
          omega
        · rw [posted]
          simpa [acquireRpc, completedCalls, RequestPc.holdsBatch] using handed
      · exact frame (by simp [permitView, acquireRpc, completedCalls, same])
  | @passGuard r' _ atGuard _ =>
      by_cases same : r = r'
      · subst same
        have posted : (s.passGuard r).postedCalls r = s.postedCalls r := postedCalls_congr rfl rfl r
        simp only [atGuard, RequestPc.holdsPermit, RequestPc.holdsBatch] at permits handed
        refine ⟨?_, ?_, mailboxes, nextMailbox⟩
        · rw [posted]
          simpa [MasterState.passGuard, RequestPc.holdsPermit] using permits
        · rw [posted]
          simpa [MasterState.passGuard, completedCalls, RequestPc.holdsBatch] using handed
      · exact frame (by simp [permitView, MasterState.passGuard, completedCalls, same])
  | @getBatch r' batch partitions _ atFetch _ _ =>
      by_cases same : r = r'
      · subst same
        have posted : (s.takeBatch r batch partitions).postedCalls r = s.postedCalls r := postedCalls_congr rfl rfl r
        simp only [atFetch, RequestPc.holdsPermit, RequestPc.holdsBatch] at permits handed
        refine ⟨?_, ?_, mailboxes, nextMailbox⟩
        · rw [posted]
          simpa [takeBatch, RequestPc.holdsPermit] using permits
        · rw [posted]
          simp [takeBatch, completedCalls, RequestPc.holdsBatch, handed]
          omega
      · exact frame (by simp [permitView, takeBatch, completedCalls, same, Ne.symm same])
  | @putRequest r' batch _ atPost mailboxFree =>
      by_cases same : r = r'
      · subst same
        have moved := postedCalls_of_eq_off s (s.putRequest r batch) nextMailbox fun k other => by
          simp [MasterState.putRequest, other]
        simp only [postedAt, MasterState.putRequest, mailboxFree, Function.update_same, mailboxCalls] at moved
        simp only [atPost, RequestPc.holdsPermit, RequestPc.holdsBatch] at permits handed
        refine ⟨?_, ?_, fun j beyond => ?_, ?_⟩
        · simp only [MasterState.putRequest, Function.update_same, RequestPc.holdsPermit] at moved ⊢
          omega
        · simp only [MasterState.putRequest, Function.update_same, RequestPc.holdsBatch] at moved ⊢
          simp only [completedCalls] at handed ⊢
          omega
        · simp [MasterState.putRequest, mailboxes j beyond, show j ≠ s.responseCoroutineIdx r by omega]
        · simpa [MasterState.putRequest] using Nat.mod_lt _ (dfg.rpc r).callsPositive
      · exact frame (by simp [permitView, MasterState.putRequest, completedCalls, same])
  | @takeRequest r' j batch _ coroutine atWait mailboxFull =>
      by_cases same : r = r'
      · subst same
        have moved := postedCalls_of_eq_off s (s.takeRequest r j batch) coroutine fun k other => by
          simp [MasterState.takeRequest, other]
        have before : s.postedAt r j = 1 := by simp [postedAt, mailboxFull, atWait, mailboxCalls, ReplyPc.awaitedCalls]
        have after : (s.takeRequest r j batch).postedAt r j = 1 := by
          simp [postedAt, MasterState.takeRequest, mailboxCalls, ReplyPc.awaitedCalls]
        have posted : (s.takeRequest r j batch).postedCalls r = s.postedCalls r := by omega
        refine ⟨?_, ?_, fun j' beyond => ?_, nextMailbox⟩
        · rw [posted]
          exact permits
        · rw [posted]
          exact handed
        · simp [MasterState.takeRequest, mailboxes j' beyond, show j' ≠ j by omega]
      · exact frame (by simp [permitView, MasterState.takeRequest, completedCalls, same])
  | @receiveReplies r' j batch _ coroutine atReplies =>
      by_cases same : r = r'
      · subst same
        have moved := postedCalls_of_eq_off s (s.receiveReplies r j batch) coroutine fun k other => by
          simp [MasterState.receiveReplies, other]
        simp only [postedAt, MasterState.receiveReplies, atReplies, Function.update_same,
          ReplyPc.awaitedCalls] at moved
        refine ⟨?_, ?_, mailboxes, nextMailbox⟩
        · simp only [MasterState.receiveReplies, Function.update_same] at moved ⊢
          omega
        · simp only [MasterState.receiveReplies, completedCalls] at moved handed ⊢
          simp only [List.filter_append, List.map_append, List.length_append, List.filter_singleton, decide_True,
            cond_true, List.map_singleton, List.length_singleton]
          omega
      · exact frame (by simp [permitView, MasterState.receiveReplies, completedCalls, same, Ne.symm same])
  | @deliver r' j batch _ coroutine atDeliver _ =>
      by_cases same : r = r'
      · subst same
        have moved := postedCalls_of_eq_off s (s.deliver r j batch) coroutine fun k other => by
          simp [MasterState.deliver, other]
        have unchanged : (s.deliver r j batch).postedAt r j = s.postedAt r j := by
          simp [postedAt, MasterState.deliver, atDeliver, ReplyPc.awaitedCalls]
        have posted : (s.deliver r j batch).postedCalls r = s.postedCalls r := by omega
        refine ⟨?_, ?_, mailboxes, nextMailbox⟩
        · rw [posted]
          exact permits
        · rw [posted]
          exact handed
      · exact frame (by simp [permitView, MasterState.deliver, completedCalls, same])
  | loadData | pollTake | pollExit => exact frame rfl

/-- The accounting holds in every reachable state. -/
theorem permitAccounting_of_reachable
    (reach : Reachable dfg s)
    (r : dfg.RpcId) :
    PermitAccounting s r := by
  induction reach with
  | init => exact permitAccounting_init r
  | step _ stepped accounted => exact permitAccounting_step accounted stepped

/--
Over every run, the value of `can_do_rpc[rpc.name]`, the permit the request coroutine holds
from `acquire` until its call is in a mailbox, and the calls in the mailboxes or awaiting their
replies add up to `max_concurrent_calls`.
-/
theorem canDoRpc_add_permitsHeld
    (reach : Reachable dfg s)
    (r : dfg.RpcId) :
    s.canDoRpc r + (s.requestPc r).holdsPermit + s.postedCalls r = (dfg.rpc r).maxConcurrentCalls :=
  (permitAccounting_of_reachable reach r).permits

/-- Over every run, an RPC has at most `max_concurrent_calls` calls handed a batch and not yet completed. -/
theorem requests_le_completed_add
    (reach : Reachable dfg s)
    (r : dfg.RpcId) :
    (s.requests.filter (·.1 = r)).length ≤ (s.completedCalls r).length + (dfg.rpc r).maxConcurrentCalls := by
  have accounted := permitAccounting_of_reachable reach r
  have heldBatch := (s.requestPc r).holdsBatch_le_holdsPermit
  have permits := accounted.permits
  have handed := accounted.handed
  omega

/-! ## The chain run -/

/-- Every action of `chainRun` is enabled. -/
theorem chainRun_reachable : Reachable chainDfg chainRun :=
  reachable_run_getD .init (by decide)

/-- At the end of `chainRun`, generation holds its only permit for record `1`, not yet posted. -/
example : chainRun.canDoRpc chainGen = 0 ∧ chainRun.requestPc chainGen = .posting [1] := by decide

/-- The permits of generation at the end of `chainRun`. -/
theorem canDoRpc_add_permitsHeld_chain :
    Reachable chainDfg chainRun ∧
      chainRun.canDoRpc chainGen + (chainRun.requestPc chainGen).holdsPermit + chainRun.postedCalls chainGen =
        (chainDfg.rpc chainGen).maxConcurrentCalls :=
  ⟨chainRun_reachable, canDoRpc_add_permitsHeld chainRun_reachable chainGen⟩

/-- Generation's calls at the end of `chainRun`. -/
theorem requests_le_completed_add_chain :
    Reachable chainDfg chainRun ∧
      (chainRun.requests.filter (·.1 = chainGen)).length ≤
        (chainRun.completedCalls chainGen).length + (chainDfg.rpc chainGen).maxConcurrentCalls :=
  ⟨chainRun_reachable, requests_le_completed_add chainRun_reachable chainGen⟩

end RealRlhf.Master
