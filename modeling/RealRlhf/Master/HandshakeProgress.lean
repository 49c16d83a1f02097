import Mathlib
import RealRlhf.Master.Handshake

namespace RealRlhf.Master.Handshake

/-!
# The handshakes complete

Every move other than posting a call brings some request closer to being started: the request
goes from its stream into its worker's queue, which answers on `syn_reply_id`; the master polls
that reply; the master acks the call; the ack reaches the worker; the worker starts the request.
For each posted request, count how far it still has to go. For each posted call, count whether it
still waits for its ack. Every such move lowers the total (`Invariant.pending_step_lt`), so a
run of them has at most that many moves (`run_length_le_pending`).

A state with a message on a stream or a request in a queue always has such a move
(`Invariant.exists_step_of_pending`). So from every reachable state the master and the workers,
posting nothing new, reach a state where every worker has started every request posted to it
(`exists_run_completing`).
-/

section Progress

variable (calls : List (List Nat))

/-- The requests of call `k`, in slot order. -/
def requestsOf (k : Nat) : List RequestId :=
  (List.range (calls.getD k []).length).map (RequestId.mk k)

/--
How far a request still has to go: one for each ack of it on its worker's stream, plus `0` once
started, `1` once its call is acked, `3` once its reply is polled, `4` once queued and answered,
and `5` while on its stream.
-/
def stage (s : State) (id : RequestId) : Nat :=
  (s.channel (workerOf calls id)).count (.ack id) +
    if id ∈ s.executed (workerOf calls id) then 0
    else if id.call ∈ s.acked then 1
    else if id ∈ s.synPolled then 3
    else if id ∈ s.synSent then 4
    else 5

/-- What remains of the posted calls: the stages of their requests, and the calls not yet acked. -/
def pending (s : State) : Nat :=
  ((s.posted.flatMap (requestsOf calls)).map (stage calls s)).sum + (s.posted.filter (· ∉ s.acked)).length

/-- A request of a posted call is one whose call was posted, in one of the call's slots. -/
theorem mem_flatMap_requestsOf
    {posted : List Nat}
    {id : RequestId} :
    id ∈ posted.flatMap (requestsOf calls) ↔ id.call ∈ posted ∧ id.slot < (calls.getD id.call []).length := by
  obtain ⟨call, slot⟩ := id
  simp only [requestsOf, List.mem_flatMap, List.mem_map, List.mem_range, RequestId.mk.injEq]
  constructor
  · rintro ⟨k, posted, j, below, rfl, rfl⟩
    exact ⟨posted, below⟩
  · rintro ⟨posted, below⟩
    exact ⟨call, posted, slot, below, rfl, rfl⟩

/-- A sum over a list drops when one entry drops and no other changes. -/
theorem sum_map_lt_of_single
    {l : List RequestId}
    {f g : RequestId → Nat}
    {a : RequestId}
    (mem : a ∈ l)
    (lower : f a < g a)
    (same : ∀ b, b ≠ a → f b = g b) :
    (l.map f).sum < (l.map g).sum :=
  List.sum_lt_sum f g (fun b _ => if h : b = a then h ▸ lower.le else (same b h).le) ⟨a, mem, lower⟩

variable {calls}

/-- A run of computed moves is a first move followed by a run. -/
theorem run_cons_eq_some
    {s t : State}
    {action : Action}
    {rest : List Action} :
    run calls s (action :: rest) = some t ↔ ∃ u, step calls s action = some u ∧ run calls u rest = some t :=
  Option.bind_eq_some

/-- A move other than posting keeps the posted calls. -/
theorem posted_of_step
    {s t : State}
    {action : Action}
    (moved : Step calls s action t)
    (notPost : ∀ k, action ≠ .post k) :
    t.posted = s.posted := by
  cases moved with
  | post => exact absurd rfl (notPost _)
  | receive => rename_i m _ _; cases m <;> rfl
  | pollSyn | ack | execute => rfl

/-- A request the master posted to `w` is a request of a posted call, and `w` is its worker. -/
theorem posted_of_mem_postLog
    {s : State}
    {w : Nat}
    {id : RequestId}
    (logged : id ∈ postLog calls s.posted w) :
    id ∈ s.posted.flatMap (requestsOf calls) ∧ workerOf calls id = w := by
  obtain ⟨posted, slot, worker⟩ := (mem_postLog calls).mp logged
  exact ⟨(mem_flatMap_requestsOf calls).mpr ⟨posted, slot⟩, worker⟩

/-- The requests call `k` posts to one worker are distinct. -/
theorem nodup_requestsTo
    (k w : Nat) :
    (requestsTo calls k w).Nodup := by
  simpa [postLog] using nodup_postLog calls (List.nodup_singleton k) w

/-- Taking a message off a stream keeps the count, on every stream, of every other message. -/
theorem count_update_channel
    {channel : Nat → List Message}
    {w : Nat}
    {m : Message}
    {rest : List Message}
    (head : channel w = m :: rest)
    (w' : Nat)
    {other : Message}
    (distinct : m ≠ other) :
    (Function.update channel w rest w').count other = (channel w').count other := by
  by_cases same : w' = w
  · subst same
    simp [head, List.count_cons, distinct]
  · simp [same]

namespace Invariant

variable {s : State} (inv : Invariant calls s)
include inv

/-- A request still on the stream of `w` is neither queued nor started there. -/
theorem not_queued_of_mem_channel
    {w : Nat}
    {id : RequestId}
    (onStream : id ∈ (s.channel w).filterMap Message.request?) :
    id ∉ s.executed w ++ s.queue w := by
  have distinct := nodup_postLog calls inv.postedNodup w
  rw [← inv.fifo w] at distinct
  exact fun queued => List.disjoint_of_nodup_append distinct queued onStream

/-- A request not yet polled on `syn_reply_id` has a call not yet acked, and has not started. -/
theorem not_started_of_not_polled
    {id : RequestId}
    (slot : id.slot < (calls.getD id.call []).length)
    (unpolled : id ∉ s.synPolled) :
    id.call ∉ s.acked ∧ id ∉ s.executed (workerOf calls id) :=
  have notAcked : id.call ∉ s.acked := fun acked => unpolled (inv.repliesBeforeAck _ acked _ slot)
  ⟨notAcked, fun started => notAcked (inv.ackedAtAcked _ id (inv.executedAcked _ id started))⟩

/-- Taking a request off its stream moves it from stage `5` to stage `4` and changes no other stage. -/
theorem pending_receive_request_lt
    {w : Nat}
    {id : RequestId}
    {rest : List Message}
    (head : s.channel w = .request id :: rest) :
    pending calls (s.receive w (.request id) rest) < pending calls s := by
  have onStream : id ∈ (s.channel w).filterMap Message.request? := by simp [head]
  obtain ⟨posted, worker⟩ := posted_of_mem_postLog (by rw [← inv.fifo w]; exact List.mem_append_right _ onStream)
  have unsent : id ∉ s.synSent := fun sent =>
    inv.not_queued_of_mem_channel onStream (worker ▸ inv.sentQueued id sent)
  have unpolled : id ∉ s.synPolled := fun polled => unsent (inv.polledSent id polled)
  obtain ⟨notAcked, notStarted⟩ := inv.not_started_of_not_polled ((mem_flatMap_requestsOf calls).mp posted).2 unpolled
  refine Nat.add_lt_add_right (sum_map_lt_of_single posted ?_ fun id' other => ?_) _
  · simp [stage, State.receive, count_update_channel head, notStarted, notAcked, unsent, unpolled]
  · simp [stage, State.receive, count_update_channel head, other]

/-- Taking an ack off its stream lowers that ack's count and changes no other stage. -/
theorem pending_receive_ack_lt
    {w : Nat}
    {id : RequestId}
    {rest : List Message}
    (head : s.channel w = .ack id :: rest) :
    pending calls (s.receive w (.ack id) rest) < pending calls s := by
  have onStream : Message.ack id ∈ s.channel w := by simp [head]
  obtain ⟨slot, worker⟩ := inv.acksAddressed w id onStream
  have posted := (mem_flatMap_requestsOf calls).mpr ⟨inv.ackedPosted _ (inv.acksAcked w id onStream), slot⟩
  refine Nat.add_lt_add_right (sum_map_lt_of_single posted ?_ fun id' other => ?_) _
  · simp [stage, State.receive, worker, head]
  · simp [stage, State.receive, count_update_channel head, Ne.symm other]

/-- Starting an acked request moves it from stage `1` to stage `0` and changes no other stage. -/
theorem pending_execute_lt
    {w : Nat}
    {id : RequestId}
    {rest : List RequestId}
    (head : s.queue w = id :: rest)
    (acked : id ∈ s.ackedAt w) :
    pending calls (s.execute w id rest) < pending calls s := by
  have logged : id ∈ postLog calls s.posted w := by rw [← inv.fifo w]; simp [head]
  obtain ⟨posted, worker⟩ := posted_of_mem_postLog logged
  have notStarted : id ∉ s.executed w := by
    have distinct := nodup_postLog calls inv.postedNodup w
    rw [← inv.fifo w, List.append_assoc] at distinct
    exact fun started => List.disjoint_of_nodup_append distinct started (by simp [head])
  have ackedCall := inv.ackedAtAcked w id acked
  refine Nat.add_lt_add_right (sum_map_lt_of_single posted ?_ fun id' other => ?_) _
  · simp [stage, State.execute, worker, notStarted, ackedCall]
  · by_cases same : workerOf calls id' = w <;> simp [stage, State.execute, Function.update_apply, same, other]

/-- Polling a reply moves its request from stage `4` to stage `3` and changes no other stage. -/
theorem pending_pollSyn_lt
    {id : RequestId}
    (replied : id ∈ s.synSent)
    (fresh : id ∉ s.synPolled) :
    pending calls (s.pollSyn id) < pending calls s := by
  have logged : id ∈ postLog calls s.posted (workerOf calls id) := by
    rw [← inv.fifo]
    exact List.mem_append_left _ (inv.sentQueued id replied)
  obtain ⟨posted, _⟩ := posted_of_mem_postLog logged
  obtain ⟨notAcked, notStarted⟩ := inv.not_started_of_not_polled ((mem_flatMap_requestsOf calls).mp posted).2 fresh
  refine Nat.add_lt_add_right (sum_map_lt_of_single posted ?_ fun id' other => ?_) _
  · simp [stage, State.pollSyn, notStarted, notAcked, fresh, replied]
  · simp [stage, State.pollSyn, other]

/-- Acking a call takes each of its requests from stage `3` or more to at most `2`, and the call off the calls still waiting. -/
theorem pending_ack_lt
    {k : Nat}
    (wasPosted : k ∈ s.posted)
    (fresh : k ∉ s.acked) :
    pending calls (s.ack calls k) < pending calls s := by
  have dropped : (s.posted.filter (· ∉ s.acked ++ [k])) = (s.posted.filter (· ∉ s.acked)).filter (· ≠ k) := by
    rw [List.filter_filter]
    exact List.filter_congr fun x _ => by simp [and_comm]
  have waiting : ((s.ack calls k).posted.filter (· ∉ (s.ack calls k).acked)).length < (s.posted.filter (· ∉ s.acked)).length := by
    simp only [State.ack, dropped]
    exact List.length_filter_lt_length_iff_exists.mpr ⟨k, by simp [wasPosted, fresh], by simp⟩
  refine Nat.add_lt_add_of_le_of_lt (List.sum_le_sum fun id _ => ?_) waiting
  by_cases ofCall : id.call = k
  · have noAck : (s.channel (workerOf calls id)).count (.ack id) = 0 :=
      List.count_eq_zero.mpr fun onStream => fresh (ofCall ▸ inv.acksAcked _ id onStream)
    have once : ((requestsTo calls k (workerOf calls id)).map Message.ack).count (.ack id) ≤ 1 := by
      rw [List.count_map_of_injective _ _ fun _ _ same => Message.ack.inj same]
      exact List.nodup_iff_count_le_one.mp (nodup_requestsTo k _) id
    have notStarted : id ∉ s.executed (workerOf calls id) := fun started =>
      fresh (ofCall ▸ inv.ackedAtAcked _ id (inv.executedAcked _ id started))
    simp [stage, State.ack, noAck, notStarted, ofCall, fresh]
    split_ifs <;> omega
  · have noAck : ((requestsTo calls k (workerOf calls id)).map Message.ack).count (.ack id) = 0 :=
      List.count_eq_zero.mpr fun mem => ofCall (((mem_requestsTo calls).mp (by simpa using mem)).1)
    simp [stage, State.ack, noAck, ofCall]

/-- Every move other than posting a call lowers what remains. -/
theorem pending_step_lt
    {action : Action}
    {t : State}
    (moved : Step calls s action t)
    (notPost : ∀ k, action ≠ .post k) :
    pending calls t < pending calls s := by
  cases moved with
  | post => exact absurd rfl (notPost _)
  | pollSyn replied fresh => exact inv.pending_pollSyn_lt replied fresh
  | ack wasPosted fresh => exact inv.pending_ack_lt wasPosted fresh
  | @receive w m rest head =>
      cases m with
      | request id => exact inv.pending_receive_request_lt head
      | ack id => exact inv.pending_receive_ack_lt head
  | execute head acked => exact inv.pending_execute_lt head acked

end Invariant

/--
From a reachable state, moves other than posting reach a reachable state with the same calls
posted and every stream and queue empty.
-/
theorem exists_run_drained
    {s : State}
    (reachable : Reachable calls s) :
    ∃ actions t, (∀ action ∈ actions, ∀ k, action ≠ .post k) ∧ run calls s actions = some t ∧
      Reachable calls t ∧ t.posted = s.posted ∧ ∀ w, t.channel w = [] ∧ t.queue w = [] := by
  by_cases drained : ∀ w, s.channel w = [] ∧ s.queue w = []
  · exact ⟨[], s, by simp, rfl, reachable, rfl, drained⟩
  have inv := invariant_of_reachable calls reachable
  simp only [not_forall, not_and_or] at drained
  obtain ⟨action, t, notPost, moved⟩ := inv.exists_step_of_pending drained
  have lower := inv.pending_step_lt moved notPost
  obtain ⟨actions, u, notPosts, ran, reached, posted, empty⟩ := exists_run_drained (reachable.step moved)
  refine ⟨action :: actions, u, List.forall_mem_cons.mpr ⟨notPost, notPosts⟩,
    run_cons_eq_some.mpr ⟨t, step_complete calls moved, ran⟩, reached, ?_, empty⟩
  rw [posted, posted_of_step moved notPost]
termination_by pending calls s

/--
From every reachable state, the master and the workers can move, posting no new call, until every
stream and every queue is empty and every worker has started, in post order, every request the
master posted to it.
-/
theorem exists_run_completing
    {s : State}
    (reachable : Reachable calls s) :
    ∃ actions t, (∀ action ∈ actions, ∀ k, action ≠ .post k) ∧ run calls s actions = some t ∧
      ∀ w, t.channel w = [] ∧ t.queue w = [] ∧ t.executed w = postLog calls s.posted w := by
  obtain ⟨actions, t, notPosts, ran, reached, posted, drained⟩ := exists_run_drained reachable
  refine ⟨actions, t, notPosts, ran, fun w => ⟨(drained w).1, (drained w).2, ?_⟩⟩
  simpa [drained w, posted] using (invariant_of_reachable calls reached).fifo w

/--
However the master and the workers interleave, a run that posts no new call has at most
`pending` moves: the handshakes of the posted calls cannot go on forever.
-/
theorem run_length_le_pending
    {s : State}
    (reachable : Reachable calls s)
    {actions : List Action}
    (notPosts : ∀ action ∈ actions, ∀ k, action ≠ .post k)
    (enabled : (run calls s actions).isSome) :
    actions.length ≤ pending calls s := by
  induction actions generalizing s with
  | nil => exact Nat.zero_le _
  | cons action rest inductionHypothesis =>
      obtain ⟨t, computed, ran⟩ := run_cons_eq_some.mp (Option.some_get enabled).symm
      have moved := step_sound calls computed
      have lower := (invariant_of_reachable calls reachable).pending_step_lt moved
        (notPosts action (List.mem_cons_self _ _))
      have restBound := inductionHypothesis (reachable.step moved)
        (fun other mem => notPosts other (List.mem_cons_of_mem _ mem)) (by rw [ran]; rfl)
      rw [List.length_cons]
      omega

end Progress

/-! ## A run -/

/-- Both calls of `crossedCalls` posted, nothing received yet. -/
def crossedPosted : State :=
  (run crossedCalls .init [.post 0, .post 1]).getD .init

/-- Both posts are enabled. -/
theorem crossedPosted_reachable : Reachable crossedCalls crossedPosted :=
  reachable_run_getD _ .init (by decide)

/-- Four requests at stage `5` and two calls waiting for their acks. -/
example : pending crossedCalls crossedPosted = 22 := by decide

/-- Right after both calls are posted, the handshakes of both can complete. -/
theorem exists_run_completing_crossed :
    Reachable crossedCalls crossedPosted ∧
      ∃ actions t, (∀ action ∈ actions, ∀ k, action ≠ .post k) ∧ run crossedCalls crossedPosted actions = some t ∧
        ∀ w, t.channel w = [] ∧ t.queue w = [] ∧ t.executed w = postLog crossedCalls crossedPosted.posted w :=
  ⟨crossedPosted_reachable, exists_run_completing crossedPosted_reachable⟩

/-- The moves that take `crossedPosted` to both workers starting both calls. -/
def crossedSchedule : List Action :=
  [.receive 0, .receive 0, .receive 1, .receive 1,
    .pollSyn ⟨0, 0⟩, .pollSyn ⟨1, 1⟩, .pollSyn ⟨0, 1⟩, .pollSyn ⟨1, 0⟩, .ack 0, .ack 1,
    .receive 0, .receive 0, .receive 1, .receive 1, .execute 0, .execute 0, .execute 1, .execute 1]

/-- The eighteen moves of that schedule are within the bound. -/
theorem run_length_le_pending_crossed :
    Reachable crossedCalls crossedPosted ∧ (∀ action ∈ crossedSchedule, ∀ k, action ≠ .post k) ∧
      (run crossedCalls crossedPosted crossedSchedule).isSome ∧
      crossedSchedule.length ≤ pending crossedCalls crossedPosted :=
  have notPosts : ∀ action ∈ crossedSchedule, ∀ k, action ≠ .post k := by simp [crossedSchedule]
  have enabled : (run crossedCalls crossedPosted crossedSchedule).isSome := by decide
  ⟨crossedPosted_reachable, notPosts, enabled, run_length_le_pending crossedPosted_reachable notPosts enabled⟩

end RealRlhf.Master.Handshake
