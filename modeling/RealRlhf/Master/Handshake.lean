import RealRlhf.Base.Lists

namespace RealRlhf.Master.Handshake

/-!
# The request/syn/ack handshake

`request_all`, `_request_parameter_sync` and `scatter_tensor_to_mws` of
`system/master_worker.py` post all the requests of a collective call with no suspension point in
between, wait for every request's reply on `syn_reply_id`, and only then post an `ack` on each
request's `ack_reply_id`. The worker side is not under `src/` and is modelled from the
specification: a worker replies on `syn_reply_id` once it has put the request in its local queue,
and starts the request at the head of that queue only once its `ack` has arrived.

Calls are posted in any order and their handshakes interleave in any way: the coroutines of
`scatter_tensor_to_mws` suspend between the posts and the acks. Each master-to-worker stream is
FIFO, and a request and its `ack` travel on the same one. Over every run:
- a worker starts a request only when every worker of its call has queued its own request
  (`queued_of_executed`);
- a worker starts the requests in the order the master posted them to it
  (`executed_prefix_postLog`), none twice (`executed_nodup`);
- two workers that share two calls start them in the same order (`executed_order_agrees`);
- a state with a queued request always has a move (`exists_step_of_queued`).
-/

/-- A request of a collective call: the call's position in the master's program and the slot of its handler in the call. -/
structure RequestId where
  call : Nat
  slot : Nat
  deriving DecidableEq, Repr

/-- What the master posts on a worker's stream: a request, or the `ack` on a request's `ack_reply_id`. -/
inductive Message where
  | request (id : RequestId)
  | ack (id : RequestId)
  deriving DecidableEq, Repr

/-- The request a message carries, if it is one. -/
def Message.request? : Message → Option RequestId
  | .request id => some id
  | .ack _ => none

/-- A request message carries its request. -/
@[simp]
theorem Message.request?_request
    (id : RequestId) :
    (Message.request id).request? = some id :=
  rfl

/-- An ack carries no request. -/
@[simp]
theorem Message.request?_ack
    (id : RequestId) :
    (Message.ack id).request? = none :=
  rfl

/-- The master's stream and every worker. -/
structure State where
  /-- The calls whose requests were posted, in post order. -/
  posted : List Nat
  /-- The calls whose acks were posted. -/
  acked : List Nat
  /-- The master-to-worker stream of each worker, FIFO. -/
  channel : Nat → List Message
  /-- Replies on `syn_reply_id` sent by the workers. -/
  synSent : List RequestId
  /-- Replies on `syn_reply_id` the master has polled. -/
  synPolled : List RequestId
  /-- Each worker's local queue of requests not yet started. -/
  queue : Nat → List RequestId
  /-- The acks each worker has received. -/
  ackedAt : Nat → List RequestId
  /-- The requests each worker has started, in order. -/
  executed : Nat → List RequestId

/-- No call posted; every stream and queue empty. -/
def State.init : State :=
  ⟨[], [], fun _ => [], [], [], fun _ => [], fun _ => [], fun _ => []⟩

/-- A move of the master or of a worker. -/
inductive Action where
  | post (call : Nat)
  | pollSyn (id : RequestId)
  | ack (call : Nat)
  | receive (worker : Nat)
  | execute (worker : Nat)
  deriving DecidableEq, Repr

section Protocol

variable (calls : List (List Nat))

/-- The worker a request is addressed to: call `k` of the master's program `calls` posts one request to each worker of `calls[k]`, in turn. -/
def workerOf (id : RequestId) : Nat :=
  (calls.getD id.call []).getD id.slot 0

/-- The requests of call `k` addressed to worker `w`, in slot order. -/
def requestsTo (k w : Nat) : List RequestId :=
  ((List.range (calls.getD k []).length).filter fun j => (calls.getD k []).getD j 0 = w).map (RequestId.mk k)

/-- Everything the master has posted to worker `w` when it has posted the calls `posted`, in post order. -/
def postLog (posted : List Nat) (w : Nat) : List RequestId :=
  posted.flatMap fun k => requestsTo calls k w

namespace State

/-- `[stream.post(p) for p in payloads]`: call `k`'s requests, at the tail of their workers' streams. -/
def post (s : State) (k : Nat) : State :=
  { s with posted := s.posted ++ [k], channel := fun w => s.channel w ++ (requestsTo calls k w).map .request }

/-- The master polls the reply on `syn_reply_id` of `id`. -/
def pollSyn (s : State) (id : RequestId) : State :=
  { s with synPolled := s.synPolled ++ [id] }

/-- The acks of call `k`, each on its request's `ack_reply_id`, at the tail of their workers' streams. -/
def ack (s : State) (k : Nat) : State :=
  { s with acked := s.acked ++ [k], channel := fun w => s.channel w ++ (requestsTo calls k w).map .ack }

/-- Worker `w` takes message `m` off its stream, leaving `rest`: a request is queued and answered on `syn_reply_id`, an ack is recorded. -/
def receive (s : State) (w : Nat) : Message → List Message → State
  | .request id, rest =>
      { s with
        channel := Function.update s.channel w rest
        queue := Function.update s.queue w (s.queue w ++ [id])
        synSent := s.synSent ++ [id] }
  | .ack id, rest =>
      { s with
        channel := Function.update s.channel w rest
        ackedAt := Function.update s.ackedAt w (s.ackedAt w ++ [id]) }

/-- Worker `w` starts `id`, the head of its queue, leaving `rest`. -/
def execute (s : State) (w : Nat) (id : RequestId) (rest : List RequestId) : State :=
  { s with
    queue := Function.update s.queue w rest
    executed := Function.update s.executed w (s.executed w ++ [id]) }

end State

open State

/-- One move. The master posts a call once, polls each reply once, and acks a call once, after all its replies. -/
inductive Step : State → Action → State → Prop
  | post {s : State} {k : Nat}
      (isCall : k < calls.length)
      (fresh : k ∉ s.posted) :
      Step s (.post k) (s.post calls k)
  | pollSyn {s : State} {id : RequestId}
      (replied : id ∈ s.synSent)
      (fresh : id ∉ s.synPolled) :
      Step s (.pollSyn id) (s.pollSyn id)
  | ack {s : State} {k : Nat}
      (wasPosted : k ∈ s.posted)
      (fresh : k ∉ s.acked)
      (allReplied : ∀ j < (calls.getD k []).length, ⟨k, j⟩ ∈ s.synPolled) :
      Step s (.ack k) (s.ack calls k)
  | receive {s : State} {w : Nat} {m : Message} {rest : List Message}
      (head : s.channel w = m :: rest) :
      Step s (.receive w) (s.receive w m rest)
  | execute {s : State} {w : Nat} {id : RequestId} {rest : List RequestId}
      (head : s.queue w = id :: rest)
      (acked : id ∈ s.ackedAt w) :
      Step s (.execute w) (s.execute w id rest)

/-- The states reachable from the start. -/
inductive Reachable : State → Prop
  | init : Reachable .init
  | step {s t : State} {action : Action} :
      Reachable s → Step calls s action t → Reachable t

/-- `Step`, computed: `none` when the move is not enabled. -/
def step (s : State) : Action → Option State
  | .post k => if k < calls.length ∧ k ∉ s.posted then some (s.post calls k) else none
  | .pollSyn id => if id ∈ s.synSent ∧ id ∉ s.synPolled then some (s.pollSyn id) else none
  | .ack k =>
      if k ∈ s.posted ∧ k ∉ s.acked ∧ ∀ j < (calls.getD k []).length, ⟨k, j⟩ ∈ s.synPolled then some (s.ack calls k)
      else none
  | .receive w =>
      match s.channel w with
      | m :: rest => some (s.receive w m rest)
      | [] => none
  | .execute w =>
      match s.queue w with
      | id :: rest => if id ∈ s.ackedAt w then some (s.execute w id rest) else none
      | [] => none

/-- A computed move is a move. -/
theorem step_sound
    {s t : State}
    {action : Action}
    (computed : step calls s action = some t) :
    Step calls s action t := by
  cases action with
  | post k =>
      simp only [step] at computed
      split_ifs at computed with enabled
      cases computed
      exact .post enabled.1 enabled.2
  | pollSyn id =>
      simp only [step] at computed
      split_ifs at computed with enabled
      cases computed
      exact .pollSyn enabled.1 enabled.2
  | ack k =>
      simp only [step] at computed
      split_ifs at computed with enabled
      cases computed
      exact .ack enabled.1 enabled.2.1 enabled.2.2
  | receive w =>
      simp only [step] at computed
      split at computed
      · cases computed
        exact .receive ‹_›
      · cases computed
  | execute w =>
      simp only [step] at computed
      split at computed
      · split_ifs at computed with acked
        cases computed
        exact .execute ‹_› acked
      · cases computed

/-- A move is computed by `step`. -/
theorem step_complete
    {s t : State}
    {action : Action}
    (moved : Step calls s action t) :
    step calls s action = some t := by
  cases moved with
  | post isCall fresh => simp [step, isCall, fresh]
  | pollSyn replied fresh => simp [step, replied, fresh]
  | ack wasPosted fresh allReplied => rw [step, if_pos ⟨wasPosted, fresh, allReplied⟩]
  | receive head => simp [step, head]
  | execute head acked => simp [step, head, acked]

/-- A run of moves from a state, computed: `none` when some move is not enabled. -/
def run : State → List Action → Option State
  | s, [] => some s
  | s, action :: rest => (step calls s action).bind fun t => run t rest

/-- A run in which every move is enabled ends in a reachable state. -/
theorem reachable_run_getD
    {s : State}
    {actions : List Action}
    (start : Reachable calls s)
    (enabled : (run calls s actions).isSome = true) :
    Reachable calls ((run calls s actions).getD s) := by
  induction actions generalizing s with
  | nil => exact start
  | cons action rest inductionHypothesis =>
      simp only [run] at enabled ⊢
      cases computed : step calls s action with
      | none => simp [computed] at enabled
      | some t =>
          simp only [computed, Option.some_bind] at enabled ⊢
          have continued := inductionHypothesis (start.step (step_sound calls computed)) enabled
          obtain ⟨u, ended⟩ := Option.isSome_iff_exists.mp enabled
          simpa [ended] using continued

/-! ## What the master has posted -/

/-- Call `k` posts a request to `w` exactly when the request is one of `k`'s slots and `w` is its worker. -/
theorem mem_requestsTo
    {k w : Nat}
    {id : RequestId} :
    id ∈ requestsTo calls k w ↔ id.call = k ∧ id.slot < (calls.getD k []).length ∧ workerOf calls id = w := by
  obtain ⟨call, slot⟩ := id
  simp only [requestsTo, workerOf, List.mem_map, List.mem_filter, List.mem_range, decide_eq_true_eq,
    RequestId.mk.injEq]
  constructor
  · rintro ⟨j, ⟨below, worker⟩, rfl, rfl⟩
    exact ⟨rfl, below, worker⟩
  · rintro ⟨rfl, below, worker⟩
    exact ⟨slot, ⟨below, worker⟩, rfl, rfl⟩

/-- A request is in the post log of `w` exactly when its call was posted, its slot is one of the call's, and `w` is its worker. -/
theorem mem_postLog
    {posted : List Nat}
    {w : Nat}
    {id : RequestId} :
    id ∈ postLog calls posted w ↔
      id.call ∈ posted ∧ id.slot < (calls.getD id.call []).length ∧ workerOf calls id = w := by
  simp only [postLog, List.mem_flatMap, mem_requestsTo]
  constructor
  · rintro ⟨k, posted, rfl, below, worker⟩
    exact ⟨posted, below, worker⟩
  · rintro ⟨posted, below, worker⟩
    exact ⟨_, posted, rfl, below, worker⟩

/-- Posting call `k` appends its requests to `w` to the post log of `w`. -/
@[simp]
theorem postLog_append
    (posted : List Nat)
    (k w : Nat) :
    postLog calls (posted ++ [k]) w = postLog calls posted w ++ requestsTo calls k w := by
  simp [postLog]

/-- A post log of calls posted once each has no request twice. -/
theorem nodup_postLog
    {posted : List Nat}
    (postedNodup : posted.Nodup)
    (w : Nat) :
    (postLog calls posted w).Nodup := by
  refine List.nodup_flatMap.mpr ⟨fun k _ => ?_, postedNodup.imp fun distinct => ?_⟩
  · exact ((List.nodup_range _).filter _).map fun _ _ same => (RequestId.mk.inj same).2
  · exact fun id first second => distinct (((mem_requestsTo calls).mp first).1.symm.trans ((mem_requestsTo calls).mp second).1)

/-! ## The invariant -/

/-- What holds in every reachable state. -/
structure Invariant (s : State) : Prop where
  postedNodup : s.posted.Nodup
  ackedPosted : ∀ k ∈ s.acked, k ∈ s.posted
  /-- A worker's started requests, its queue and the requests still on its stream are, in this order, what the master posted to it. -/
  fifo : ∀ w, s.executed w ++ s.queue w ++ (s.channel w).filterMap Message.request? = postLog calls s.posted w
  acksAcked : ∀ w id, Message.ack id ∈ s.channel w → id.call ∈ s.acked
  /-- An ack on the stream of `w` is for a request of its call's slots addressed to `w`. -/
  acksAddressed : ∀ w id, Message.ack id ∈ s.channel w → id.slot < (calls.getD id.call []).length ∧ workerOf calls id = w
  ackedAtAcked : ∀ w, ∀ id ∈ s.ackedAt w, id.call ∈ s.acked
  repliesBeforeAck : ∀ k ∈ s.acked, ∀ j < (calls.getD k []).length, ⟨k, j⟩ ∈ s.synPolled
  polledSent : ∀ id ∈ s.synPolled, id ∈ s.synSent
  sentQueued : ∀ id ∈ s.synSent, id ∈ s.executed (workerOf calls id) ++ s.queue (workerOf calls id)
  queuedSent : ∀ w, ∀ id ∈ s.executed w ++ s.queue w, id ∈ s.synSent
  executedAcked : ∀ w, ∀ id ∈ s.executed w, id ∈ s.ackedAt w
  /-- Every ack the master posted is on its worker's stream or received. -/
  acksDelivered : ∀ k ∈ s.acked, ∀ j < (calls.getD k []).length,
    Message.ack ⟨k, j⟩ ∈ s.channel (workerOf calls ⟨k, j⟩) ∨ ⟨k, j⟩ ∈ s.ackedAt (workerOf calls ⟨k, j⟩)

/-- The start satisfies the invariant. -/
theorem invariant_init : Invariant calls .init where
  postedNodup := List.nodup_nil
  ackedPosted := by simp [State.init]
  fifo := by simp [State.init, postLog]
  acksAcked := by simp [State.init]
  acksAddressed := by simp [State.init]
  ackedAtAcked := by simp [State.init]
  repliesBeforeAck := by simp [State.init]
  polledSent := by simp [State.init]
  sentQueued := by simp [State.init]
  queuedSent := by simp [State.init]
  executedAcked := by simp [State.init]
  acksDelivered := by simp [State.init]

/-- A message still on a stream after worker `w` took its head was on that stream before. -/
theorem mem_channel_of_mem_update
    {s : State}
    {w w' : Nat}
    {m m' : Message}
    {rest : List Message}
    (head : s.channel w = m :: rest)
    (remaining : m' ∈ Function.update s.channel w rest w') :
    m' ∈ s.channel w' := by
  rw [Function.update_apply] at remaining
  split_ifs at remaining with same
  · rw [same, head]
    exact List.mem_cons_of_mem m remaining
  · exact remaining

section Preservation

variable {calls} {s : State} (inv : Invariant calls s)
include inv

/-- A request on the stream of `w` is addressed to `w`. -/
theorem workerOf_of_mem_channel
    {w : Nat}
    {id : RequestId}
    (onStream : Message.request id ∈ s.channel w) :
    workerOf calls id = w := by
  have logged : id ∈ postLog calls s.posted w := by
    rw [← inv.fifo w]
    exact List.mem_append_right _ (List.mem_filterMap.mpr ⟨_, onStream, rfl⟩)
  exact ((mem_postLog calls).mp logged).2.2

/-- Posting a fresh call keeps the invariant. -/
theorem invariant_post
    {k : Nat}
    (fresh : k ∉ s.posted) :
    Invariant calls (s.post calls k) :=
  { inv with
    postedNodup := inv.postedNodup.append (List.nodup_singleton k) (List.disjoint_singleton.mpr fresh)
    ackedPosted := fun k' acked => List.mem_append_left _ (inv.ackedPosted k' acked)
    fifo := fun w => by simp [State.post, ← inv.fifo w, Function.comp_def]
    acksAcked := fun w id onStream => inv.acksAcked w id (by simpa [State.post] using onStream)
    acksAddressed := fun w id onStream => inv.acksAddressed w id (by simpa [State.post] using onStream)
    acksDelivered := fun k' acked j below =>
      (inv.acksDelivered k' acked j below).imp (fun onStream => List.mem_append_left _ onStream) id }

/-- Polling a reply that was sent keeps the invariant. -/
theorem invariant_pollSyn
    {id : RequestId}
    (replied : id ∈ s.synSent) :
    Invariant calls (s.pollSyn id) :=
  { inv with
    repliesBeforeAck := fun k acked j below => List.mem_append_left _ (inv.repliesBeforeAck k acked j below)
    polledSent := fun id' polled => by
      rcases List.mem_append.mp polled with old | new
      · exact inv.polledSent id' old
      · rw [List.mem_singleton.mp new]
        exact replied }

/-- Acking a posted call whose replies are all polled keeps the invariant. -/
theorem invariant_ack
    {k : Nat}
    (wasPosted : k ∈ s.posted)
    (allReplied : ∀ j < (calls.getD k []).length, ⟨k, j⟩ ∈ s.synPolled) :
    Invariant calls (s.ack calls k) :=
  { inv with
    ackedPosted := fun k' acked => by
      rcases List.mem_append.mp acked with old | new
      · exact inv.ackedPosted k' old
      · rw [List.mem_singleton.mp new]
        exact wasPosted
    fifo := fun w => by simp [State.ack, ← inv.fifo w, Function.comp_def]
    acksAcked := fun w id onStream => by
      simp only [State.ack, List.mem_append, List.mem_map, Message.ack.injEq, exists_eq_right] at onStream
      rcases onStream with old | new
      · exact List.mem_append_left _ (inv.acksAcked w id old)
      · simp [State.ack, ((mem_requestsTo calls).mp new).1]
    acksAddressed := fun w id onStream => by
      simp only [State.ack, List.mem_append, List.mem_map, Message.ack.injEq, exists_eq_right] at onStream
      rcases onStream with old | new
      · exact inv.acksAddressed w id old
      · obtain ⟨call, slot, worker⟩ := (mem_requestsTo calls).mp new
        exact ⟨call ▸ slot, worker⟩
    ackedAtAcked := fun w id received => List.mem_append_left _ (inv.ackedAtAcked w id received)
    repliesBeforeAck := fun k' acked => by
      rcases List.mem_append.mp acked with old | new
      · exact inv.repliesBeforeAck k' old
      · rw [List.mem_singleton.mp new]
        exact allReplied
    acksDelivered := fun k' acked j below => by
      rcases List.mem_append.mp acked with old | new
      · exact (inv.acksDelivered k' old j below).imp (fun onStream => List.mem_append_left _ onStream) id
      · rw [List.mem_singleton.mp new] at below ⊢
        exact .inl (List.mem_append_right _ (List.mem_map_of_mem _ ((mem_requestsTo calls).mpr ⟨rfl, below, rfl⟩))) }

/-- Receiving the head of a stream keeps the invariant. -/
theorem invariant_receive
    {w : Nat}
    {m : Message}
    {rest : List Message}
    (head : s.channel w = m :: rest) :
    Invariant calls (s.receive w m rest) := by
  have onStream : m ∈ s.channel w := head ▸ List.mem_cons_self m rest
  cases m with
  | request id =>
      have addressed : workerOf calls id = w := workerOf_of_mem_channel inv onStream
      have queued : ∀ w', (s.receive w (.request id) rest).executed w' ++ (s.receive w (.request id) rest).queue w' =
          s.executed w' ++ s.queue w' ++ if w' = w then [id] else [] := fun w' => by
        by_cases same : w' = w <;> simp [State.receive, Function.update_apply, same]
      exact { inv with
        fifo := fun w' => by
          have logged := inv.fifo w'
          by_cases same : w' = w
          · subst same
            simpa [State.receive, head] using logged
          · simpa [State.receive, Function.update_apply, same] using logged
        acksAcked := fun w' id' remaining => inv.acksAcked w' id' (mem_channel_of_mem_update head remaining)
        acksAddressed := fun w' id' remaining => inv.acksAddressed w' id' (mem_channel_of_mem_update head remaining)
        polledSent := fun id' polled => List.mem_append_left _ (inv.polledSent id' polled)
        sentQueued := fun id' sent => by
          rw [queued]
          rcases List.mem_append.mp sent with old | new
          · exact List.mem_append_left _ (inv.sentQueued id' old)
          · simp [List.mem_singleton.mp new, addressed]
        queuedSent := fun w' id' mem => by
          rw [queued] at mem
          rcases List.mem_append.mp mem with old | new
          · exact List.mem_append_left _ (inv.queuedSent w' id' old)
          · split_ifs at new
            · simp_all [State.receive]
            · simp at new
        acksDelivered := fun k acked j below => (inv.acksDelivered k acked j below).imp (fun onStream' => by
          simp only [State.receive, Function.update_apply]
          split_ifs with same
          · simpa [same, head] using onStream'
          · exact onStream') fun received => received }
  | ack id =>
      have ackedCall : id.call ∈ s.acked := inv.acksAcked w id onStream
      exact { inv with
        fifo := fun w' => by
          have logged := inv.fifo w'
          by_cases same : w' = w
          · subst same
            simpa [State.receive, head] using logged
          · simpa [State.receive, Function.update_apply, same] using logged
        acksAcked := fun w' id' remaining => inv.acksAcked w' id' (mem_channel_of_mem_update head remaining)
        acksAddressed := fun w' id' remaining => inv.acksAddressed w' id' (mem_channel_of_mem_update head remaining)
        ackedAtAcked := fun w' id' received => by
          simp only [State.receive, Function.update_apply] at received
          split_ifs at received
          · rcases List.mem_append.mp received with old | new
            · exact inv.ackedAtAcked w id' old
            · rwa [List.mem_singleton.mp new]
          · exact inv.ackedAtAcked w' id' received
        executedAcked := fun w' id' started => by
          simp only [State.receive, Function.update_apply]
          split_ifs with same
          · subst same
            exact List.mem_append_left _ (inv.executedAcked w' id' started)
          · exact inv.executedAcked w' id' started
        acksDelivered := fun k acked j below => by
          rcases inv.acksDelivered k acked j below with onStream' | received
          · simp only [State.receive, Function.update_apply]
            split_ifs with same
            · rw [same, head, List.mem_cons, Message.ack.injEq] at onStream'
              rcases onStream' with rfl | later
              · exact .inr (by simp)
              · exact .inl later
            · exact .inl onStream'
          · refine .inr ?_
            simp only [State.receive, Function.update_apply]
            split_ifs with same
            · exact List.mem_append_left _ (same ▸ received)
            · exact received }

/-- Starting the head of a queue once it is acked keeps the invariant. -/
theorem invariant_execute
    {w : Nat}
    {id : RequestId}
    {rest : List RequestId}
    (head : s.queue w = id :: rest)
    (acked : id ∈ s.ackedAt w) :
    Invariant calls (s.execute w id rest) := by
  have moved : ∀ w', (s.execute w id rest).executed w' ++ (s.execute w id rest).queue w' =
      s.executed w' ++ s.queue w' := fun w' => by
    by_cases same : w' = w
    · subst same
      simp [State.execute, head]
    · simp [State.execute, Function.update_apply, same]
  exact { inv with
    fifo := fun w' => by rw [moved]; exact inv.fifo w'
    sentQueued := fun id' sent => by rw [moved]; exact inv.sentQueued id' sent
    queuedSent := fun w' id' mem => inv.queuedSent w' id' (by rwa [moved] at mem)
    executedAcked := fun w' id' started => by
      simp only [State.execute, Function.update_apply] at started
      split_ifs at started with same
      · rcases List.mem_append.mp started with old | new
        · exact inv.executedAcked w id' old |> (same ▸ ·)
        · rw [List.mem_singleton.mp new, same]
          exact acked
      · exact inv.executedAcked w' id' started }

end Preservation

/-- Every move keeps the invariant. -/
theorem invariant_step
    {s t : State}
    {action : Action}
    (inv : Invariant calls s)
    (moved : Step calls s action t) :
    Invariant calls t := by
  cases moved with
  | post _ fresh => exact invariant_post inv fresh
  | pollSyn replied _ => exact invariant_pollSyn inv replied
  | ack wasPosted _ allReplied => exact invariant_ack inv wasPosted allReplied
  | receive head => exact invariant_receive inv head
  | execute head acked => exact invariant_execute inv head acked

/-- Every reachable state satisfies the invariant. -/
theorem invariant_of_reachable
    {s : State}
    (reachable : Reachable calls s) :
    Invariant calls s := by
  induction reachable with
  | init => exact invariant_init calls
  | step _ moved inv => exact invariant_step calls inv moved

/-! ## Safety over every run -/

namespace Invariant

variable {calls} {s : State} (inv : Invariant calls s)
include inv

/-- Every request of the call of a started request is queued or started at its worker. -/
theorem callQueued
    {w : Nat}
    {id : RequestId}
    (started : id ∈ s.executed w) :
    ∀ j < (calls.getD id.call []).length,
      (⟨id.call, j⟩ : RequestId) ∈ s.executed (workerOf calls ⟨id.call, j⟩) ++ s.queue (workerOf calls ⟨id.call, j⟩) := by
  have ackedCall := inv.ackedAtAcked w id (inv.executedAcked w id started)
  exact fun j below => inv.sentQueued _ (inv.polledSent _ (inv.repliesBeforeAck _ ackedCall j below))

/-- What a worker has started is a prefix of what the master posted to it. -/
theorem executedPrefix
    (w : Nat) :
    s.executed w <+: postLog calls s.posted w :=
  ⟨_, by rw [← inv.fifo w, List.append_assoc]⟩

/--
A state in which some stream or queue is not empty has a move other than posting a call: a stream
has a message to take, a reply is there to poll, a call has all its replies and can be acked, or
the head of a queue is acked and can start.
-/
theorem exists_step_of_pending
    (pending : ∃ w, s.channel w ≠ [] ∨ s.queue w ≠ []) :
    ∃ action t, (∀ k, action ≠ .post k) ∧ Step calls s action t := by
  by_cases streaming : ∃ w', s.channel w' ≠ []
  · obtain ⟨w', nonempty⟩ := streaming
    obtain ⟨m, rest, head⟩ := List.exists_cons_of_ne_nil nonempty
    exact ⟨_, _, fun _ => by simp, .receive head⟩
  push_neg at streaming
  obtain ⟨w, channelOrQueue⟩ := pending
  have queued : s.queue w ≠ [] := channelOrQueue.resolve_left (not_not.mpr (streaming w))
  by_cases unpolled : ∃ id ∈ s.synSent, id ∉ s.synPolled
  · obtain ⟨id, sent, fresh⟩ := unpolled
    exact ⟨_, _, fun _ => by simp, .pollSyn sent fresh⟩
  push_neg at unpolled
  obtain ⟨id, rest, head⟩ := List.exists_cons_of_ne_nil queued
  by_cases ackedHere : id ∈ s.ackedAt w
  · exact ⟨_, _, fun _ => by simp, .execute head ackedHere⟩
  have logged : id ∈ postLog calls s.posted w := by
    rw [← inv.fifo w]
    simp [head]
  obtain ⟨posted, slot, worker⟩ := (mem_postLog calls).mp logged
  -- the call is not acked: its ack to `w` would be on the empty stream or already received
  have notAcked : id.call ∉ s.acked := fun ackedCall => by
    rcases inv.acksDelivered _ ackedCall _ slot with onStream | received
    · simp [streaming] at onStream
    · exact ackedHere (by simpa [worker] using received)
  -- every request of the call has left the empty streams, so it was queued and answered
  refine ⟨_, _, fun _ => by simp, .ack posted notAcked fun j below => unpolled _ ?_⟩
  have received := (mem_postLog calls).mpr (⟨posted, below, rfl⟩ : (⟨id.call, j⟩ : RequestId).call ∈ s.posted ∧ _ ∧ _)
  rw [← inv.fifo, streaming] at received
  exact inv.queuedSent _ _ (by simpa using received)

end Invariant

/--
A worker starts a request only when every worker of its call has queued its own request of that
call: the ack comes after every reply on `syn_reply_id`, and a worker replies once it has queued.
-/
theorem queued_of_executed
    {s : State}
    (reachable : Reachable calls s)
    {w : Nat}
    {id : RequestId}
    (started : id ∈ s.executed w) :
    ∀ j < (calls.getD id.call []).length,
      (⟨id.call, j⟩ : RequestId) ∈ s.executed (workerOf calls ⟨id.call, j⟩) ++ s.queue (workerOf calls ⟨id.call, j⟩) :=
  (invariant_of_reachable calls reachable).callQueued started

/-- A worker starts requests in the order the master posted them to it. -/
theorem executed_prefix_postLog
    {s : State}
    (reachable : Reachable calls s)
    (w : Nat) :
    s.executed w <+: postLog calls s.posted w :=
  (invariant_of_reachable calls reachable).executedPrefix w

/-- A worker never starts a request twice. -/
theorem executed_nodup
    {s : State}
    (reachable : Reachable calls s)
    (w : Nat) :
    (s.executed w).Nodup :=
  have inv := invariant_of_reachable calls reachable
  (inv.executedPrefix w).sublist.nodup (nodup_postLog calls inv.postedNodup w)

/--
Two workers start the requests of two calls in the same order: if worker `A` started its request
`a₁` of one call before its request `a₂` of another, and worker `B` has started its request `b₂`
of the second call, then `B` started its request `b₁` of the first call, and before `b₂`.
-/
theorem executed_order_agrees
    {s : State}
    (reachable : Reachable calls s)
    {A B : Nat}
    {a₁ a₂ b₁ b₂ : RequestId}
    (differentCalls : a₁.call ≠ a₂.call)
    (firstCall : b₁.call = a₁.call)
    (secondCall : b₂.call = a₂.call)
    (addressed : b₁ ∈ requestsTo calls b₁.call B)
    (orderAtA : [a₁, a₂].Sublist (s.executed A))
    (startedAtB : b₂ ∈ s.executed B) :
    [b₁, b₂].Sublist (s.executed B) := by
  have inv := invariant_of_reachable calls reachable
  have callOrder : [a₁.call, a₂.call].Sublist s.posted :=
    pair_sublist_of_flatMap (fun k id mem => ((mem_requestsTo calls).mp mem).1)
      (orderAtA.trans (inv.executedPrefix A).sublist) differentCalls
  have loggedAtB := (mem_postLog calls).mp ((inv.executedPrefix B).subset startedAtB)
  have secondAddressed : b₂ ∈ requestsTo calls a₂.call B :=
    (mem_requestsTo calls).mpr ⟨secondCall, secondCall ▸ loggedAtB.2.1, loggedAtB.2.2⟩
  exact pair_sublist_of_isPrefix (inv.executedPrefix B) (nodup_postLog calls inv.postedNodup B)
    (pair_sublist_flatMap callOrder (firstCall ▸ addressed) secondAddressed) startedAtB

/--
No deadlock: in a state in which some worker has a queued request, the handshake can move
without the master posting a new call: a stream has a message to take, a reply is there to poll,
a call has all its replies and can be acked, or the head of a queue is acked and can start.
-/
theorem exists_step_of_queued
    {s : State}
    (reachable : Reachable calls s)
    {w : Nat}
    (pending : s.queue w ≠ []) :
    ∃ action t, (∀ k, action ≠ .post k) ∧ Step calls s action t :=
  (invariant_of_reachable calls reachable).exists_step_of_pending ⟨w, .inr pending⟩

end Protocol

/-! ## A run -/

/-- Two calls over workers `0` and `1`, which address them in opposite slot orders. -/
def crossedCalls : List (List Nat) :=
  [[0, 1], [1, 0]]

/-- Both calls posted, every request queued and answered, both calls acked and every ack received. -/
def crossedAcked : State :=
  (run crossedCalls .init
    [.post 0, .post 1, .receive 0, .receive 0, .receive 1, .receive 1,
      .pollSyn ⟨0, 0⟩, .pollSyn ⟨1, 1⟩, .pollSyn ⟨0, 1⟩, .pollSyn ⟨1, 0⟩, .ack 0, .ack 1,
      .receive 0, .receive 0, .receive 1, .receive 1]).getD .init

/-- Every move of the run above is enabled. -/
theorem crossedAcked_reachable : Reachable crossedCalls crossedAcked :=
  reachable_run_getD _ .init (by decide)

/-- Then both workers start both their requests. -/
def crossedStarted : State :=
  (run crossedCalls crossedAcked [.execute 0, .execute 0, .execute 1, .execute 1]).getD crossedAcked

/-- Every move of the run above is enabled. -/
theorem crossedStarted_reachable : Reachable crossedCalls crossedStarted :=
  reachable_run_getD _ crossedAcked_reachable (by decide)

/-- On the run above, worker `0`'s request of the second call was queued by both workers. -/
theorem queued_of_executed_crossed :
    Reachable crossedCalls crossedStarted ∧ ⟨1, 1⟩ ∈ crossedStarted.executed 0 ∧
      ∀ j < (crossedCalls.getD 1 []).length,
        (⟨1, j⟩ : RequestId) ∈ crossedStarted.executed (workerOf crossedCalls ⟨1, j⟩) ++
          crossedStarted.queue (workerOf crossedCalls ⟨1, j⟩) :=
  ⟨crossedStarted_reachable, by decide,
    queued_of_executed _ crossedStarted_reachable (show ⟨1, 1⟩ ∈ crossedStarted.executed 0 by decide)⟩

/-- On the run above, both workers started the first call before the second, whatever their slots. -/
theorem executed_order_agrees_crossed :
    Reachable crossedCalls crossedStarted ∧ (⟨0, 0⟩ : RequestId).call ≠ (⟨1, 1⟩ : RequestId).call ∧
      (⟨0, 1⟩ : RequestId).call = (⟨0, 0⟩ : RequestId).call ∧ (⟨1, 0⟩ : RequestId).call = (⟨1, 1⟩ : RequestId).call ∧
      ⟨0, 1⟩ ∈ requestsTo crossedCalls 0 1 ∧ [⟨0, 0⟩, ⟨1, 1⟩].Sublist (crossedStarted.executed 0) ∧
      ⟨1, 0⟩ ∈ crossedStarted.executed 1 ∧ [⟨0, 1⟩, ⟨1, 0⟩].Sublist (crossedStarted.executed 1) :=
  ⟨crossedStarted_reachable, by decide, rfl, rfl, by decide, by decide, by decide,
    @executed_order_agrees crossedCalls crossedStarted crossedStarted_reachable 0 1 ⟨0, 0⟩ ⟨1, 1⟩ ⟨0, 1⟩ ⟨1, 0⟩
      (by decide) rfl rfl (by decide) (by decide) (by decide)⟩

/-- Before any request starts, the run above can move without a new call. -/
theorem exists_step_of_queued_crossed :
    Reachable crossedCalls crossedAcked ∧ crossedAcked.queue 0 ≠ [] ∧
      ∃ action t, (∀ k, action ≠ .post k) ∧ Step crossedCalls crossedAcked action t :=
  ⟨crossedAcked_reachable, by decide,
    exists_step_of_queued _ crossedAcked_reachable (show crossedAcked.queue 0 ≠ [] by decide)⟩

end RealRlhf.Master.Handshake
