import RealRlhf.Master.Payloads
import RealRlhf.Master.Handshake

namespace RealRlhf.Master

/-!
# The handlers of a parameter synchronisation

`_request_parameter_sync` of `system/master_worker.py` addresses every shard of `from_model` in
rank order, then each shard of `to_model` whose worker holds none of the handlers so far, and
runs one handshake call with an `empty` payload carrying the `param_realloc` pre-hook. So a
worker that holds shards of both models receives the request of its `from_model` shard. The
handlers reach every worker of either model (`requestParameterSyncHandlers_workers`), once each
when the shards of `from_model` sit on distinct workers; and once the call is running on any
worker, every worker of either model has queued its request (`paramSync_queued_everywhere`).
-/

variable {ModelName : Type}

namespace Placement

variable (placement : Placement ModelName)

/-- One shard `h` of `to_model`: appended to `handlers`, and its worker to `all_handler_mwids`, when that worker holds no handler yet. -/
def addDstHandler (state : List (ModelShardId ModelName) × List Nat) (h : ModelShardId ModelName) :
    List (ModelShardId ModelName) × List Nat :=
  if placement.msid2mwid h ∉ state.2 then (state.1 ++ [h], state.2 ++ [placement.msid2mwid h]) else state

/-- The handlers of `_request_parameter_sync(stream, msid2mwid, from_model_name, to_model_name, ...)`, in post order. -/
def requestParameterSyncHandlers (fromModelName toModelName : ModelName) : List (ModelShardId ModelName) :=
  ((placement.handlers toModelName).foldl placement.addDstHandler
    (placement.handlers fromModelName, placement.workers fromModelName)).1

/--
The loop over the shards `dst` of `to_model`, from handlers `H` whose workers are `M`, appends the
shards `E` of a sublist of `dst`: each on a worker outside `M`, no two on one worker, and every
shard of `dst` sits on a worker of `M` or of `E`.
-/
theorem foldl_addDstHandler :
    ∀ (dst H : List (ModelShardId ModelName)) (M : List Nat),
      ∃ E, dst.foldl placement.addDstHandler (H, M) = (H ++ E, M ++ E.map placement.msid2mwid) ∧
        E.Sublist dst ∧ (∀ h ∈ E, placement.msid2mwid h ∉ M) ∧ (E.map placement.msid2mwid).Nodup ∧
        ∀ h ∈ dst, placement.msid2mwid h ∈ M ∨ placement.msid2mwid h ∈ E.map placement.msid2mwid
  | [], H, M => ⟨[], by simp⟩
  | h :: dst, H, M => by
      by_cases covered : placement.msid2mwid h ∈ M
      · obtain ⟨E, run, sublist, fresh, distinct, reached⟩ := foldl_addDstHandler dst H M
        refine ⟨E, by simpa [addDstHandler, covered] using run, sublist.cons h, fresh, distinct, ?_⟩
        simpa [covered] using reached
      · obtain ⟨E, run, sublist, fresh, distinct, reached⟩ :=
          foldl_addDstHandler dst (H ++ [h]) (M ++ [placement.msid2mwid h])
        refine ⟨h :: E, by simpa [addDstHandler, covered] using run, sublist.cons₂ h, ?_, ?_, ?_⟩
        · simp only [List.mem_cons, forall_eq_or_imp]
          exact ⟨covered, fun h' member => fun old => fresh h' member (List.mem_append_left _ old)⟩
        · refine List.nodup_cons.mpr ⟨fun again => ?_, distinct⟩
          obtain ⟨h', member, same⟩ := List.mem_map.mp again
          exact fresh h' member (by simp [same])
        · intro h' member
          rw [List.map_cons]
          rcases List.mem_cons.mp member with rfl | later
          · exact .inr (List.mem_cons_self _ _)
          · rcases reached h' later with old | new
            · rcases List.mem_append.mp old with old | this
              · exact .inl old
              · exact .inr (by rw [List.mem_singleton.mp this]; exact List.mem_cons_self _ _)
            · exact .inr (List.mem_cons_of_mem _ new)

/-- The handlers are the shards of `from_model` followed by the shards `extra` the loop keeps. -/
theorem requestParameterSyncHandlers_eq
    (fromModelName toModelName : ModelName) :
    ∃ extra, placement.requestParameterSyncHandlers fromModelName toModelName = placement.handlers fromModelName ++ extra ∧
      extra.Sublist (placement.handlers toModelName) ∧
      (∀ h ∈ extra, placement.msid2mwid h ∉ placement.workers fromModelName) ∧ (extra.map placement.msid2mwid).Nodup ∧
      ∀ h ∈ placement.handlers toModelName,
        placement.msid2mwid h ∈ placement.workers fromModelName ∨ placement.msid2mwid h ∈ extra.map placement.msid2mwid := by
  obtain ⟨extra, run, rest⟩ := placement.foldl_addDstHandler (placement.handlers toModelName)
    (placement.handlers fromModelName) (placement.workers fromModelName)
  exact ⟨extra, by rw [requestParameterSyncHandlers, run], rest⟩

/-- The workers of the handlers are exactly the workers of either model. -/
theorem mem_workers_requestParameterSyncHandlers
    (fromModelName toModelName : ModelName)
    (w : Nat) :
    w ∈ (placement.requestParameterSyncHandlers fromModelName toModelName).map placement.msid2mwid ↔
      w ∈ placement.workers fromModelName ∨ w ∈ placement.workers toModelName := by
  obtain ⟨extra, handlers, sublist, -, -, reached⟩ := placement.requestParameterSyncHandlers_eq fromModelName toModelName
  rw [handlers, List.map_append, List.mem_append, ← workers]
  constructor
  · rintro (fromWorker | extraWorker)
    · exact .inl fromWorker
    · obtain ⟨h, member, rfl⟩ := List.mem_map.mp extraWorker
      exact .inr (List.mem_map_of_mem _ (sublist.subset member))
  · rintro (fromWorker | toWorker)
    · exact .inl fromWorker
    · obtain ⟨h, member, rfl⟩ := List.mem_map.mp toWorker
      exact reached h member

/--
The handlers are the shards of `from_model` in rank order followed by some shards of `to_model`
in rank order, each on a worker holding no shard of `from_model`; their workers are exactly the
workers of either model, and, when the shards of `from_model` sit on distinct workers, each
worker appears once.
-/
theorem requestParameterSyncHandlers_workers
    (fromModelName toModelName : ModelName) :
    (∃ extra, placement.requestParameterSyncHandlers fromModelName toModelName =
        placement.handlers fromModelName ++ extra ∧ extra.Sublist (placement.handlers toModelName) ∧
        ∀ h ∈ extra, placement.msid2mwid h ∉ placement.workers fromModelName) ∧
      (∀ w, w ∈ (placement.requestParameterSyncHandlers fromModelName toModelName).map placement.msid2mwid ↔
        w ∈ placement.workers fromModelName ∨ w ∈ placement.workers toModelName) ∧
      ((placement.workers fromModelName).Nodup →
        ((placement.requestParameterSyncHandlers fromModelName toModelName).map placement.msid2mwid).Nodup) := by
  obtain ⟨extra, handlers, sublist, fresh, distinct, -⟩ := placement.requestParameterSyncHandlers_eq fromModelName toModelName
  refine ⟨⟨extra, handlers, sublist, fresh⟩, placement.mem_workers_requestParameterSyncHandlers fromModelName toModelName,
    fun spread => ?_⟩
  rw [handlers, List.map_append, ← workers]
  exact spread.append distinct fun w fromWorker extraWorker => by
    obtain ⟨h, member, rfl⟩ := List.mem_map.mp extraWorker
    exact fresh h member fromWorker

end Placement

/--
Once the handshake call that `_request_parameter_sync` posts runs on any worker, every worker
holding a shard of `from_model` or of `to_model` has queued its request of that call: no worker
starts reallocating parameters before every participant has received the request.
-/
theorem paramSync_queued_everywhere
    (placement : Placement ModelName)
    {fromModelName toModelName : ModelName}
    {calls : List (List Nat)}
    {s : Handshake.State}
    (reachable : Handshake.Reachable calls s)
    {k : Nat}
    (isSync : calls.getD k [] =
      (placement.requestParameterSyncHandlers fromModelName toModelName).map placement.msid2mwid)
    {w : Nat}
    {id : Handshake.RequestId}
    (started : id ∈ s.executed w)
    (ofSync : id.call = k)
    {w' : Nat}
    (holdsShard : w' ∈ placement.workers fromModelName ∨ w' ∈ placement.workers toModelName) :
    ∃ j, Handshake.workerOf calls ⟨k, j⟩ = w' ∧ (⟨k, j⟩ : Handshake.RequestId) ∈ s.executed w' ++ s.queue w' := by
  have addressed := (placement.mem_workers_requestParameterSyncHandlers fromModelName toModelName w').mpr holdsShard
  rw [← isSync] at addressed
  obtain ⟨j, below, slot⟩ := List.getElem_of_mem addressed
  have worker : Handshake.workerOf calls ⟨k, j⟩ = w' := by
    show (calls.getD k []).getD j 0 = w'
    rw [List.getD_eq_getElem?_getD, List.getElem?_eq_getElem below, Option.getD_some, slot]
  refine ⟨j, worker, ?_⟩
  have queued := (Handshake.invariant_of_reachable calls reachable).callQueued started j (by rw [ofSync]; exact below)
  rwa [ofSync, worker] at queued

/-! ## A synchronisation -/

/-- The handshake call of a parameter synchronisation from model `1` to model `0` of `sidePlacement`. -/
def syncCalls : List (List Nat) :=
  [(sidePlacement.requestParameterSyncHandlers 1 0).map sidePlacement.msid2mwid]

/-- Model `1`'s shards go to workers `1`, `2` and `3`; model `0`'s shard on worker `1` is left out. -/
example : syncCalls = [[1, 2, 3, 0]] := by decide

/-- The call posted, queued and answered everywhere, acked, and started on worker `0`. -/
def syncStarted : Handshake.State :=
  (Handshake.run syncCalls .init
    [.post 0, .receive 0, .receive 1, .receive 2, .receive 3,
      .pollSyn ⟨0, 0⟩, .pollSyn ⟨0, 1⟩, .pollSyn ⟨0, 2⟩, .pollSyn ⟨0, 3⟩, .ack 0,
      .receive 0, .execute 0]).getD .init

/-- Every move of the run above is enabled. -/
theorem syncStarted_reachable : Handshake.Reachable syncCalls syncStarted :=
  Handshake.reachable_run_getD _ .init (by decide)

/-- On the run above, worker `2`, which holds shards of model `1` only, has queued its request when worker `0` starts. -/
theorem paramSync_queued_everywhere_side :
    Handshake.Reachable syncCalls syncStarted ∧ syncCalls.getD 0 [] =
        (sidePlacement.requestParameterSyncHandlers 1 0).map sidePlacement.msid2mwid ∧
      ⟨0, 3⟩ ∈ syncStarted.executed 0 ∧ (⟨0, 3⟩ : Handshake.RequestId).call = 0 ∧
      (2 ∈ sidePlacement.workers 1 ∨ 2 ∈ sidePlacement.workers 0) ∧
      ∃ j, Handshake.workerOf syncCalls ⟨0, j⟩ = 2 ∧ (⟨0, j⟩ : Handshake.RequestId) ∈ syncStarted.executed 2 ++ syncStarted.queue 2 :=
  ⟨syncStarted_reachable, rfl, by decide, rfl, by decide,
    @paramSync_queued_everywhere Nat sidePlacement 1 0 syncCalls syncStarted syncStarted_reachable 0 rfl 0 ⟨0, 3⟩
      (by decide) rfl 2 (by decide)⟩

end RealRlhf.Master
