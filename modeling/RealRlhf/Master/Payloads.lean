import RealRlhf.Master.Dfg

namespace RealRlhf.Master

/-!
# The payloads of a call

`scatter_tensor_to_mws` posts one call of an RPC to every model worker that takes part in
it. It builds a dict from shards to payloads, in insertion order: a payload with the
`data_transfer` pre-hook for each shard of the RPC's model (its primary handlers), then one
for each shard of a producing model on a worker not yet addressed. `_attach_payloads_with_hooks`
then appends `param_realloc` and `offload`, for the RPC's `pre_hooks` and then for its
`post_hooks`; a worker that holds only a shard of the other endpoint of a `SyncParamHook`
gets an `empty` payload that carries the hook. `mwids` lists the addressed worker ids. The
payloads of the primary handlers are posted first, in handler order: the reply coroutine
picks the replies of the dp heads by their position.

While the dict is built it holds one payload per worker id, the primary handlers first, and
each payload lists the hooks a ghost plan gives its worker (`Addressed`); each loop extends
the plan by what it appends. When the shards of each model sit on distinct workers, the plan
at the end is `plannedHooks`: `data_transfer` on the workers of the RPC's model and of its
producers, then one call for each hook that involves the worker, in the hooks' order
(`scatterTensorToMws_meets_plan`).
-/

variable {Key ModelName : Type}

/-- Modelled from the spec: a `ModelShardID`, a shard of a model named by its parallelism rank. -/
structure ModelShardId (ModelName : Type) where
  modelName : ModelName
  parallelismRank : Nat
  deriving Repr, DecidableEq

/-- A hook of a payload with the part of its hook data the master fills in: `data_transfer`, `param_realloc` with the endpoints of `ps_data`, or `offload` with its model. -/
inductive HookCall (ModelName : Type) where
  | dataTransfer
  | paramRealloc (fromModelName toModelName : ModelName)
  | offload (modelName : ModelName)
  deriving Repr, DecidableEq

/-- Whether a hook is `param_realloc`. -/
def HookCall.isParamRealloc : HookCall ModelName → Bool
  | .paramRealloc _ _ => true
  | _ => false

/-- The `handle_name` of a payload: the RPC's interface type, or `empty` for one that only carries hooks. -/
inductive HandleName where
  | interface (interfaceType : ModelInterfaceType)
  | empty
  deriving Repr, DecidableEq

/-- The `hook_type` argument of `_attach_payloads_with_hooks`. -/
inductive HookType where
  | pre
  | post
  deriving Repr, DecidableEq

/-- Modelled from the spec: a request `Payload` as the master builds it, each hook paired with its data. -/
structure Payload (ModelName : Type) where
  handler : ModelShardId ModelName
  handleName : HandleName
  preHooks : List (HookCall ModelName)
  postHooks : List (HookCall ModelName)
  deriving Repr, DecidableEq

namespace Payload

/-- `getattr(payload, f"{hook_type}_hooks")`. -/
def hooks (payload : Payload ModelName) : HookType → List (HookCall ModelName)
  | .pre => payload.preHooks
  | .post => payload.postHooks

/-- `setattr(payload, f"{hook_type}_hooks", calls)`. -/
def setHooks (payload : Payload ModelName) (hookType : HookType) (calls : List (HookCall ModelName)) :
    Payload ModelName :=
  match hookType with
  | .pre => { payload with preHooks := calls }
  | .post => { payload with postHooks := calls }

/-- `getattr(payload, f"{hook_type}_hooks").append(call)`. -/
def appendHook (payload : Payload ModelName) (hookType : HookType) (call : HookCall ModelName) :
    Payload ModelName :=
  payload.setHooks hookType (payload.hooks hookType ++ [call])

variable {payload : Payload ModelName} {hookType other : HookType} {calls : List (HookCall ModelName)}

@[simp] theorem handler_setHooks : (payload.setHooks hookType calls).handler = payload.handler := by
  cases hookType <;> rfl

@[simp] theorem handleName_setHooks : (payload.setHooks hookType calls).handleName = payload.handleName := by
  cases hookType <;> rfl

@[simp] theorem hooks_setHooks :
    (payload.setHooks hookType calls).hooks other = if other = hookType then calls else payload.hooks other := by
  cases hookType <;> cases other <;> rfl

variable {call : HookCall ModelName}

@[simp] theorem handler_appendHook : (payload.appendHook hookType call).handler = payload.handler :=
  handler_setHooks

@[simp] theorem handleName_appendHook : (payload.appendHook hookType call).handleName = payload.handleName :=
  handleName_setHooks

@[simp] theorem hooks_appendHook :
    (payload.appendHook hookType call).hooks other =
      if other = hookType then payload.hooks other ++ [call] else payload.hooks other := by
  cases hookType <;> cases other <;> rfl

end Payload

/-- Modelled from the spec: the world size of each model's topology, and `msid2mwid`, the model worker holding each shard. -/
structure Placement (ModelName : Type) where
  worldSize : ModelName → Nat
  msid2mwid : ModelShardId ModelName → Nat

namespace Placement

variable (placement : Placement ModelName)

/-- The shards of a model in rank order: `ModelShardID.from_parallelism_rank(model_name, topo, j)` for `j` below the world size. -/
def handlers (modelName : ModelName) : List (ModelShardId ModelName) :=
  (List.range (placement.worldSize modelName)).map (ModelShardId.mk modelName)

/-- The workers holding the shards of a model, in rank order. -/
def workers (modelName : ModelName) : List Nat :=
  (placement.handlers modelName).map placement.msid2mwid

/-- The shards of each model sit on pairwise distinct workers. -/
def ShardsSpread : Prop :=
  ∀ modelName, (placement.workers modelName).Nodup

/-- A shard of a model's handlers belongs to that model. -/
theorem modelName_of_mem_handlers
    {h : ModelShardId ModelName}
    {modelName : ModelName}
    (member : h ∈ placement.handlers modelName) :
    h.modelName = modelName := by
  obtain ⟨rank, -, rfl⟩ := List.mem_map.mp member
  rfl

end Placement

/-- The `payloads` dict of `scatter_tensor_to_mws`, in insertion order. -/
abbrev PayloadMap (ModelName : Type) :=
  List (ModelShardId ModelName × Payload ModelName)

/-- `getattr(rpc, f"{hook_type}_hooks")`. -/
def ModelRpc.hooks (rpc : ModelRpc Key ModelName) : HookType → List (RpcHook ModelName)
  | .pre => rpc.preHooks
  | .post => rpc.postHooks

namespace SyncParamHook

/-- The endpoint of the hook other than the RPC's own model `modelName`. -/
def other (hook : SyncParamHook ModelName) (modelName : ModelName) : ModelName :=
  hook.source.getD (hook.target.getD modelName)

/-- The hook's `param_realloc`, from `source` to `target`, the null endpoint being the RPC's model. -/
def call (hook : SyncParamHook ModelName) (modelName : ModelName) : HookCall ModelName :=
  .paramRealloc (hook.source.getD modelName) (hook.target.getD modelName)

end SyncParamHook

/--
The other endpoint of a `SyncParamHook` of an RPC on `modelName`, and the `param_realloc`
with `ps_data`'s `from_model_name` and `to_model_name`; `none` where the assert on the
endpoints fails.
-/
def syncParamCall (modelName : ModelName) (hook : SyncParamHook ModelName) : Option (ModelName × HookCall ModelName) :=
  match hook.source, hook.target with
  | none, some target => some (target, .paramRealloc modelName target)
  | some source, none => some (source, .paramRealloc source modelName)
  | _, _ => none

/-- The assert on a hook's endpoints holds: exactly one is null. -/
theorem syncParamCall_eq
    (modelName : ModelName)
    (hook : SyncParamHook ModelName) :
    syncParamCall modelName hook = some (hook.other modelName, hook.call modelName) := by
  rcases hook with ⟨_ | source, _ | target, oneNull⟩ <;> first | rfl | exact absurd rfl oneNull

variable [DecidableEq ModelName]

/-- `payloads[h] = payload`: a key already there keeps its place, a new one goes last. -/
def setPayload (payloads : PayloadMap ModelName) (h : ModelShardId ModelName) (payload : Payload ModelName) :
    PayloadMap ModelName :=
  if h ∈ payloads.map Prod.fst then payloads.map fun entry => if entry.1 = h then (h, payload) else entry
  else payloads ++ [(h, payload)]

/-- `getattr(payloads[h], f"{hook_type}_hooks").append(call)`; `none` where `payloads[h]` raises `KeyError`. -/
def appendHookAt (hookType : HookType) (call : HookCall ModelName) (payloads : PayloadMap ModelName)
    (h : ModelShardId ModelName) : Option (PayloadMap ModelName) :=
  if h ∈ payloads.map Prod.fst then
    some (payloads.map fun entry => (entry.1, if entry.1 = h then entry.2.appendHook hookType call else entry.2))
  else none

/--
One shard `h` of a `SyncParamHook`'s other endpoint: an `empty` payload carrying the hook for
a worker not yet addressed, the hook appended to the payload already addressing a worker that
holds no primary handler, and nothing on a primary handler's worker.
-/
def attachSide (placement : Placement ModelName) (mainMwids : List Nat) (hookType : HookType)
    (call : HookCall ModelName) (state : PayloadMap ModelName × List Nat) (h : ModelShardId ModelName) :
    Option (PayloadMap ModelName × List Nat) :=
  if placement.msid2mwid h ∉ state.2 then
    some (setPayload state.1 h ((Payload.mk h .empty [] []).setHooks hookType [call]),
      state.2 ++ [placement.msid2mwid h])
  else if placement.msid2mwid h ∉ mainMwids then do
    let entry ← state.1.find? fun entry => placement.msid2mwid entry.1 = placement.msid2mwid h
    let payloads ← appendHookAt hookType call state.1 entry.1
    pure (payloads, state.2)
  else some state

/-- One hook of `_attach_payloads_with_hooks`: a `SyncParamHook` on the primary handlers and then on the other endpoint's shards, an `OffloadHook` on the primary handlers. -/
def attachHook (placement : Placement ModelName) (modelName : ModelName) (mainHandlers : List (ModelShardId ModelName))
    (mainMwids : List Nat) (hookType : HookType) (state : PayloadMap ModelName × List Nat) :
    RpcHook ModelName → Option (PayloadMap ModelName × List Nat)
  | .syncParam hook => do
      let (other, call) ← syncParamCall modelName hook
      let payloads ← mainHandlers.foldlM (appendHookAt hookType call) state.1
      (placement.handlers other).foldlM (attachSide placement mainMwids hookType call) (payloads, state.2)
  | .offload => do
      let payloads ← mainHandlers.foldlM (fun payloads h => appendHookAt hookType (.offload h.modelName) payloads h)
        state.1
      pure (payloads, state.2)

/-- `_attach_payloads_with_hooks(rpc, payloads, mwids, main_handlers, hook_type)`. -/
def attachPayloadsWithHooks (placement : Placement ModelName) (rpc : ModelRpc Key ModelName)
    (mainHandlers : List (ModelShardId ModelName)) (hookType : HookType) (state : PayloadMap ModelName × List Nat) :
    Option (PayloadMap ModelName × List Nat) :=
  (rpc.hooks hookType).foldlM
    (attachHook placement rpc.modelName mainHandlers (mainHandlers.map placement.msid2mwid) hookType) state

/-- One shard `h` of a producer: a payload with the `data_transfer` pre-hook when its worker is not yet addressed. -/
def addProducer (placement : Placement ModelName) (state : PayloadMap ModelName × List Nat)
    (h : ModelShardId ModelName) : PayloadMap ModelName × List Nat :=
  if placement.msid2mwid h ∉ state.2 then
    (setPayload state.1 h ⟨h, .empty, [.dataTransfer], []⟩, state.2 ++ [placement.msid2mwid h])
  else state

/-- The loop over `producer_names.values()` and the shards of each producer. -/
def addProducers (placement : Placement ModelName) (producerNames : List ModelName)
    (state : PayloadMap ModelName × List Nat) : PayloadMap ModelName × List Nat :=
  producerNames.foldl (fun state name => (placement.handlers name).foldl (addProducer placement) state) state

/-- The dict of `scatter_tensor_to_mws` before it posts it, with `mwids`; `none` where an assert fails or a lookup raises. -/
def scatterPayloads (placement : Placement ModelName) (rpc : ModelRpc Key ModelName) (producerNames : List ModelName) :
    Option (PayloadMap ModelName × List Nat) := do
  let handlers := placement.handlers rpc.modelName
  let mwids := handlers.map placement.msid2mwid
  if mwids.Nodup then
    let state := addProducers placement producerNames
      (handlers.map fun h => (h, ⟨h, .interface rpc.interfaceType, [.dataTransfer], []⟩), mwids)
    let state ← attachPayloadsWithHooks placement rpc handlers .pre state
    attachPayloadsWithHooks placement rpc handlers .post state
  else none

/-- `scatter_tensor_to_mws`: the payloads it posts for `req_ids`, those of the primary handlers in dict order, and for `other_req_ids`. -/
def scatterTensorToMws (placement : Placement ModelName) (rpc : ModelRpc Key ModelName) (producerNames : List ModelName) :
    Option (List (Payload ModelName) × List (Payload ModelName)) :=
  (scatterPayloads placement rpc producerNames).map fun state =>
    ((state.1.filter fun entry => entry.1 ∈ placement.handlers rpc.modelName).map Prod.snd,
      (state.1.filter fun entry => entry.1 ∉ placement.handlers rpc.modelName).map Prod.snd)

section Plan

variable (placement : Placement ModelName)

/-- The call a hook asks of worker `w`: a `SyncParamHook`'s `param_realloc` where a shard of either endpoint sits, an `OffloadHook`'s `offload` where a shard of the RPC's model sits. -/
def hookCallAt (modelName : ModelName) (w : Nat) : RpcHook ModelName → Option (HookCall ModelName)
  | .syncParam hook =>
      if w ∈ placement.workers modelName ∨ w ∈ placement.workers (hook.other modelName) then some (hook.call modelName)
      else none
  | .offload => if w ∈ placement.workers modelName then some (.offload modelName) else none

/-- The workers a hook brings in besides the RPC's own: those of a `SyncParamHook`'s other endpoint. -/
def RpcHook.sideWorkers (modelName : ModelName) : RpcHook ModelName → List Nat
  | .syncParam hook => placement.workers (hook.other modelName)
  | .offload => []

/-- Worker `w` takes part in the data transfer: it holds a shard of the RPC's model or of a producer. -/
def TransfersData (modelName : ModelName) (producerNames : List ModelName) (w : Nat) : Prop :=
  w ∈ placement.workers modelName ∨ ∃ name ∈ producerNames, w ∈ placement.workers name

instance (modelName : ModelName) (producerNames : List ModelName) (w : Nat) :
    Decidable (TransfersData placement modelName producerNames w) :=
  inferInstanceAs (Decidable (_ ∨ _))

/-- The workers a call of `rpc` involves: those of its model, of its producers, and of the other endpoint of each of its `SyncParamHook`s. -/
def Involved (rpc : ModelRpc Key ModelName) (producerNames : List ModelName) (w : Nat) : Prop :=
  TransfersData placement rpc.modelName producerNames w ∨
    ∃ hook, RpcHook.syncParam hook ∈ rpc.preHooks ++ rpc.postHooks ∧ w ∈ placement.workers (hook.other rpc.modelName)

/-- The hooks of type `hookType` worker `w` must run for a call of `rpc`: `data_transfer` first where it takes part in the transfer, then one call for each hook involving it, in order. -/
def plannedHooks (rpc : ModelRpc Key ModelName) (producerNames : List ModelName) (hookType : HookType) (w : Nat) :
    List (HookCall ModelName) :=
  (if hookType = .pre ∧ TransfersData placement rpc.modelName producerNames w then [.dataTransfer] else []) ++
    (rpc.hooks hookType).filterMap (hookCallAt placement rpc.modelName w)

omit [DecidableEq ModelName] in
/-- A hook list brings in worker `w` exactly when one of its `SyncParamHook`s has its other endpoint on `w`. -/
theorem exists_sideWorkers_iff
    {modelName : ModelName}
    {hooks : List (RpcHook ModelName)}
    {w : Nat} :
    (∃ hook ∈ hooks, w ∈ RpcHook.sideWorkers placement modelName hook) ↔
      ∃ hook, RpcHook.syncParam hook ∈ hooks ∧ w ∈ placement.workers (hook.other modelName) := by
  constructor
  · rintro ⟨hook | _, member, side⟩
    · exact ⟨hook, member, side⟩
    · simp [RpcHook.sideWorkers] at side
  · rintro ⟨hook, member, side⟩
    exact ⟨_, member, side⟩

/-- The posted payloads carry out the plan: one per involved worker and none elsewhere, each with the hooks its worker must run, the primary handlers' first and in rank order. -/
structure MeetsPlan (rpc : ModelRpc Key ModelName) (producerNames : List ModelName)
    (primary others : List (Payload ModelName)) : Prop where
  onePerWorker : ((primary ++ others).map fun payload => placement.msid2mwid payload.handler).Nodup
  addressed : ∀ w, w ∈ (primary ++ others).map (fun payload => placement.msid2mwid payload.handler) ↔
    Involved placement rpc producerNames w
  hooks : ∀ payload ∈ primary ++ others, ∀ hookType,
    payload.hooks hookType = plannedHooks placement rpc producerNames hookType (placement.msid2mwid payload.handler)
  primaryInOrder : primary.map Payload.handler = placement.handlers rpc.modelName
  primaryName : ∀ payload ∈ primary, payload.handleName = .interface rpc.interfaceType
  othersEmpty : ∀ payload ∈ others, payload.handleName = .empty

omit [DecidableEq ModelName] in
/-- `hookCallAt` never asks for `data_transfer`. -/
theorem hookCallAt_ne_dataTransfer
    {modelName : ModelName}
    {w : Nat}
    (hook : RpcHook ModelName) :
    hookCallAt placement modelName w hook ≠ some .dataTransfer := by
  cases hook <;> simp only [hookCallAt] <;> split_ifs <;> simp [SyncParamHook.call]

omit [DecidableEq ModelName] in
/-- The plan puts `data_transfer` exactly among the pre-hooks of the workers taking part in the transfer. -/
theorem dataTransfer_mem_plannedHooks
    {rpc : ModelRpc Key ModelName}
    {producerNames : List ModelName}
    {hookType : HookType}
    {w : Nat} :
    HookCall.dataTransfer ∈ plannedHooks placement rpc producerNames hookType w ↔
      hookType = .pre ∧ TransfersData placement rpc.modelName producerNames w := by
  have notCalled : HookCall.dataTransfer ∉ (rpc.hooks hookType).filterMap (hookCallAt placement rpc.modelName w) :=
    fun called => by
      obtain ⟨hook, -, asked⟩ := List.mem_filterMap.mp called
      exact hookCallAt_ne_dataTransfer placement hook asked
  unfold plannedHooks
  split_ifs with transfers <;> simp [notCalled, transfers]

omit [DecidableEq ModelName] in
/-- The plan asks `offload` only of the workers of the RPC's model. -/
theorem mem_workers_of_offload_mem_plannedHooks
    {rpc : ModelRpc Key ModelName}
    {producerNames : List ModelName}
    {hookType : HookType}
    {w : Nat}
    {modelName : ModelName}
    (offloaded : HookCall.offload modelName ∈ plannedHooks placement rpc producerNames hookType w) :
    w ∈ placement.workers rpc.modelName := by
  have called : HookCall.offload modelName ∈ (rpc.hooks hookType).filterMap (hookCallAt placement rpc.modelName w) := by
    unfold plannedHooks at offloaded
    split_ifs at offloaded <;> simpa using offloaded
  obtain ⟨hook, -, asked⟩ := List.mem_filterMap.mp called
  cases hook <;> simp only [hookCallAt] at asked <;> split_ifs at asked with involved <;>
    first | exact involved | simp [SyncParamHook.call] at asked

/-- The `param_realloc`s a hook list asks of worker `w`: one for each `SyncParamHook` with a shard of one of its endpoints on `w`, in order. -/
def reallocsAt (modelName : ModelName) (w : Nat) (hooks : List (RpcHook ModelName)) : List (HookCall ModelName) :=
  hooks.filterMap fun
    | .syncParam hook =>
        if w ∈ placement.workers modelName ∨ w ∈ placement.workers (hook.other modelName) then some (hook.call modelName)
        else none
    | .offload => none

omit [DecidableEq ModelName] in
/-- The `param_realloc`s of the plan at a worker are those its hooks ask of it. -/
theorem filter_isParamRealloc_plannedHooks
    {rpc : ModelRpc Key ModelName}
    {producerNames : List ModelName}
    {hookType : HookType}
    {w : Nat} :
    (plannedHooks placement rpc producerNames hookType w).filter HookCall.isParamRealloc =
      reallocsAt placement rpc.modelName w (rpc.hooks hookType) := by
  rw [plannedHooks, List.filter_append, List.filter_filterMap, reallocsAt]
  have noData : ((if hookType = .pre ∧ TransfersData placement rpc.modelName producerNames w then
      [(.dataTransfer : HookCall ModelName)] else []).filter HookCall.isParamRealloc) = [] := by
    split_ifs <;> rfl
  rw [noData, List.nil_append]
  refine List.filterMap_congr fun hook _ => ?_
  cases hook <;> simp only [hookCallAt] <;> split_ifs <;> rfl

/--
What `scatter_tensor_to_mws` guarantees of the payloads it posts: every worker id once, and
exactly the workers of the RPC's model, of its producers and of the other endpoints of its
`SyncParamHook`s; on each, one `param_realloc` per `SyncParamHook` of each type that has a
shard of an endpoint there, `offload` only on primary handlers, `data_transfer` exactly on the
workers of the RPC's model and its producers; and the primary payloads posted in rank order.
-/
structure ScatterSound (rpc : ModelRpc Key ModelName) (producerNames : List ModelName)
    (primary others : List (Payload ModelName)) : Prop where
  onePerWorker : ((primary ++ others).map fun payload => placement.msid2mwid payload.handler).Nodup
  addressed : ∀ w, w ∈ (primary ++ others).map (fun payload => placement.msid2mwid payload.handler) ↔
    Involved placement rpc producerNames w
  paramRealloc : ∀ payload ∈ primary ++ others, ∀ hookType,
    (payload.hooks hookType).filter HookCall.isParamRealloc =
      reallocsAt placement rpc.modelName (placement.msid2mwid payload.handler) (rpc.hooks hookType)
  offloadPrimary : ∀ payload ∈ primary ++ others, ∀ hookType modelName,
    HookCall.offload modelName ∈ payload.hooks hookType → payload.handler ∈ placement.handlers rpc.modelName
  dataTransfer : ∀ payload ∈ primary ++ others,
    (HookCall.dataTransfer ∈ payload.preHooks ↔
      TransfersData placement rpc.modelName producerNames (placement.msid2mwid payload.handler)) ∧
    HookCall.dataTransfer ∉ payload.postHooks
  primaryInOrder : primary.map Payload.handler = placement.handlers rpc.modelName

omit [DecidableEq ModelName] in
/-- Payloads that carry out the plan meet every guarantee of `scatter_tensor_to_mws`. -/
theorem MeetsPlan.scatterSound
    {rpc : ModelRpc Key ModelName}
    {producerNames : List ModelName}
    {primary others : List (Payload ModelName)}
    (meets : MeetsPlan placement rpc producerNames primary others) :
    ScatterSound placement rpc producerNames primary others where
  onePerWorker := meets.onePerWorker
  addressed := meets.addressed
  paramRealloc payload member hookType := by
    rw [meets.hooks payload member hookType]
    exact filter_isParamRealloc_plannedHooks placement
  offloadPrimary payload member hookType modelName offloaded := by
    rw [meets.hooks payload member hookType] at offloaded
    have primaryWorker := mem_workers_of_offload_mem_plannedHooks placement offloaded
    rw [Placement.workers, ← meets.primaryInOrder, List.map_map] at primaryWorker
    obtain ⟨payload', primary', sameWorker⟩ := List.mem_map.mp primaryWorker
    have same := List.inj_on_of_nodup_map meets.onePerWorker (List.mem_append_left _ primary') member sameWorker
    rw [← same, ← meets.primaryInOrder]
    exact List.mem_map_of_mem _ primary'
  dataTransfer payload member := by
    have pre := meets.hooks payload member .pre
    have post := meets.hooks payload member .post
    simp only [Payload.hooks] at pre post
    rw [pre, post, dataTransfer_mem_plannedHooks placement, dataTransfer_mem_plannedHooks placement]
    simp
  primaryInOrder := meets.primaryInOrder

end Plan

section Build

variable {placement : Placement ModelName} {handlers : List (ModelShardId ModelName)} {primaryName : HandleName}
  {state : PayloadMap ModelName × List Nat} {plan : HookType → Nat → List (HookCall ModelName)}
  {modelName : ModelName}

/-- A plan of hooks per type and worker, with `extra w` appended to the hooks of type `hookType` of each worker `w`. -/
def extendPlan (plan : HookType → Nat → List (HookCall ModelName)) (hookType : HookType)
    (extra : Nat → List (HookCall ModelName)) : HookType → Nat → List (HookCall ModelName) :=
  fun other w => if other = hookType then plan other w ++ extra w else plan other w

/-- A plan with `call` appended once for each occurrence of a worker in `ws`. -/
def addCalls (plan : HookType → Nat → List (HookCall ModelName)) (hookType : HookType) (call : HookCall ModelName)
    (ws : List Nat) : HookType → Nat → List (HookCall ModelName) :=
  extendPlan plan hookType fun w => List.replicate (ws.count w) call

/-- The plan of the payloads `data_transfer` alone has put on the workers `ws`. -/
def dataPlan (ws : List Nat) : HookType → Nat → List (HookCall ModelName) :=
  addCalls (fun _ _ => []) .pre .dataTransfer ws

section Combinators

variable {hookType : HookType} {call : HookCall ModelName}

omit [DecidableEq ModelName] in
theorem extendPlan_nil :
    extendPlan plan hookType (fun _ => []) = plan := by
  funext other w
  simp [extendPlan]

omit [DecidableEq ModelName] in
theorem extendPlan_extendPlan
    {f g : Nat → List (HookCall ModelName)} :
    extendPlan (extendPlan plan hookType f) hookType g = extendPlan plan hookType fun w => f w ++ g w := by
  funext other w
  unfold extendPlan
  split_ifs <;> simp

omit [DecidableEq ModelName] in
theorem addCalls_nil :
    addCalls plan hookType call [] = plan := by
  simp [addCalls, extendPlan_nil]

omit [DecidableEq ModelName] in
theorem addCalls_append
    {ws ws' : List Nat} :
    addCalls (addCalls plan hookType call ws) hookType call ws' = addCalls plan hookType call (ws ++ ws') := by
  simp only [addCalls, extendPlan_extendPlan, List.count_append, List.replicate_add]

omit [DecidableEq ModelName] in
/-- One worker more: `call` appended at that worker only. -/
theorem addCalls_singleton
    {other : HookType}
    {v w : Nat} :
    addCalls plan hookType call [v] other w = plan other w ++ if other = hookType ∧ v = w then [call] else [] := by
  unfold addCalls extendPlan
  by_cases sameType : other = hookType <;> by_cases sameWorker : v = w <;> simp [sameType, sameWorker, List.count_singleton]

omit [DecidableEq ModelName] in
/-- The count of a worker over the primary workers and then the others' new ones: once if either holds it. -/
theorem count_append_filter_of_nodup
    {mainWorkers otherWorkers : List Nat}
    (mainDistinct : mainWorkers.Nodup)
    (otherDistinct : otherWorkers.Nodup)
    (w : Nat) :
    (mainWorkers ++ otherWorkers.filter (· ∉ mainWorkers)).count w =
      if w ∈ mainWorkers ∨ w ∈ otherWorkers then 1 else 0 := by
  rw [List.count_append, List.count_eq_of_nodup mainDistinct, List.count_eq_of_nodup (otherDistinct.filter _)]
  by_cases inMain : w ∈ mainWorkers <;> by_cases inOther : w ∈ otherWorkers <;> simp [inMain, inOther]

end Combinators

/--
What the dict and `mwids` keep while `scatter_tensor_to_mws` builds them: `mwids` lists the
workers of the payloads, each once; the primary handlers come first; every payload names its
own shard, a primary one with the RPC's handle name and every other `empty`; and every
payload lists the hooks `plan` gives its worker, `plan` giving nothing to unaddressed workers.
-/
structure Addressed (placement : Placement ModelName) (handlers : List (ModelShardId ModelName))
    (primaryName : HandleName) (state : PayloadMap ModelName × List Nat)
    (plan : HookType → Nat → List (HookCall ModelName)) : Prop where
  workers : state.1.map (fun entry => placement.msid2mwid entry.1) = state.2
  distinct : state.2.Nodup
  primaryFirst : ∃ extra, state.1.map Prod.fst = handlers ++ extra ∧ ∀ h ∈ extra, h ∉ handlers
  handler : ∀ entry ∈ state.1, entry.2.handler = entry.1
  handleName : ∀ entry ∈ state.1, entry.2.handleName = if entry.1 ∈ handlers then primaryName else .empty
  hooks : ∀ entry ∈ state.1, ∀ hookType, entry.2.hooks hookType = plan hookType (placement.msid2mwid entry.1)
  unaddressed : ∀ hookType w, w ∉ state.2 → plan hookType w = []

/-- The primary payloads alone, each with the `data_transfer` pre-hook, are addressed for the data plan of their workers. -/
theorem addressed_primary
    (primaryName : HandleName)
    (distinct : (placement.workers modelName).Nodup) :
    Addressed placement (placement.handlers modelName) primaryName
      ((placement.handlers modelName).map fun h => (h, ⟨h, primaryName, [.dataTransfer], []⟩),
        placement.workers modelName)
      (dataPlan (placement.workers modelName)) where
  workers := by simp [Placement.workers]
  distinct := distinct
  primaryFirst := ⟨[], by simp [Function.comp_def], by simp⟩
  handler := by simp
  handleName := by
    simp only [List.mem_map]
    rintro _ ⟨h, member, rfl⟩
    simp [member]
  hooks := by
    simp only [List.mem_map, forall_exists_index, and_imp]
    rintro _ h member rfl (_ | _)
    · have once := List.count_eq_one_of_mem distinct (List.mem_map_of_mem placement.msid2mwid member)
      simp [dataPlan, addCalls, extendPlan, once, Payload.hooks]
    · simp [dataPlan, addCalls, extendPlan, Payload.hooks]
  unaddressed hookType w unaddressed := by
    simp [dataPlan, addCalls, extendPlan, List.count_eq_zero_of_not_mem unaddressed]

namespace Addressed

variable (addressed : Addressed placement handlers primaryName state plan)
include addressed

/-- Two payloads on one worker are one entry. -/
theorem eq_of_worker
    {entry entry' : ModelShardId ModelName × Payload ModelName}
    (member : entry ∈ state.1)
    (member' : entry' ∈ state.1)
    (sameWorker : placement.msid2mwid entry.1 = placement.msid2mwid entry'.1) :
    entry = entry' := by
  have distinct := addressed.distinct
  rw [← addressed.workers] at distinct
  exact List.inj_on_of_nodup_map distinct member member' sameWorker

/-- The worker of a key of the dict is addressed. -/
theorem worker_mem
    {h : ModelShardId ModelName}
    (present : h ∈ state.1.map Prod.fst) :
    placement.msid2mwid h ∈ state.2 := by
  obtain ⟨entry, member, rfl⟩ := List.mem_map.mp present
  rw [← addressed.workers]
  exact List.mem_map_of_mem _ member

/-- Every primary handler is a key of the dict. -/
theorem mem_keys_of_primary
    {h : ModelShardId ModelName}
    (primary : h ∈ handlers) :
    h ∈ state.1.map Prod.fst := by
  obtain ⟨extra, keys, -⟩ := addressed.primaryFirst
  rw [keys]
  exact List.mem_append_left _ primary

/-- Appending `call` to the payload of a key appends it to the plan at the key's worker. -/
theorem appendHookAt
    (hookType : HookType)
    (call : HookCall ModelName)
    {h : ModelShardId ModelName}
    (present : h ∈ state.1.map Prod.fst) :
    ∃ payloads, Master.appendHookAt hookType call state.1 h = some payloads ∧
      Addressed placement handlers primaryName (payloads, state.2)
        (addCalls plan hookType call [placement.msid2mwid h]) := by
  refine ⟨_, if_pos present, ?_⟩
  obtain ⟨entry₀, member₀, rfl⟩ := List.mem_map.mp present
  refine ⟨by simpa using addressed.workers, addressed.distinct, by simpa using addressed.primaryFirst, ?_, ?_, ?_, ?_⟩
  · simp only [List.mem_map]
    rintro _ ⟨entry, member, rfl⟩
    split_ifs <;> simp [addressed.handler entry member]
  · simp only [List.mem_map]
    rintro _ ⟨entry, member, rfl⟩
    dsimp only
    rw [← addressed.handleName entry member]
    split_ifs <;> simp
  · simp only [List.mem_map]
    rintro _ ⟨entry, member, rfl⟩ other
    by_cases same : entry.1 = entry₀.1
    · simp only [same, if_true, Payload.hooks_appendHook, addressed.hooks entry member, addCalls_singleton, and_true]
      split_ifs <;> simp
    · have otherWorker : placement.msid2mwid entry₀.1 ≠ placement.msid2mwid entry.1 := fun sameWorker =>
        same (congrArg Prod.fst (addressed.eq_of_worker member member₀ sameWorker.symm))
      simp [same, addressed.hooks entry member, addCalls_singleton, otherWorker]
  · intro other w unaddressed
    have otherWorker : placement.msid2mwid entry₀.1 ≠ w := fun same =>
      unaddressed (same ▸ addressed.worker_mem present)
    simp [addCalls_singleton, addressed.unaddressed other w unaddressed, otherWorker]

/-- A payload for a shard on an unaddressed worker goes last, and the plan gains its hook at that worker. -/
theorem setPayload_fresh
    (hookType : HookType)
    (call : HookCall ModelName)
    {h : ModelShardId ModelName}
    (fresh : placement.msid2mwid h ∉ state.2) :
    Addressed placement handlers primaryName
      (setPayload state.1 h ((Payload.mk h .empty [] []).setHooks hookType [call]), state.2 ++ [placement.msid2mwid h])
      (addCalls plan hookType call [placement.msid2mwid h]) := by
  have absent : h ∉ state.1.map Prod.fst := fun present => fresh (addressed.worker_mem present)
  have notPrimary : h ∉ handlers := fun primary => absent (addressed.mem_keys_of_primary primary)
  obtain ⟨extra, keys, extraNotPrimary⟩ := addressed.primaryFirst
  rw [setPayload, if_neg absent]
  refine ⟨by simp [addressed.workers], addressed.distinct.append (List.nodup_singleton _)
    (List.disjoint_singleton.mpr fresh), ⟨extra ++ [h], by simp [keys], ?_⟩, ?_, ?_, ?_, ?_⟩
  · simp only [List.mem_append, List.mem_singleton]
    rintro k (inExtra | rfl)
    · exact extraNotPrimary k inExtra
    · exact notPrimary
  · simp only [List.mem_append, List.mem_singleton]
    rintro entry (member | rfl)
    · exact addressed.handler entry member
    · simp
  · simp only [List.mem_append, List.mem_singleton]
    rintro entry (member | rfl)
    · exact addressed.handleName entry member
    · simp [notPrimary]
  · simp only [List.mem_append, List.mem_singleton]
    rintro entry (member | rfl) other
    · have otherWorker : placement.msid2mwid h ≠ placement.msid2mwid entry.1 := fun same =>
        fresh (same ▸ addressed.worker_mem (List.mem_map_of_mem Prod.fst member))
      simp [addCalls_singleton, addressed.hooks entry member, otherWorker]
    · rw [Payload.hooks_setHooks, addCalls_singleton, addressed.unaddressed other _ fresh]
      by_cases sameType : other = hookType
      · simp [sameType]
      · simp only [sameType, if_false, false_and, List.append_nil]
        cases other <;> rfl
  · intro other w unaddressed
    simp only [List.mem_append, List.mem_singleton, not_or] at unaddressed
    simp [addCalls_singleton, addressed.unaddressed other w unaddressed.1, Ne.symm unaddressed.2]

/-- `next(hh for hh in payloads if msid2mwid[hh] == w)` finds the payload of an addressed worker. -/
theorem find?_worker
    {w : Nat}
    (addressedWorker : w ∈ state.2) :
    ∃ entry ∈ state.1, state.1.find? (fun entry => placement.msid2mwid entry.1 = w) = some entry ∧
      placement.msid2mwid entry.1 = w := by
  rw [← addressed.workers] at addressedWorker
  obtain ⟨entry₀, member₀, rfl⟩ := List.mem_map.mp addressedWorker
  have exists_found : (state.1.find? fun entry => placement.msid2mwid entry.1 = placement.msid2mwid entry₀.1).isSome :=
    List.find?_isSome.mpr ⟨entry₀, member₀, by simp⟩
  obtain ⟨entry, found⟩ := Option.isSome_iff_exists.mp exists_found
  exact ⟨entry, List.mem_of_find?_eq_some found, found, by simpa using List.find?_some found⟩

/-- One shard of a hook's other endpoint appends `call` to the plan at its worker, unless a primary handler sits there, and addresses its worker. -/
theorem attachSide
    (hookType : HookType)
    (call : HookCall ModelName)
    (h : ModelShardId ModelName) :
    ∃ state', Master.attachSide placement (handlers.map placement.msid2mwid) hookType call state h = some state' ∧
      Addressed placement handlers primaryName state'
        (addCalls plan hookType call
          (if placement.msid2mwid h ∈ handlers.map placement.msid2mwid then [] else [placement.msid2mwid h])) ∧
      ∀ w, w ∈ state'.2 ↔ w ∈ state.2 ∨ w = placement.msid2mwid h := by
  by_cases fresh : placement.msid2mwid h ∈ state.2
  · have unchanged : ∀ w, w ∈ state.2 ↔ w ∈ state.2 ∨ w = placement.msid2mwid h := fun w =>
      ⟨Or.inl, by rintro (member | rfl) <;> assumption⟩
    by_cases primaryWorker : placement.msid2mwid h ∈ handlers.map placement.msid2mwid
    · refine ⟨state, by simp [Master.attachSide, fresh, primaryWorker], ?_, unchanged⟩
      rwa [if_pos primaryWorker, addCalls_nil]
    · obtain ⟨entry, member, found, worker⟩ := addressed.find?_worker fresh
      obtain ⟨payloads, appended, next⟩ := addressed.appendHookAt hookType call (List.mem_map_of_mem Prod.fst member)
      refine ⟨(payloads, state.2), ?_, ?_, unchanged⟩
      · simp [Master.attachSide, fresh, primaryWorker, found, appended]
      · rwa [if_neg primaryWorker, ← worker]
  · have notPrimary : placement.msid2mwid h ∉ handlers.map placement.msid2mwid := fun primaryWorker => by
      obtain ⟨k, primary, same⟩ := List.mem_map.mp primaryWorker
      exact fresh (same ▸ addressed.worker_mem (addressed.mem_keys_of_primary primary))
    refine ⟨_, if_pos fresh, ?_, fun w => by simp⟩
    rw [if_neg notPrimary]
    exact addressed.setPayload_fresh hookType call fresh

/-- The loop over a hook's other endpoint appends `call` at each of its workers that holds no primary handler, and addresses them all. -/
theorem foldlM_attachSide
    (hookType : HookType)
    (call : HookCall ModelName)
    (others : List (ModelShardId ModelName)) :
    ∃ state', others.foldlM (Master.attachSide placement (handlers.map placement.msid2mwid) hookType call) state =
        some state' ∧
      Addressed placement handlers primaryName state'
        (addCalls plan hookType call ((others.map placement.msid2mwid).filter (· ∉ handlers.map placement.msid2mwid))) ∧
      ∀ w, w ∈ state'.2 ↔ w ∈ state.2 ∨ w ∈ others.map placement.msid2mwid := by
  induction others generalizing state plan with
  | nil => exact ⟨state, rfl, by simpa [addCalls_nil] using addressed, by simp⟩
  | cons h others inductionHypothesis =>
      obtain ⟨state₁, stepped, addressed₁, mem₁⟩ := addressed.attachSide hookType call h
      obtain ⟨state₂, folded, addressed₂, mem₂⟩ := inductionHypothesis addressed₁
      refine ⟨state₂, by rw [List.foldlM_cons, stepped]; exact folded, ?_, fun w => by simp [mem₂, mem₁, or_assoc]⟩
      rw [addCalls_append] at addressed₂
      convert addressed₂ using 2
      by_cases primaryWorker : placement.msid2mwid h ∈ handlers.map placement.msid2mwid <;>
        simp only [List.map_cons, List.filter_cons, primaryWorker, not_true_eq_false, not_false_eq_true, decide_False,
          decide_True, Bool.false_eq_true, if_true, if_false, List.nil_append, List.singleton_append]

/-- The loop over primary handlers appends their call at each of their workers. -/
theorem foldlM_appendHookAt
    (hookType : HookType)
    (call : HookCall ModelName)
    (callOf : ModelShardId ModelName → HookCall ModelName)
    {hs : List (ModelShardId ModelName)}
    (primary : ∀ k ∈ hs, k ∈ handlers)
    (sameCall : ∀ k ∈ hs, callOf k = call) :
    ∃ payloads, hs.foldlM (fun payloads k => Master.appendHookAt hookType (callOf k) payloads k) state.1 =
        some payloads ∧
      Addressed placement handlers primaryName (payloads, state.2) (addCalls plan hookType call (hs.map placement.msid2mwid)) := by
  induction hs generalizing state plan with
  | nil => exact ⟨state.1, rfl, by simpa [addCalls_nil] using addressed⟩
  | cons k hs inductionHypothesis =>
      obtain ⟨payloads₁, stepped, addressed₁⟩ :=
        addressed.appendHookAt hookType call (addressed.mem_keys_of_primary (primary k (List.mem_cons_self _ _)))
      obtain ⟨payloads₂, folded, addressed₂⟩ := inductionHypothesis addressed₁
        (fun k' member => primary k' (List.mem_cons_of_mem _ member))
        (fun k' member => sameCall k' (List.mem_cons_of_mem _ member))
      refine ⟨payloads₂, ?_, ?_⟩
      · rw [List.foldlM_cons, sameCall k (List.mem_cons_self _ _), stepped]
        exact folded
      · rw [addCalls_append] at addressed₂
        exact addressed₂

/-- One hook extends the plan by the call it asks of each worker, and addresses the workers it brings in. -/
theorem attachHook
    (spread : placement.ShardsSpread)
    (mainHandlers : handlers = placement.handlers modelName)
    (hookType : HookType)
    (hook : RpcHook ModelName) :
    ∃ state', Master.attachHook placement modelName handlers (handlers.map placement.msid2mwid) hookType state hook =
        some state' ∧
      Addressed placement handlers primaryName state'
        (extendPlan plan hookType fun w => (hookCallAt placement modelName w hook).toList) ∧
      ∀ w, w ∈ state'.2 ↔ w ∈ state.2 ∨ w ∈ RpcHook.sideWorkers placement modelName hook := by
  subst mainHandlers
  cases hook with
  | syncParam hook =>
      obtain ⟨payloads, mainFold, addressed₁⟩ := addressed.foldlM_appendHookAt hookType (hook.call modelName)
        (fun _ => hook.call modelName) (fun _ member => member) (fun _ _ => rfl)
      obtain ⟨state', sideFold, addressed₂, mem₂⟩ :=
        addressed₁.foldlM_attachSide hookType (hook.call modelName) (placement.handlers (hook.other modelName))
      refine ⟨state', ?_, ?_, mem₂⟩
      · simp only [Master.attachHook, syncParamCall_eq]
        exact (congrArg (· >>= _) mainFold).trans sideFold
      · have extra : (fun w => (hookCallAt placement modelName w (.syncParam hook)).toList) = fun w =>
            List.replicate ((placement.workers modelName ++
              (placement.workers (hook.other modelName)).filter (· ∉ placement.workers modelName)).count w)
              (hook.call modelName) := by
          funext w
          rw [count_append_filter_of_nodup (spread modelName) (spread (hook.other modelName))]
          simp only [hookCallAt]
          split_ifs <;> rfl
        rw [addCalls_append] at addressed₂
        rw [extra]
        exact addressed₂
  | offload =>
      obtain ⟨payloads, mainFold, addressed₁⟩ := addressed.foldlM_appendHookAt hookType (.offload modelName)
        (fun k => .offload k.modelName) (fun _ member => member)
        (fun k member => congrArg HookCall.offload (placement.modelName_of_mem_handlers member))
      refine ⟨(payloads, state.2), ?_, ?_, fun w => by simp [RpcHook.sideWorkers]⟩
      · simp only [Master.attachHook]
        rw [mainFold]
        rfl
      · have extra : (fun w => (hookCallAt placement modelName w .offload).toList) = fun w =>
            List.replicate ((placement.workers modelName).count w) (.offload modelName) := by
          funext w
          rw [List.count_eq_of_nodup (spread modelName)]
          simp only [hookCallAt]
          split_ifs <;> rfl
        rw [extra]
        exact addressed₁

/-- The loop over a hook list extends the plan by the calls the hooks ask of each worker, in order. -/
theorem foldlM_attachHook
    (spread : placement.ShardsSpread)
    (mainHandlers : handlers = placement.handlers modelName)
    (hookType : HookType)
    (hooks : List (RpcHook ModelName)) :
    ∃ state', hooks.foldlM (Master.attachHook placement modelName handlers (handlers.map placement.msid2mwid) hookType)
        state = some state' ∧
      Addressed placement handlers primaryName state'
        (extendPlan plan hookType fun w => hooks.filterMap (hookCallAt placement modelName w)) ∧
      ∀ w, w ∈ state'.2 ↔ w ∈ state.2 ∨ ∃ hook ∈ hooks, w ∈ RpcHook.sideWorkers placement modelName hook := by
  induction hooks generalizing state plan with
  | nil => exact ⟨state, rfl, by simpa [extendPlan_nil] using addressed, by simp⟩
  | cons hook hooks inductionHypothesis =>
      obtain ⟨state₁, stepped, addressed₁, mem₁⟩ := addressed.attachHook spread mainHandlers hookType hook
      obtain ⟨state₂, folded, addressed₂, mem₂⟩ := inductionHypothesis addressed₁
      refine ⟨state₂, by rw [List.foldlM_cons, stepped]; exact folded, ?_, fun w => by simp [mem₂, mem₁, or_assoc]⟩
      rw [extendPlan_extendPlan] at addressed₂
      convert addressed₂ using 2
      funext w
      rw [List.filterMap_cons]
      cases hookCallAt placement modelName w hook <;> rfl

/-- One producer shard adds `data_transfer` at its worker when it is new, and addresses it. -/
theorem addProducer
    (dataOnly : plan = dataPlan state.2)
    (h : ModelShardId ModelName) :
    Addressed placement handlers primaryName (Master.addProducer placement state h)
        (dataPlan (Master.addProducer placement state h).2) ∧
      ∀ w, w ∈ (Master.addProducer placement state h).2 ↔ w ∈ state.2 ∨ w = placement.msid2mwid h := by
  subst dataOnly
  by_cases fresh : placement.msid2mwid h ∈ state.2
  · simp only [Master.addProducer, fresh, not_true_eq_false, if_false]
    exact ⟨addressed, fun w => ⟨Or.inl, by rintro (member | rfl) <;> assumption⟩⟩
  · simp only [Master.addProducer, fresh, not_false_eq_true, if_true]
    refine ⟨?_, fun w => by simp⟩
    have next := addressed.setPayload_fresh .pre .dataTransfer fresh
    rwa [dataPlan, addCalls_append] at next

/-- The loop over a producer's shards adds `data_transfer` at each new worker. -/
theorem foldl_addProducer
    (dataOnly : plan = dataPlan state.2)
    (shards : List (ModelShardId ModelName)) :
    Addressed placement handlers primaryName (shards.foldl (Master.addProducer placement) state)
        (dataPlan (shards.foldl (Master.addProducer placement) state).2) ∧
      ∀ w, w ∈ (shards.foldl (Master.addProducer placement) state).2 ↔
        w ∈ state.2 ∨ w ∈ shards.map placement.msid2mwid := by
  induction shards generalizing state plan with
  | nil => exact ⟨dataOnly ▸ addressed, by simp⟩
  | cons h shards inductionHypothesis =>
      obtain ⟨addressed₁, mem₁⟩ := addressed.addProducer dataOnly h
      obtain ⟨addressed₂, mem₂⟩ := inductionHypothesis addressed₁ rfl
      exact ⟨addressed₂, fun w => by simp [mem₂, mem₁, or_assoc]⟩

/-- The loop over the producers adds `data_transfer` at each worker of a producer not yet addressed. -/
theorem addProducers
    (dataOnly : plan = dataPlan state.2)
    (producerNames : List ModelName) :
    Addressed placement handlers primaryName (Master.addProducers placement producerNames state)
        (dataPlan (Master.addProducers placement producerNames state).2) ∧
      ∀ w, w ∈ (Master.addProducers placement producerNames state).2 ↔
        w ∈ state.2 ∨ ∃ name ∈ producerNames, w ∈ placement.workers name := by
  induction producerNames generalizing state plan with
  | nil => exact ⟨dataOnly ▸ addressed, by simp [Master.addProducers]⟩
  | cons name names inductionHypothesis =>
      obtain ⟨addressed₁, mem₁⟩ := addressed.foldl_addProducer dataOnly (placement.handlers name)
      obtain ⟨addressed₂, mem₂⟩ := inductionHypothesis addressed₁ rfl
      exact ⟨addressed₂, fun w => (mem₂ w).trans (by rw [mem₁]; simp [or_assoc, Placement.workers])⟩

end Addressed

end Build

section Scatter

variable {placement : Placement ModelName}

/-- When each model's shards sit on distinct workers, the dict is built with no assert failing and no lookup raising; it is addressed for `plannedHooks`, on exactly the involved workers. -/
theorem scatterPayloads_addressed
    (spread : placement.ShardsSpread)
    (rpc : ModelRpc Key ModelName)
    (producerNames : List ModelName) :
    ∃ state, scatterPayloads placement rpc producerNames = some state ∧
      Addressed placement (placement.handlers rpc.modelName) (.interface rpc.interfaceType) state
        (plannedHooks placement rpc producerNames) ∧
      ∀ w, w ∈ state.2 ↔ Involved placement rpc producerNames w := by
  obtain ⟨produced, producedMem⟩ :=
    (addressed_primary (.interface rpc.interfaceType) (spread rpc.modelName)).addProducers rfl producerNames
  obtain ⟨pre, preFold, preAddressed, preMem⟩ := produced.foldlM_attachHook spread rfl .pre rpc.preHooks
  obtain ⟨post, postFold, postAddressed, postMem⟩ := preAddressed.foldlM_attachHook spread rfl .post rpc.postHooks
  refine ⟨post, ?_, ?_, fun w => ?_⟩
  · have distinct : ((placement.handlers rpc.modelName).map placement.msid2mwid).Nodup := spread rpc.modelName
    simp only [scatterPayloads, if_pos distinct, attachPayloadsWithHooks, ModelRpc.hooks]
    exact (congrArg (· >>= _) preFold).trans postFold
  · convert postAddressed using 1
    funext hookType w
    cases hookType <;> simp [plannedHooks, extendPlan, dataPlan, addCalls, ModelRpc.hooks, TransfersData,
      List.count_eq_of_nodup produced.distinct, producedMem]
    split_ifs <;> rfl
  · rw [postMem, preMem, producedMem, exists_sideWorkers_iff, exists_sideWorkers_iff]
    simp only [Involved, TransfersData, List.mem_append, or_and_right, exists_or, or_assoc]

/-- When each model's shards sit on distinct workers, the payloads `scatter_tensor_to_mws` posts carry out the plan. -/
theorem scatterTensorToMws_meets_plan
    (spread : placement.ShardsSpread)
    (rpc : ModelRpc Key ModelName)
    (producerNames : List ModelName) :
    ∃ primary others, scatterTensorToMws placement rpc producerNames = some (primary, others) ∧
      MeetsPlan placement rpc producerNames primary others := by
  obtain ⟨state, built, addressed, involved⟩ := scatterPayloads_addressed spread rpc producerNames
  refine ⟨_, _, by rw [scatterTensorToMws, built]; rfl, ?_⟩
  have perm : ((state.1.filter fun entry => entry.1 ∈ placement.handlers rpc.modelName).map Prod.snd ++
      (state.1.filter fun entry => entry.1 ∉ placement.handlers rpc.modelName).map Prod.snd).Perm
        (state.1.map Prod.snd) := by
    rw [← List.map_append]
    apply List.Perm.map
    simpa only [decide_not] using
      List.filter_append_perm (fun entry => decide (entry.1 ∈ placement.handlers rpc.modelName)) state.1
  have workers : (state.1.map Prod.snd).map (fun payload => placement.msid2mwid payload.handler) = state.2 := by
    rw [← addressed.workers, List.map_map]
    exact List.map_congr_left fun entry member => by simp [addressed.handler entry member]
  have posted : ∀ payload ∈ state.1.map Prod.snd, ∃ entry ∈ state.1, entry.2 = payload := fun payload member =>
    List.mem_map.mp member
  obtain ⟨extra, keys, extraNotPrimary⟩ := addressed.primaryFirst
  refine ⟨(perm.map _).nodup_iff.mpr (workers ▸ addressed.distinct),
    fun w => (perm.map _).mem_iff.trans (by rw [workers]; exact involved w), ?_, ?_, ?_, ?_⟩
  · intro payload member hookType
    obtain ⟨entry, entryMember, rfl⟩ := posted payload (perm.mem_iff.mp member)
    rw [addressed.hooks entry entryMember, addressed.handler entry entryMember]
  · have sameKeys : (state.1.filter fun entry => entry.1 ∈ placement.handlers rpc.modelName).map
        (Payload.handler ∘ Prod.snd) = (state.1.filter fun entry => entry.1 ∈ placement.handlers rpc.modelName).map
          Prod.fst :=
      List.map_congr_left fun entry member => addressed.handler entry (List.mem_of_mem_filter member)
    have filtered : (state.1.map Prod.fst).filter (· ∈ placement.handlers rpc.modelName) =
        (state.1.filter fun entry => entry.1 ∈ placement.handlers rpc.modelName).map Prod.fst :=
      List.filter_map _ _
    rw [List.map_map, sameKeys, ← filtered, keys, List.filter_append,
      List.filter_eq_self.mpr fun h primary => by simpa using primary,
      List.filter_eq_nil_iff.mpr fun h inExtra => by simpa using extraNotPrimary h inExtra, List.append_nil]
  · simp only [List.mem_map, List.mem_filter, decide_eq_true_eq]
    rintro _ ⟨entry, ⟨member, primary⟩, rfl⟩
    rw [addressed.handleName entry member, if_pos primary]
  · simp only [List.mem_map, List.mem_filter, decide_eq_true_eq]
    rintro _ ⟨entry, ⟨member, notPrimary⟩, rfl⟩
    rw [addressed.handleName entry member, if_neg notPrimary]

/-- When each model's shards sit on distinct workers, `scatter_tensor_to_mws` posts its payloads with no assert failing and no lookup raising, and they meet its guarantees. -/
theorem scatterTensorToMws_sound
    (spread : placement.ShardsSpread)
    (rpc : ModelRpc Key ModelName)
    (producerNames : List ModelName) :
    ∃ primary others, scatterTensorToMws placement rpc producerNames = some (primary, others) ∧
      ScatterSound placement rpc producerNames primary others :=
  let ⟨primary, others, posted, meets⟩ := scatterTensorToMws_meets_plan spread rpc producerNames
  ⟨primary, others, posted, meets.scatterSound⟩

/-- Model `m`'s shard of rank `j` on worker `m + j`; model `0` has two shards, model `1` three, model `2` one. -/
def sidePlacement : Placement Nat where
  worldSize modelName := [2, 3, 1].getD modelName 0
  msid2mwid h := h.modelName + h.parallelismRank

/-- An RPC on model `0` that reads a key model `2` produces, syncs parameters from model `1` before the call and offloads after it. -/
def sideRpc : ModelRpc Nat Nat where
  modelName := 0
  interfaceType := .inference
  inputData := [0]
  outputData := [1]
  outputKeyRemap := []
  dataProducers := [(0, 2)]
  minNSeqs := 1
  maxNSeqs := 1
  balancedDp := false
  maxConcurrentCalls := 1
  preHooks := [.syncParam ⟨some 1, none, by decide⟩]
  postHooks := [.offload]
  minPositive := Nat.one_pos
  minLeMax := le_rfl
  callsPositive := Nat.one_pos

/-- Worker `2` holds a producer shard and a shard of the hook's source, worker `3` only the latter. -/
example :
    (scatterTensorToMws sidePlacement sideRpc [2]).map Prod.snd =
      some [⟨⟨2, 0⟩, .empty, [.dataTransfer, .paramRealloc 1 0], []⟩, ⟨⟨1, 2⟩, .empty, [.paramRealloc 1 0], []⟩] := by
  decide

/-- In `sidePlacement` the shards of each model sit on distinct workers, and the call of `sideRpc` with model `2` as producer meets the guarantees. -/
theorem scatterTensorToMws_sound_side :
    sidePlacement.ShardsSpread ∧
      ∃ primary others, scatterTensorToMws sidePlacement sideRpc [2] = some (primary, others) ∧
        ScatterSound sidePlacement sideRpc [2] primary others :=
  have spread : sidePlacement.ShardsSpread := fun modelName => by
    simp only [Placement.workers, Placement.handlers, List.map_map]
    exact (List.nodup_range _).map fun _ _ same => by simpa [sidePlacement] using same
  ⟨spread, scatterTensorToMws_sound spread sideRpc [2]⟩

end Scatter

end RealRlhf.Master
