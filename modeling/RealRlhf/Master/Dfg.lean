import Mathlib.Data.List.FinRange

namespace RealRlhf.Master

/-!
# The dataflow graph

The master runs a dataflow graph (DFG) of model RPCs. Each `ModelRPC` calls one model on
batches of sequences: it reads the keys `input_data` of the sequence records and adds the
keys `output_data`, renamed by `output_key_remap`. `build_graph` derives the edges from
the keys: an RPC is a child of another when it reads a key the other writes. Sources have
no parent and read only what the dataset provides; terminal RPCs (`is_dst`) have no child.

`api/dfg.py`, which defines `ModelRPC` and `build_graph`, is not part of `src/`: the
record below holds the fields `master_worker.py` reads, with the invariants of the spec's
data model as fields, and the edges follow the spec.
-/

/-- Modelled from the spec: `SyncParamHook(source, target)`, exactly one endpoint null, standing for the RPC's own model. -/
structure SyncParamHook (ModelName : Type) where
  source : Option ModelName
  target : Option ModelName
  oneNull : source.isNone ≠ target.isNone

/-- Modelled from the spec: a pre or post hook of an RPC, `SyncParamHook` or `OffloadHook()`. -/
inductive RpcHook (ModelName : Type) where
  | syncParam (hook : SyncParamHook ModelName)
  | offload

/-- Modelled from the spec: `ModelInterfaceType`, whose value is the handle name of the RPC's requests. -/
inductive ModelInterfaceType where
  | generate
  | inference
  | trainStep
  deriving Repr, DecidableEq

/--
Modelled from the spec: a `ModelRPC` with the fields the master reads. The number of
sequences per call lies in `[min_n_seqs, max_n_seqs]`, and at least one call may be in
flight.
-/
structure ModelRpc (Key ModelName : Type) where
  modelName : ModelName
  interfaceType : ModelInterfaceType
  inputData : List Key
  outputData : List Key
  outputKeyRemap : List (Key × Key)
  dataProducers : List (Key × ModelName)
  minNSeqs : Nat
  maxNSeqs : Nat
  balancedDp : Bool
  maxConcurrentCalls : Nat
  preHooks : List (RpcHook ModelName)
  postHooks : List (RpcHook ModelName)
  minPositive : 0 < minNSeqs
  minLeMax : minNSeqs ≤ maxNSeqs
  callsPositive : 0 < maxConcurrentCalls

namespace ModelRpc

variable {Key ModelName : Type} [DecidableEq Key]

/-- The buffer key of an output: `output_key_remap[k]` when `k` is remapped. -/
def remapOutputKey (rpc : ModelRpc Key ModelName) (key : Key) : Key :=
  (rpc.outputKeyRemap.lookup key).getD key

/-- The keys a call adds to its records, after `output_key_remap`. -/
def producedKeys (rpc : ModelRpc Key ModelName) : List Key :=
  rpc.outputData.map rpc.remapOutputKey

/-- `producer_names[k]`: the model `data_producers` names for `k`, else the source RPC's model. -/
def producerName (rpc : ModelRpc Key ModelName) (srcModelName : ModelName) (key : Key) : ModelName :=
  (rpc.dataProducers.lookup key).getD srcModelName

end ModelRpc

/-- The RPCs of the graph, the keys the dataset loads, and the data-parallel size of each model. -/
structure Dfg (Key ModelName : Type) where
  rpcs : List (ModelRpc Key ModelName)
  datasetKeys : List Key
  dpSize : ModelName → Nat

namespace Dfg

variable {Key ModelName : Type} [DecidableEq Key] (dfg : Dfg Key ModelName)

/-- An RPC of the graph, by its position in `model_rpcs`. -/
abbrev RpcId :=
  Fin dfg.rpcs.length

/-- The RPC at a position. -/
def rpc (r : dfg.RpcId) : ModelRpc Key ModelName :=
  dfg.rpcs.get r

/-- Modelled from the spec: `c` is a child of `r` when it reads a key that `r` writes. -/
def isChild (r c : dfg.RpcId) : Bool :=
  (dfg.rpc c).inputData.any fun key => decide (key ∈ (dfg.rpc r).producedKeys)

/-- `rpc.children_rpcs`. -/
def children (r : dfg.RpcId) : List dfg.RpcId :=
  (List.finRange dfg.rpcs.length).filter (dfg.isChild r)

/-- `rpc.is_src`: no parent. -/
def isSrc (r : dfg.RpcId) : Bool :=
  (List.finRange dfg.rpcs.length).all fun parent => !dfg.isChild parent r

/-- `rpc.is_dst`: no child. -/
def isDst (r : dfg.RpcId) : Bool :=
  (dfg.children r).isEmpty

/-- `len(self.__rpc_dsts)`: the number of terminal RPCs. -/
def nRpcDsts : Nat :=
  ((List.finRange dfg.rpcs.length).filter dfg.isDst).length

/-- `[rpc for rpc in model_rpcs if rpc.is_src][0].model_name`, when there is a source. -/
def srcRpcModelName? : Option ModelName :=
  ((List.finRange dfg.rpcs.length).find? dfg.isSrc).map fun r => (dfg.rpc r).modelName

@[simp] theorem mem_children
    {r c : dfg.RpcId} :
    c ∈ dfg.children r ↔ dfg.isChild r c = true := by
  simp [children]

end Dfg

end RealRlhf.Master
