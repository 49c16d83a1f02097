import RealRlhf.Master.Calls
import RealRlhf.Master.Poll
import RealRlhf.Master.Registry
import Mathlib.Data.Fintype.Fin
import Mathlib.Data.List.GetD
import RealRlhf.Base.Lists

namespace RealRlhf.Master

/-!
# Where the inputs of a call come from

The master routes an RPC's inputs by the data-owner registry: the request coroutine of the
producing RPC writes `data_owner[(index, key)]` before it sends its request, the reply
coroutine adds the key to the buffer once the call completed, and the request coroutine
of a consumer reads the entries of the keys its batch holds. In a graph where each key has
one producer, every key of a record came from the load or from a completed call of its
producer, and the registry still holds what that load or call wrote (`RegistryInvariant`):
no later write can touch the entry, since the producer takes each record once. So a
consumer finds every owner, all with the producer's model, and `producer_mapping` splits
its batch by the rank that holds each record (`producerMappings_sound`). That the owner's
model is `producer_names[k]` needs every `data_producers` entry to name the producer of its
key: a graph that lists a key of the source's model under another model meets the other
assumptions and keys `producer_mappings` by the wrong model (`producerMappings_misnamed_owner`).
-/

variable {Key ModelName : Type} [DecidableEq Key] [DecidableEq ModelName] {dfg : Dfg Key ModelName}

namespace Dfg

/-- Modelled from the spec: every key has one producer, the dataset or one RPC, after `output_key_remap`. -/
def UniqueProducers (dfg : Dfg Key ModelName) : Prop :=
  (∀ key ∈ dfg.datasetKeys, ∀ r, key ∉ (dfg.rpc r).producedKeys) ∧
    ∀ r r', ∀ key ∈ (dfg.rpc r).producedKeys, key ∈ (dfg.rpc r').producedKeys → r = r'

instance : Decidable dfg.UniqueProducers :=
  inferInstanceAs (Decidable (_ ∧ _))

/-- Every key an RPC reads from an RPC of another model than the source's is in its `data_producers`, with that model. -/
def ProducersListed (dfg : Dfg Key ModelName) (srcModelName : ModelName) : Prop :=
  ∀ c p, ∀ key ∈ (dfg.rpc c).inputData, key ∈ (dfg.rpc p).producedKeys → (dfg.rpc p).modelName ≠ srcModelName →
    (dfg.rpc c).dataProducers.lookup key = some (dfg.rpc p).modelName

instance (srcModelName : ModelName) : Decidable (dfg.ProducersListed srcModelName) :=
  inferInstanceAs (Decidable (∀ _ _, _))

/--
Modelled from the spec: `data_producers` maps an input key to the model producing it, the
source's model for a key the dataset provides.
-/
def ProducersNamed (dfg : Dfg Key ModelName) (srcModelName : ModelName) : Prop :=
  ∀ c, ∀ key ∈ (dfg.rpc c).inputData, ∀ entry ∈ (dfg.rpc c).dataProducers, entry.1 = key →
    (key ∈ dfg.datasetKeys ∧ entry.2 = srcModelName) ∨
      ∃ p, key ∈ (dfg.rpc p).producedKeys ∧ (dfg.rpc p).modelName = entry.2

instance (srcModelName : ModelName) : Decidable (dfg.ProducersNamed srcModelName) :=
  inferInstanceAs (Decidable (∀ _, _))

end Dfg

open MasterState

/--
The owner the history gives `(index, key)`: for a loaded key, the source's model and the
record's data worker; for a produced key, the producer's model and the rank of the range
that held the record in a completed call of the producer.
-/
def OwnerRecorded (s : MasterState dfg) (srcModelName : ModelName) (index : Nat) (key : Key)
    (owner : ModelName × Nat) : Prop :=
  (key ∈ dfg.datasetKeys ∧ owner.1 = srcModelName ∧
      ∃ load ∈ s.loads, ∃ offset, load.1 + offset = index ∧ load.2[offset]? = some owner.2) ∨
    ∃ p, key ∈ (dfg.rpc p).producedKeys ∧ owner.1 = (dfg.rpc p).modelName ∧
      ∃ calledBatch partitions, (p, calledBatch, partitions) ∈ s.requests ∧ (p, calledBatch) ∈ s.completions ∧
        ∃ position low high, calledBatch[position]? = some index ∧ partitions[owner.2]? = some (low, high) ∧
          low ≤ position ∧ position < high

/-- What the buffer, the registry and the logs keep in every reachable state. -/
structure RegistryInvariant (s : MasterState dfg) (srcModelName : ModelName) : Prop where
  /-- The buffer holds the records `0, …, nextIndex - 1`, in order. -/
  indices : s.buffer.map SequenceRecord.bufferIndex = List.range s.nextIndex
  loadsBelow : ∀ load ∈ s.loads, load.1 + load.2.length ≤ s.nextIndex
  requestsBelow : ∀ request ∈ s.requests, ∀ index ∈ request.2.1, index < s.nextIndex
  /-- A record handed to an RPC is no longer pending for it. -/
  handed : ∀ record ∈ s.buffer, ∀ request ∈ s.requests, record.bufferIndex ∈ request.2.1 →
    request.1 ∉ record.pendingRpcs
  /-- Every key of a record was loaded with it, or added by a completed call of an RPC producing it. -/
  provenance : ∀ record ∈ s.buffer, ∀ key ∈ record.keys,
    (key ∈ dfg.datasetKeys ∧ ∃ load ∈ s.loads, load.1 ≤ record.bufferIndex ∧ record.bufferIndex < load.1 + load.2.length) ∨
      ∃ p calledBatch, key ∈ (dfg.rpc p).producedKeys ∧ (p, calledBatch) ∈ s.completions ∧
        record.bufferIndex ∈ calledBatch
  /-- The owners a request wrote stand: its RPC's model and the rank of the range holding the position. -/
  outputOwners : ∀ request ∈ s.requests, ∀ key ∈ (dfg.rpc request.1).producedKeys, ∀ dpIdx low high position,
    request.2.2[dpIdx]? = some (low, high) → low ≤ position → position < high →
      s.dataOwner (request.2.1.getD position 0) key = some ((dfg.rpc request.1).modelName, dpIdx)
  /-- The owners a load wrote stand: the source's model and the record's data worker. -/
  loadOwners : ∀ load ∈ s.loads, ∀ offset dpIdx, load.2[offset]? = some dpIdx → ∀ key ∈ dfg.datasetKeys,
    s.dataOwner (load.1 + offset) key = some (srcModelName, dpIdx)

variable {s t : MasterState dfg} {action : MasterAction dfg} {srcModelName : ModelName}

omit [DecidableEq ModelName] in
/-- A move that leaves the buffer, the registry, the loads and the requests alone and only adds completions keeps the invariant. -/
theorem RegistryInvariant.frame
    (invariant : RegistryInvariant s srcModelName)
    (sameBuffer : t.buffer = s.buffer)
    (sameNext : t.nextIndex = s.nextIndex)
    (sameLoads : t.loads = s.loads)
    (sameRequests : t.requests = s.requests)
    (sameOwners : t.dataOwner = s.dataOwner)
    (grown : ∀ completion ∈ s.completions, completion ∈ t.completions) :
    RegistryInvariant t srcModelName where
  indices := sameBuffer ▸ sameNext ▸ invariant.indices
  loadsBelow := sameLoads ▸ sameNext ▸ invariant.loadsBelow
  requestsBelow := sameRequests ▸ sameNext ▸ invariant.requestsBelow
  handed := sameBuffer ▸ sameRequests ▸ invariant.handed
  provenance record member key present := by
    rw [sameBuffer] at member
    rcases invariant.provenance record member key present with loaded | ⟨p, calledBatch, produced, completed, covered⟩
    · exact .inl (sameLoads ▸ loaded)
    · exact .inr ⟨p, calledBatch, produced, grown _ completed, covered⟩
  outputOwners := sameRequests ▸ sameOwners ▸ invariant.outputOwners
  loadOwners := sameLoads ▸ sameOwners ▸ invariant.loadOwners

/-- A position inside a list picks an element of it. -/
theorem getD_mem_of_lt
    {indices : List Nat}
    {position : Nat}
    (inside : position < indices.length) :
    indices.getD position 0 ∈ indices := by
  rw [List.getD_eq_getElem _ _ inside]
  exact List.getElem_mem inside

omit [DecidableEq Key] [DecidableEq ModelName] in
/-- A record of the buffer after a load: an old record, or a new one pending for every RPC. -/
theorem mem_putBatch
    {buffer : SequenceBuffer dfg}
    {nextIndex count : Nat}
    {keys : List Key}
    {record : SequenceRecord Key dfg.RpcId} :
    record ∈ putBatch buffer nextIndex count keys ↔
      record ∈ buffer ∨ ∃ offset < count, record = ⟨nextIndex + offset, keys, List.finRange dfg.rpcs.length⟩ := by
  simp only [putBatch, List.mem_append, List.mem_map, List.mem_range, eq_comm]

section Step

variable (unique : dfg.UniqueProducers)
include unique

/-- Handing a valid batch with a covering partition to `r` keeps the invariant. -/
theorem registryInvariant_takeBatch
    {r : dfg.RpcId}
    {batch : List Nat}
    {partitions : List (Nat × Nat)}
    (invariant : RegistryInvariant s srcModelName)
    (valid : RequestsValid s)
    (validBatch : ValidBatch s.buffer r batch)
    (partitioned : PartitionsContract (dfg.dpSize (dfg.rpc r).modelName) batch.length partitions) :
    RegistryInvariant (s.takeBatch r batch partitions) srcModelName := by
  have owners : (s.takeBatch r batch partitions).dataOwner =
      writeOwners s.dataOwner (outputWrites (dfg.rpc r) batch partitions) :=
    recordOutputOwners_eq
  have requests : ∀ request, request ∈ (s.takeBatch r batch partitions).requests ↔
      request ∈ s.requests ∨ request = (r, batch, partitions) := by
    simp [takeBatch]
  have inBuffer : ∀ index ∈ batch, ∃ record ∈ s.buffer, record.bufferIndex = index ∧ r ∈ record.pendingRpcs :=
    fun index member =>
      let ⟨record, inBuffer, same, ready⟩ := validBatch.2.1 index member
      ⟨record, inBuffer, same, ready.1⟩
  refine ⟨by simpa [takeBatch] using invariant.indices, invariant.loadsBelow, ?requestsBelow, ?handed,
    ?provenance, ?outputOwners, ?loadOwners⟩
  case requestsBelow =>
    intro request member index inRequest
    rcases (requests request).mp member with earlier | rfl
    · exact invariant.requestsBelow request earlier index inRequest
    · obtain ⟨record, inBuffer, rfl, -⟩ := inBuffer index inRequest
      have listed := List.mem_map_of_mem SequenceRecord.bufferIndex inBuffer
      rw [invariant.indices, List.mem_range] at listed
      exact listed
  case handed =>
    intro record member request requested inRequest
    obtain ⟨old, inBuffer, rfl⟩ := mem_handBatch.mp member
    by_cases handedNow : old.bufferIndex ∈ batch
    · simp only [handedNow, if_true, List.mem_filter, not_and, decide_eq_true_eq] at inRequest ⊢
      intro pending
      rcases (requests request).mp requested with earlier | rfl
      · exact absurd pending (invariant.handed old inBuffer request earlier inRequest)
      · exact fun same => same rfl
    · simp only [handedNow, if_false] at inRequest ⊢
      rcases (requests request).mp requested with earlier | rfl
      · exact invariant.handed old inBuffer request earlier inRequest
      · exact absurd inRequest handedNow
  case provenance =>
    intro record member key present
    obtain ⟨old, inBuffer, rfl⟩ := mem_handBatch.mp member
    have sameIndex : (if old.bufferIndex ∈ batch then { old with pendingRpcs := old.pendingRpcs.filter (· ≠ r) }
        else old).bufferIndex = old.bufferIndex := by
      split_ifs <;> rfl
    have sameKeys : (if old.bufferIndex ∈ batch then { old with pendingRpcs := old.pendingRpcs.filter (· ≠ r) }
        else old).keys = old.keys := by
      split_ifs <;> rfl
    rw [sameIndex]
    rw [sameKeys] at present
    exact invariant.provenance old inBuffer key present
  case outputOwners =>
    intro request member key produced dpIdx low high position range lowLe ltHigh
    rw [owners]
    rcases (requests request).mp member with earlier | rfl
    · rw [writeOwners_of_not_written]
      · exact invariant.outputOwners request earlier key produced dpIdx low high position range lowLe ltHigh
      · intro write written sameIndex sameKey
        obtain ⟨_, _, high', position', range', _, ltHigh', key', output, rfl⟩ := mem_outputWrites.mp written
        dsimp only at sameIndex sameKey
        have sameRpc : r = request.1 :=
          unique.2 r request.1 key (sameKey ▸ List.mem_map_of_mem _ output) produced
        have inside' : position' < batch.length := by
          have := (RangesCover.bounds partitioned.2 range').2.2
          omega
        have inside : position < request.2.1.length := by
          have := (RangesCover.bounds (valid request earlier).2.2.2 range).2.2
          omega
        obtain ⟨record, inBuffer, same, pending⟩ := inBuffer _ (getD_mem_of_lt inside')
        have handedBefore := invariant.handed record inBuffer request earlier
          (by rw [same, sameIndex]; exact getD_mem_of_lt inside)
        exact handedBefore (sameRpc ▸ pending)
    · obtain ⟨key', output, rfl⟩ := List.mem_map.mp produced
      apply writeOwners_of_written
      · exact ⟨_, mem_outputWrites.mpr ⟨dpIdx, low, high, position, range, lowLe, ltHigh, key', output, rfl⟩, rfl, rfl⟩
      · intro write written sameIndex _
        obtain ⟨dpIdx', low', high', position', range', lowLe', ltHigh', _, _, rfl⟩ := mem_outputWrites.mp written
        dsimp only at sameIndex ⊢
        have inside : position < batch.length := by
          have := (RangesCover.bounds partitioned.2 range).2.2
          omega
        have inside' : position' < batch.length := by
          have := (RangesCover.bounds partitioned.2 range').2.2
          omega
        have samePosition : position' = position := by
          simp only [List.getD_eq_getElem _ _ inside, List.getD_eq_getElem _ _ inside'] at sameIndex
          exact (validBatch.1.getElem_inj_iff).mp sameIndex
        subst samePosition
        rw [RangesCover.unique partitioned.2 range' range ⟨lowLe', ltHigh'⟩ ⟨lowLe, ltHigh⟩]
  case loadOwners =>
    intro load member offset dpIdx rank key dataset
    rw [owners, writeOwners_of_not_written]
    · exact invariant.loadOwners load member offset dpIdx rank key dataset
    · intro write written _ sameKey
      obtain ⟨_, _, _, _, _, _, _, key', output, rfl⟩ := mem_outputWrites.mp written
      exact unique.1 key dataset r (sameKey ▸ List.mem_map_of_mem _ output)

omit unique [DecidableEq ModelName] in
/-- A delivery adds the produced keys of a completed call to its records and keeps the invariant. -/
theorem registryInvariant_deliver
    {r : dfg.RpcId}
    {j : Nat}
    {batch : List Nat}
    (invariant : RegistryInvariant s srcModelName)
    (completed : (r, batch) ∈ s.completions) :
    RegistryInvariant (s.deliver r j batch) srcModelName := by
  by_cases terminal : dfg.isDst r = true
  · exact invariant.frame (by simp [MasterState.deliver, terminal]) rfl rfl rfl rfl fun _ member => member
  · have buffer : (s.deliver r j batch).buffer = amendBatch s.buffer batch (dfg.rpc r).producedKeys := by
      simp [MasterState.deliver, terminal]
    refine ⟨by simpa [buffer] using invariant.indices, invariant.loadsBelow, invariant.requestsBelow, ?_, ?_,
      invariant.outputOwners, invariant.loadOwners⟩
    · intro record member
      rw [buffer] at member
      obtain ⟨old, inBuffer, rfl⟩ := mem_amendBatch.mp member
      split_ifs
      · exact invariant.handed old inBuffer
      · exact invariant.handed old inBuffer
    · intro record member key present
      rw [buffer] at member
      obtain ⟨old, inBuffer, rfl⟩ := mem_amendBatch.mp member
      split_ifs at present ⊢ with amended
      · rcases List.mem_append.mp present with before | added
        · exact invariant.provenance old inBuffer key before
        · exact .inr ⟨r, batch, added, completed, amended⟩
      · exact invariant.provenance old inBuffer key present

omit [DecidableEq ModelName] in
/-- A load appends fresh records owned by their data workers and keeps the invariant. -/
theorem registryInvariant_loadData
    {dataRanks : List Nat}
    (invariant : RegistryInvariant s srcModelName) :
    RegistryInvariant (s.loadData srcModelName dataRanks) srcModelName := by
  have owners : (s.loadData srcModelName dataRanks).dataOwner =
      writeOwners s.dataOwner (loadWrites dfg.datasetKeys s.nextIndex srcModelName dataRanks) :=
    loadData_dataOwner
  have loads : ∀ load, load ∈ (s.loadData srcModelName dataRanks).loads ↔
      load ∈ s.loads ∨ load = (s.nextIndex, dataRanks) := by
    simp [MasterState.loadData]
  have fresh : ∀ write ∈ loadWrites dfg.datasetKeys s.nextIndex srcModelName dataRanks,
      s.nextIndex ≤ write.1 ∧ write.2.1 ∈ dfg.datasetKeys := by
    intro write written
    obtain ⟨offset, dpIdx, _, key, dataset, rfl⟩ := mem_loadWrites.mp written
    exact ⟨Nat.le_add_right _ _, dataset⟩
  refine ⟨?indices, ?loadsBelow, ?requestsBelow, ?handed, ?provenance, ?outputOwners, ?loadOwners⟩
  case indices =>
    simp [MasterState.loadData, putBatch, invariant.indices, List.range_add, Function.comp_def]
  case loadsBelow =>
    intro load member
    simp only [MasterState.loadData]
    rcases (loads load).mp member with earlier | rfl
    · have := invariant.loadsBelow load earlier
      omega
    · exact Nat.le_refl _
  case requestsBelow =>
    intro request member index inRequest
    have := invariant.requestsBelow request member index inRequest
    simp only [MasterState.loadData]
    omega
  case handed =>
    intro record member request requested inRequest
    rcases mem_putBatch.mp member with old | ⟨offset, _, rfl⟩
    · exact invariant.handed record old request requested inRequest
    · have := invariant.requestsBelow request requested _ inRequest
      dsimp only at this
      omega
  case provenance =>
    intro record member key present
    rcases mem_putBatch.mp member with old | ⟨offset, inLoad, rfl⟩
    · rcases invariant.provenance record old key present with ⟨dataset, load, loaded, covers⟩ | produced
      · exact .inl ⟨dataset, load, (loads load).mpr (.inl loaded), covers⟩
      · exact .inr produced
    · exact .inl ⟨present, _, (loads _).mpr (.inr rfl), Nat.le_add_right _ _, by simpa using inLoad⟩
  case outputOwners =>
    intro request member key produced dpIdx low high position range lowLe ltHigh
    rw [owners, writeOwners_of_not_written]
    · exact invariant.outputOwners request member key produced dpIdx low high position range lowLe ltHigh
    · intro write written _ sameKey
      exact unique.1 key (sameKey ▸ (fresh write written).2) request.1 produced
  case loadOwners =>
    intro load member offset dpIdx rank key dataset
    rw [owners]
    rcases (loads load).mp member with earlier | rfl
    · rw [writeOwners_of_not_written]
      · exact invariant.loadOwners load earlier offset dpIdx rank key dataset
      · intro write written sameIndex _
        have below := invariant.loadsBelow load earlier
        have inside : offset < load.2.length := by
          by_contra outside
          rw [List.getElem?_eq_none (by omega)] at rank
          cases rank
        have := (fresh write written).1
        omega
    · apply writeOwners_of_written
      · exact ⟨_, mem_loadWrites.mpr ⟨offset, dpIdx, rank, key, dataset, rfl⟩, rfl, rfl⟩
      · intro write written sameIndex _
        obtain ⟨offset', dpIdx', rank', key', _, rfl⟩ := mem_loadWrites.mp written
        dsimp only at sameIndex ⊢
        obtain rfl : offset' = offset := by omega
        rw [rank'] at rank
        cases rank
        rfl

/-- Every step keeps the invariant, in a graph whose source RPC runs `srcModelName`. -/
theorem registryInvariant_step
    (source : dfg.srcRpcModelName? = some srcModelName)
    (invariant : RegistryInvariant s srcModelName)
    (valid : RequestsValid s)
    (calls : ∀ r, CallsRequested s r)
    (stepped : Step dfg s action t) :
    RegistryInvariant t srcModelName := by
  cases stepped with
  | getBatch _ _ validBatch partitioned =>
      exact registryInvariant_takeBatch unique invariant valid validBatch partitioned
  | @deliver r j batch _ _ atDeliver _ =>
      exact registryInvariant_deliver invariant ((calls r).delivering j batch atDeliver)
  | @loadData srcModelName' dataRanks _ source' _ =>
      obtain rfl : srcModelName' = srcModelName := Option.some.inj (source'.symm.trans source)
      exact registryInvariant_loadData unique invariant
  | receiveReplies => exact invariant.frame rfl rfl rfl rfl rfl fun _ member => List.mem_append_left _ member
  | acquire | passGuard | putRequest | takeRequest | pollTake | pollExit =>
      exact invariant.frame rfl rfl rfl rfl rfl fun _ member => member

/-- Every reachable state keeps the invariant. -/
theorem registryInvariant_of_reachable
    (source : dfg.srcRpcModelName? = some srcModelName)
    (reach : Reachable dfg s) :
    RegistryInvariant s srcModelName := by
  induction reach with
  | init => exact ⟨rfl, by simp [MasterState.init], by simp [MasterState.init], by simp [MasterState.init],
      by simp [MasterState.init], by simp [MasterState.init], by simp [MasterState.init]⟩
  | step reach stepped invariant =>
      exact registryInvariant_step unique source invariant (requestsValid_of_reachable reach)
        (fun _ => callsRequested_of_reachable reach) stepped

end Step

/-- The ranks `dp_indices` read for `key`: the rank of each record's owner, in batch order. -/
def ownerRanks (dataOwner : Nat → Key → Option (ModelName × Nat)) (batch : List Nat) (key : Key) : List Nat :=
  batch.map fun index => ((dataOwner index key).map (·.2)).getD 0

omit [DecidableEq Key] [DecidableEq ModelName] in
/-- With `data_producers` naming producers, the owner name a history gives an input key is `producer_names[key]`. -/
theorem ownerName_eq_producerName
    [DecidableEq Key]
    (unique : dfg.UniqueProducers)
    (listed : dfg.ProducersListed srcModelName)
    (named : dfg.ProducersNamed srcModelName)
    {c : dfg.RpcId}
    {key : Key}
    {index : Nat}
    {owner : ModelName × Nat}
    (input : key ∈ (dfg.rpc c).inputData)
    (recorded : OwnerRecorded s srcModelName index key owner) :
    owner.1 = (dfg.rpc c).producerName srcModelName key := by
  unfold ModelRpc.producerName
  cases lookedUp : (dfg.rpc c).dataProducers.lookup key with
  | none =>
      rcases recorded with ⟨_, name, _⟩ | ⟨p, produced, name, _⟩
      · exact name
      · by_contra differs
        rw [Option.getD_none, name] at differs
        have := listed c p key input produced differs
        rw [lookedUp] at this
        cases this
  | some entryName =>
      obtain ⟨before, after, split, _⟩ := List.lookup_eq_some_iff.mp lookedUp
      have member : (key, entryName) ∈ (dfg.rpc c).dataProducers := by
        rw [split]
        simp
      rw [Option.getD_some]
      rcases named c key input (key, entryName) member rfl with ⟨dataset, entryIsSource⟩ | ⟨p', produced', model'⟩
      · rcases recorded with ⟨_, name, _⟩ | ⟨p, produced, _⟩
        · exact name.trans entryIsSource.symm
        · exact absurd produced (unique.1 key dataset p)
      · rcases recorded with ⟨dataset, _⟩ | ⟨p, produced, name, _⟩
        · exact absurd produced' (unique.1 key dataset p')
        · rw [name, unique.2 p p' key produced produced', model']

section Consumer

variable (unique : dfg.UniqueProducers) (source : dfg.srcRpcModelName? = some srcModelName)
include unique source

/-- A key present in a record has the owner its history gives. -/
theorem ownerRecorded_of_mem_keys
    {record : SequenceRecord Key dfg.RpcId}
    {key : Key}
    (reach : Reachable dfg s)
    (inBuffer : record ∈ s.buffer)
    (present : key ∈ record.keys) :
    ∃ owner, s.dataOwner record.bufferIndex key = some owner ∧
      OwnerRecorded s srcModelName record.bufferIndex key owner := by
  have invariant := registryInvariant_of_reachable unique source reach
  rcases invariant.provenance record inBuffer key present with
    ⟨dataset, load, loaded, low, high⟩ | ⟨p, calledBatch, produced, completed, covered⟩
  · have rank : load.2[record.bufferIndex - load.1]? = some load.2[record.bufferIndex - load.1] :=
      List.getElem?_eq_getElem (by omega)
    have owner := invariant.loadOwners load loaded _ _ rank key dataset
    rw [Nat.add_sub_cancel' low] at owner
    exact ⟨_, owner, .inl ⟨dataset, rfl, load, loaded, _, Nat.add_sub_cancel' low, rank⟩⟩
  · obtain ⟨partitions, requested⟩ := (callsRequested_of_reachable reach).completed calledBatch completed
    have cover := (requestsValid_of_reachable reach _ requested).2.2.2
    obtain ⟨position, inside, atPosition⟩ := List.getElem_of_mem covered
    obtain ⟨dpIdx, low, high, range, lowLe, ltHigh⟩ := cover.exists_range ⟨Nat.zero_le position, inside⟩
    have owner := invariant.outputOwners _ requested key produced dpIdx low high position range lowLe ltHigh
    dsimp only at owner
    rw [List.getD_eq_getElem _ _ inside, atPosition] at owner
    refine ⟨_, owner, .inr ⟨p, produced, rfl, calledBatch, partitions, requested, completed, position, low, high,
      ?_, range, lowLe, ltHigh⟩⟩
    rw [List.getElem?_eq_getElem inside, atPosition]

/-- An RPC never finds a key it produces in a record it has not yet taken. -/
theorem not_produced_of_pending
    {c : dfg.RpcId}
    {record : SequenceRecord Key dfg.RpcId}
    {key : Key}
    (reach : Reachable dfg s)
    (inBuffer : record ∈ s.buffer)
    (pending : c ∈ record.pendingRpcs)
    (present : key ∈ record.keys) :
    key ∉ (dfg.rpc c).producedKeys := by
  intro produced
  have invariant := registryInvariant_of_reachable unique source reach
  rcases invariant.provenance record inBuffer key present with
    ⟨dataset, _⟩ | ⟨p, calledBatch, produced', completed, covered⟩
  · exact unique.1 key dataset c produced
  · obtain rfl := unique.2 p c key produced' produced
    obtain ⟨partitions, requested⟩ := (callsRequested_of_reachable reach).completed calledBatch completed
    exact invariant.handed record inBuffer _ requested covered pending

end Consumer

/-- What holds when the request coroutine of `c`, moving from `s` to `t`, assembles `producer_mappings` for `batch`. -/
structure ProducerMappingsSound (s t : MasterState dfg) (srcModelName : ModelName) (c : dfg.RpcId)
    (batch : List Nat) : Prop where
  /-- Each input key of each record came with the load of the record, or from a completed call of its producer. -/
  produced : ∀ key ∈ (dfg.rpc c).inputData, ∀ index ∈ batch,
    (key ∈ dfg.datasetKeys ∧ ∃ load ∈ s.loads, load.1 ≤ index ∧ index < load.1 + load.2.length) ∨
      ∃ p calledBatch, key ∈ (dfg.rpc p).producedKeys ∧ (p, calledBatch) ∈ s.completions ∧ index ∈ calledBatch
  /-- `data_owner[(index, key)]` exists and is what that load or that call recorded. -/
  owner : ∀ key ∈ (dfg.rpc c).inputData, ∀ index ∈ batch,
    ∃ owner, t.dataOwner index key = some owner ∧ OwnerRecorded s srcModelName index key owner
  /-- The assertion `len(set(names)) == 1` holds. -/
  noCrash : t.crashed = false
  /-- `producer_mappings` is keyed by `producer_names[key]` and holds `producer_mapping` of the owners' ranks. -/
  assembled : assembleProducerMappings t.dataOwner (dfg.rpc c) batch =
    some ((dfg.rpc c).inputData.map fun key =>
      (key, (dfg.rpc c).producerName srcModelName key, producerMapping (ownerRanks t.dataOwner batch key)))
  /-- `producer_mapping[key]` lists under each rank the positions of the batch whose record that rank holds. -/
  partitioned : ∀ key ∈ (dfg.rpc c).inputData, ∀ dpIdx position,
    position ∈ ((producerMapping (ownerRanks t.dataOwner batch key)).lookup dpIdx).getD [] ↔
      ∃ index name, batch[position]? = some index ∧ t.dataOwner index key = some (name, dpIdx)

/--
In a graph where each key has one producer, `data_producers` lists the producers that do
not run the source's model, and every entry of `data_producers` names the model producing
its key, every batch a request coroutine takes finds the owners of its inputs as their
history recorded them, and assembles its producer mappings.
-/
theorem producerMappings_sound
    (unique : dfg.UniqueProducers)
    (source : dfg.srcRpcModelName? = some srcModelName)
    (listed : dfg.ProducersListed srcModelName)
    (named : dfg.ProducersNamed srcModelName)
    {c : dfg.RpcId}
    {batch : List Nat}
    {partitions : List (Nat × Nat)}
    (reach : Reachable dfg s)
    (fetches : Step dfg s (.getBatch c batch partitions) t) :
    ProducerMappingsSound s t srcModelName c batch := by
  cases fetches with
  | getBatch _ _ validBatch _ =>
  have invariant := registryInvariant_of_reachable unique source reach
  have unchanged : ∀ key ∈ (dfg.rpc c).inputData, ∀ index ∈ batch,
      (s.takeBatch c batch partitions).dataOwner index key = s.dataOwner index key := by
    intro key input index member
    obtain ⟨record, inBuffer, rfl, pending, keys⟩ := validBatch.2.1 index member
    rw [show (s.takeBatch c batch partitions).dataOwner = _ from recordOutputOwners_eq, writeOwners_of_not_written]
    intro write written _ sameKey
    obtain ⟨_, _, _, _, _, _, _, key', output, rfl⟩ := mem_outputWrites.mp written
    exact not_produced_of_pending unique source reach inBuffer pending (keys key input)
      (sameKey ▸ List.mem_map_of_mem _ output)
  have owners : ∀ key ∈ (dfg.rpc c).inputData, ∀ index ∈ batch, ∃ owner,
      (s.takeBatch c batch partitions).dataOwner index key = some owner ∧
        OwnerRecorded s srcModelName index key owner := by
    intro key input index member
    obtain ⟨record, inBuffer, rfl, _, keys⟩ := validBatch.2.1 index member
    rw [unchanged key input _ member]
    exact ownerRecorded_of_mem_keys unique source reach inBuffer (keys key input)
  have namedOwner : ∀ key ∈ (dfg.rpc c).inputData, ∀ index ∈ batch,
      (s.takeBatch c batch partitions).dataOwner index key =
        some ((dfg.rpc c).producerName srcModelName key,
          (((s.takeBatch c batch partitions).dataOwner index key).map (·.2)).getD 0) := by
    intro key input index member
    obtain ⟨owner, found, recorded⟩ := owners key input index member
    rw [found, ← ownerName_eq_producerName unique listed named input recorded]
    rfl
  have assembled : assembleProducerMappings (s.takeBatch c batch partitions).dataOwner (dfg.rpc c) batch =
      some ((dfg.rpc c).inputData.map fun key =>
        (key, (dfg.rpc c).producerName srcModelName key,
          producerMapping (ownerRanks (s.takeBatch c batch partitions).dataOwner batch key))) := by
    obtain ⟨first, rest, rfl⟩ : ∃ first rest, batch = first :: rest := by
      have := (dfg.rpc c).minPositive.trans_le validBatch.2.2.1
      cases batch with
      | nil => simp at this
      | cons first rest => exact ⟨first, rest, rfl⟩
    unfold assembleProducerMappings
    refine mapM_eq_some_map fun key input => ?_
    rw [mapM_eq_some_map (namedOwner key input)]
    simp [ownerRanks, List.all_eq_true, Function.comp_def]
  have noCrash : (s.takeBatch c batch partitions).crashed = false := by
    show (assembleProducerMappings (s.takeBatch c batch partitions).dataOwner (dfg.rpc c) batch).isNone = false
    rw [assembled]
    rfl
  refine ⟨fun key input index member => ?_, owners, noCrash, assembled, ?_⟩
  · obtain ⟨record, inBuffer, rfl, _, keys⟩ := validBatch.2.1 index member
    exact invariant.provenance record inBuffer key (keys key input)
  · intro key input dpIdx position
    have ranksAt : (ownerRanks (s.takeBatch c batch partitions).dataOwner batch key)[position]? =
        batch[position]?.map fun index =>
          (((s.takeBatch c batch partitions).dataOwner index key).map (·.2)).getD 0 := by
      simp [ownerRanks]
    rw [producerMapping_lookup]
    constructor
    · intro listed
      split_ifs at listed with present
      · rw [Option.getD_some, mem_positionsOf, ranksAt] at listed
        obtain ⟨index, atPosition, rank⟩ := Option.map_eq_some'.mp listed
        refine ⟨index, (dfg.rpc c).producerName srcModelName key, atPosition, ?_⟩
        rw [namedOwner key input index (List.getElem?_mem atPosition), rank]
      · simp at listed
    · rintro ⟨index, name, atPosition, found⟩
      have ranked : (ownerRanks (s.takeBatch c batch partitions).dataOwner batch key)[position]? = some dpIdx := by
        rw [ranksAt, atPosition]
        simp [found]
      rw [if_pos (List.getElem?_mem ranked), Option.getD_some]
      exact mem_positionsOf.mpr ranked

/-- Generation on two data-parallel ranks feeding a critic that takes both sequences in one call. -/
def splitDfg : Dfg SampleKey SampleModel where
  rpcs := [sampleRpc .actor [.prompt] [.seq] 2 (by decide), sampleRpc .critic [.seq] [] 2 (by decide)]
  datasetKeys := [.prompt]
  dpSize
    | .actor => 2
    | _ => 1

/-- The generation RPC of `splitDfg`. -/
def splitGen : splitDfg.RpcId := ⟨0, by decide⟩
/-- The critic RPC of `splitDfg`. -/
def splitCritic : splitDfg.RpcId := ⟨1, by decide⟩

/-- Two records loaded by data workers `0` and `1`, generated with one record on each actor rank, and the critic about to fetch. -/
def splitCriticFetching : MasterState splitDfg :=
  (run splitDfg (.init splitDfg)
    [.loadData [0, 1], .acquire splitGen, .passGuard splitGen, .getBatch splitGen [0, 1] [(0, 1), (1, 2)],
      .putRequest splitGen, .takeRequest splitGen 0, .receiveReplies splitGen 0, .deliver splitGen 0,
      .acquire splitCritic, .passGuard splitCritic]).getD (.init splitDfg)

/-- The critic takes records `0` and `1`, whose `seq` actor ranks `0` and `1` produced: `producer_mapping[seq]` is `{0: [0], 1: [1]}`. -/
theorem producerMappings_sound_split :
    splitDfg.UniqueProducers ∧ splitDfg.srcRpcModelName? = some .actor ∧ splitDfg.ProducersListed .actor ∧
      splitDfg.ProducersNamed .actor ∧ Reachable splitDfg splitCriticFetching ∧
      Step splitDfg splitCriticFetching (.getBatch splitCritic [0, 1] [(0, 2)])
        (splitCriticFetching.takeBatch splitCritic [0, 1] [(0, 2)]) ∧
      ProducerMappingsSound splitCriticFetching (splitCriticFetching.takeBatch splitCritic [0, 1] [(0, 2)]) .actor
        splitCritic [0, 1] :=
  have reach : Reachable splitDfg splitCriticFetching := reachable_run_getD .init (by decide)
  have fetches : Step splitDfg splitCriticFetching (.getBatch splitCritic [0, 1] [(0, 2)])
      (splitCriticFetching.takeBatch splitCritic [0, 1] [(0, 2)]) :=
    .getBatch (by decide) (by decide) (by decide) (by decide)
  ⟨by decide, by decide, by decide, by decide, reach, fetches,
    producerMappings_sound (by decide) (by decide) (by decide) (by decide) reach fetches⟩

/-- Generation feeding a critic whose `data_producers` lists `seq` under the reference model, which runs no RPC of the graph. -/
def misnamedDfg : Dfg SampleKey SampleModel where
  rpcs := [sampleRpc .actor [.prompt] [.seq] 1 (by decide),
    { sampleRpc .critic [.seq] [] 1 (by decide) with dataProducers := [(.seq, .ref)] }]
  datasetKeys := [.prompt]
  dpSize _ := 1

/-- The generation RPC of `misnamedDfg`. -/
def misnamedGen : misnamedDfg.RpcId := ⟨0, by decide⟩
/-- The critic RPC of `misnamedDfg`. -/
def misnamedCritic : misnamedDfg.RpcId := ⟨1, by decide⟩

/-- `misnamedDfg` after generation completed on record `0`, with the critic about to fetch. -/
def misnamedCriticFetching : MasterState misnamedDfg :=
  (run misnamedDfg (.init misnamedDfg)
    ([.loadData [0]] ++ callOnce misnamedGen [0] ++ [.acquire misnamedCritic, .passGuard misnamedCritic])).getD
    (.init misnamedDfg)

/--
A graph can meet the two assumptions on its producers and still list a key under a model
that does not produce it: the critic finds the actor as the owner of `seq`, while
`producer_names[seq]` is the reference model, so `producer_mappings` is keyed by the actor.
-/
theorem producerMappings_misnamed_owner :
    misnamedDfg.UniqueProducers ∧ misnamedDfg.srcRpcModelName? = some .actor ∧
      misnamedDfg.ProducersListed .actor ∧ ¬ misnamedDfg.ProducersNamed .actor ∧
      Reachable misnamedDfg misnamedCriticFetching ∧
      Step misnamedDfg misnamedCriticFetching (.getBatch misnamedCritic [0] [(0, 1)])
        (misnamedCriticFetching.takeBatch misnamedCritic [0] [(0, 1)]) ∧
      (misnamedDfg.rpc misnamedCritic).producerName .actor .seq = .ref ∧
      (misnamedCriticFetching.takeBatch misnamedCritic [0] [(0, 1)]).dataOwner 0 .seq = some (.actor, 0) ∧
      ¬ ProducerMappingsSound misnamedCriticFetching (misnamedCriticFetching.takeBatch misnamedCritic [0] [(0, 1)])
        .actor misnamedCritic [0] :=
  ⟨by decide, by decide, by decide, by decide, reachable_run_getD .init (by decide),
    .getBatch (by decide) (by decide) (by decide) (by decide), rfl, by decide,
    fun sound => absurd (congrArg (Option.map (List.map fun entry => entry.2.1)) sound.assembled) (by decide)⟩

end RealRlhf.Master
