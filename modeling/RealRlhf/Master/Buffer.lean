import RealRlhf.Master.Dfg

namespace RealRlhf.Master

/-!
# The sequence buffer

`AsyncIOSequenceBuffer` is not part of `src/`; this module follows its contract in the
spec (§4.2). A record has a buffer index, the keys present so far, and the RPCs that have
not yet been handed the record. `put_batch` appends fresh records pending for every RPC,
`get_batch_for_rpc(r)` hands `r` between `min_n_seqs` and `max_n_seqs` distinct records
that are ready for it (pending for `r`, with every input key of `r` present), and
`amend_batch` adds keys. A batch of a `balanced_dp` RPC is a multiple of its
data-parallel size.

The scheduler takes any batch the contract allows (`ValidBatch`); the spec's FIFO policy
(`fifoBatch`) is one of them (`fifoBatch_valid`).
-/

/-- A sequence record: buffer index, keys present, and RPCs still to be handed the record. -/
structure SequenceRecord (Key RpcId : Type) where
  bufferIndex : Nat
  keys : List Key
  pendingRpcs : List RpcId
  deriving Repr, DecidableEq

variable {Key ModelName : Type} {dfg : Dfg Key ModelName}

/-- The buffer: the records in order of their indices. -/
abbrev SequenceBuffer (dfg : Dfg Key ModelName) :=
  List (SequenceRecord Key dfg.RpcId)

/-- A record is ready for `r`: `r` is pending on it, and every input key of `r` is present. -/
def SequenceRecord.ReadyFor (record : SequenceRecord Key dfg.RpcId) (r : dfg.RpcId) : Prop :=
  r ∈ record.pendingRpcs ∧ ∀ key ∈ (dfg.rpc r).inputData, key ∈ record.keys

instance [DecidableEq Key] (record : SequenceRecord Key dfg.RpcId) (r : dfg.RpcId) :
    Decidable (record.ReadyFor r) :=
  inferInstanceAs (Decidable (_ ∧ _))

/-- `put_batch`: `count` fresh records from `nextIndex` on, with `keys`, pending for every RPC. -/
def putBatch (buffer : SequenceBuffer dfg) (nextIndex count : Nat) (keys : List Key) : SequenceBuffer dfg :=
  buffer ++ (List.range count).map fun offset =>
    ⟨nextIndex + offset, keys, List.finRange dfg.rpcs.length⟩

/-- `get_batch_for_rpc` hands the batch to `r`: `r` is no longer pending on its records. -/
def handBatch (buffer : SequenceBuffer dfg) (r : dfg.RpcId) (batch : List Nat) : SequenceBuffer dfg :=
  buffer.map fun record =>
    if record.bufferIndex ∈ batch then { record with pendingRpcs := record.pendingRpcs.filter (· ≠ r) } else record

/-- `amend_batch`: the keys are added to the records of the batch. -/
def amendBatch (buffer : SequenceBuffer dfg) (batch : List Nat) (keys : List Key) : SequenceBuffer dfg :=
  buffer.map fun record =>
    if record.bufferIndex ∈ batch then { record with keys := record.keys ++ keys } else record

/-- The batches `get_batch_for_rpc(r)` may return. -/
def ValidBatch (buffer : SequenceBuffer dfg) (r : dfg.RpcId) (batch : List Nat) : Prop :=
  batch.Nodup ∧
    (∀ index ∈ batch, ∃ record ∈ buffer, record.bufferIndex = index ∧ record.ReadyFor r) ∧
    (dfg.rpc r).minNSeqs ≤ batch.length ∧ batch.length ≤ (dfg.rpc r).maxNSeqs ∧
    ((dfg.rpc r).balancedDp = true → dfg.dpSize (dfg.rpc r).modelName ∣ batch.length)

instance [DecidableEq Key] (buffer : SequenceBuffer dfg) (r : dfg.RpcId) (batch : List Nat) :
    Decidable (ValidBatch buffer r batch) :=
  inferInstanceAs (Decidable (_ ∧ _))

/-- The spec's selection policy: the ready records in index order, as many as allowed. -/
def fifoBatch [DecidableEq Key] (buffer : SequenceBuffer dfg) (r : dfg.RpcId) : List Nat :=
  let ready := (buffer.filter fun record => decide (record.ReadyFor r)).map SequenceRecord.bufferIndex
  let count := min (dfg.rpc r).maxNSeqs ready.length
  let dpSize := dfg.dpSize (dfg.rpc r).modelName
  ready.take (if (dfg.rpc r).balancedDp then count / dpSize * dpSize else count)

section Lemmas

variable {buffer : SequenceBuffer dfg} {r : dfg.RpcId} {batch : List Nat}

@[simp] theorem map_bufferIndex_handBatch :
    (handBatch buffer r batch).map SequenceRecord.bufferIndex = buffer.map SequenceRecord.bufferIndex := by
  simp only [handBatch, List.map_map]
  congr 1
  funext record
  simp only [Function.comp_apply]
  split <;> rfl

@[simp] theorem map_bufferIndex_amendBatch
    {keys : List Key} :
    (amendBatch buffer batch keys).map SequenceRecord.bufferIndex = buffer.map SequenceRecord.bufferIndex := by
  simp only [amendBatch, List.map_map]
  congr 1
  funext record
  simp only [Function.comp_apply]
  split <;> rfl

/-- A record of the amended buffer: the old record, with the keys added on the batch. -/
theorem mem_amendBatch
    {keys : List Key}
    {record : SequenceRecord Key dfg.RpcId} :
    record ∈ amendBatch buffer batch keys ↔
      ∃ old ∈ buffer, record = if old.bufferIndex ∈ batch then { old with keys := old.keys ++ keys } else old := by
  simp only [amendBatch, List.mem_map]
  constructor
  · rintro ⟨old, member, rfl⟩
    exact ⟨old, member, rfl⟩
  · rintro ⟨old, member, rfl⟩
    exact ⟨old, member, rfl⟩

/-- A record of the buffer after a hand-over: the old record, with `r` no longer pending on the batch. -/
theorem mem_handBatch
    {record : SequenceRecord Key dfg.RpcId} :
    record ∈ handBatch buffer r batch ↔
      ∃ old ∈ buffer, record =
        if old.bufferIndex ∈ batch then { old with pendingRpcs := old.pendingRpcs.filter (· ≠ r) } else old := by
  simp only [handBatch, List.mem_map]
  constructor
  · rintro ⟨old, member, rfl⟩
    exact ⟨old, member, rfl⟩
  · rintro ⟨old, member, rfl⟩
    exact ⟨old, member, rfl⟩

/-- The FIFO batch meets the contract whenever it holds at least `min_n_seqs` records. -/
theorem fifoBatch_valid
    [DecidableEq Key]
    (distinct : (buffer.map SequenceRecord.bufferIndex).Nodup)
    (enough : (dfg.rpc r).minNSeqs ≤ (fifoBatch buffer r).length) :
    ValidBatch buffer r (fifoBatch buffer r) := by
  have ready_nodup :
      ((buffer.filter fun record => decide (record.ReadyFor r)).map SequenceRecord.bufferIndex).Nodup :=
    (distinct.sublist ((List.filter_sublist _).map _))
  refine ⟨ready_nodup.sublist (List.take_sublist _ _), ?_, enough, ?_, ?_⟩
  · intro index member
    obtain ⟨record, filtered, rfl⟩ := List.mem_map.mp (List.mem_of_mem_take member)
    obtain ⟨inBuffer, ready⟩ := List.mem_filter.mp filtered
    exact ⟨record, inBuffer, rfl, of_decide_eq_true ready⟩
  · unfold fifoBatch
    simp only [List.length_take]
    split
    · exact (min_le_left _ _).trans ((Nat.div_mul_le_self _ _).trans (min_le_left _ _))
    · exact (min_le_left _ _).trans (min_le_left _ _)
  · intro balanced
    unfold fifoBatch
    simp only [balanced, ↓reduceIte, List.length_take]
    rw [min_eq_left ((Nat.div_mul_le_self _ _).trans (min_le_right _ _))]
    exact Nat.dvd_mul_left _ _

end Lemmas

end RealRlhf.Master
