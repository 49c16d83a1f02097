import RealRlhf.Master.Scheduler

namespace RealRlhf.Master

/-!
# The data-owner registry and the producer mappings

The request coroutine of an RPC writes `data_owner[(index, key)]` for every output key at
every position of its batch, with the rank of the data-parallel range holding the
position; `load_data_func` writes the owners of the dataset keys. The nested write loops
are one list of writes applied in order (`outputWrites`, `loadWrites`), and an entry that
every write gives the same owner holds that owner (`writeOwners_of_written`).

The ranges of a partition lie in order inside the batch, so each position lies in exactly
one range (`RangesCover.exists_range`, `RangesCover.unique`). `producer_mapping` maps every
rank that holds a position of the batch to those positions, in order
(`producerMapping_lookup`).
-/

variable {Key ModelName : Type} [DecidableEq Key]

section Writes

/-- Registry writes `(index, key, owner)`, applied in order. -/
def writeOwners (dataOwner : Nat → Key → Option (ModelName × Nat))
    (writes : List (Nat × Key × (ModelName × Nat))) : Nat → Key → Option (ModelName × Nat) :=
  writes.foldl (fun dataOwner write => setOwner dataOwner write.1 write.2.1 write.2.2) dataOwner

variable {dataOwner : Nat → Key → Option (ModelName × Nat)} {index : Nat} {key : Key}

@[simp] theorem writeOwners_nil :
    writeOwners dataOwner [] = dataOwner :=
  rfl

@[simp] theorem writeOwners_cons
    {write : Nat × Key × (ModelName × Nat)}
    {writes : List (Nat × Key × (ModelName × Nat))} :
    writeOwners dataOwner (write :: writes) =
      writeOwners (setOwner dataOwner write.1 write.2.1 write.2.2) writes :=
  rfl

/-- An entry that no write touches keeps its owner. -/
theorem writeOwners_of_not_written
    {writes : List (Nat × Key × (ModelName × Nat))}
    (untouched : ∀ write ∈ writes, write.1 = index → write.2.1 ≠ key) :
    writeOwners dataOwner writes index key = dataOwner index key := by
  induction writes generalizing dataOwner with
  | nil => rfl
  | cons write rest inductionHypothesis =>
      rw [writeOwners_cons, inductionHypothesis fun other member => untouched other (List.mem_cons_of_mem _ member)]
      have := untouched write (List.mem_cons_self _ _)
      simp only [setOwner]
      split_ifs with same
      · exact absurd same.2.symm (this same.1.symm)
      · rfl

/-- An entry that is written, and by every write with `owner`, holds `owner`. -/
theorem writeOwners_of_written
    {writes : List (Nat × Key × (ModelName × Nat))}
    {owner : ModelName × Nat}
    (written : ∃ write ∈ writes, write.1 = index ∧ write.2.1 = key)
    (agree : ∀ write ∈ writes, write.1 = index → write.2.1 = key → write.2.2 = owner) :
    writeOwners dataOwner writes index key = some owner := by
  induction writes generalizing dataOwner with
  | nil => simp at written
  | cons write rest inductionHypothesis =>
      rw [writeOwners_cons]
      by_cases later : ∃ other ∈ rest, other.1 = index ∧ other.2.1 = key
      · exact inductionHypothesis later fun other member => agree other (List.mem_cons_of_mem _ member)
      · rw [writeOwners_of_not_written fun other member same sameKey => later ⟨other, member, same, sameKey⟩]
        obtain ⟨first, member, same, sameKey⟩ := written
        rcases List.mem_cons.mp member with rfl | inRest
        · simp [setOwner, same, sameKey, agree first (List.mem_cons_self _ _) same sameKey]
        · exact absurd ⟨first, inRest, same, sameKey⟩ later

/-- The writes of `recordOutputOwners`: each range `dp_idx`, each position in it, each output key. -/
def outputWrites (rpc : ModelRpc Key ModelName) (batch : List Nat) (partitions : List (Nat × Nat)) :
    List (Nat × Key × (ModelName × Nat)) :=
  partitions.enum.flatMap fun (dpIdx, start, stop) =>
    (List.range' start (stop - start)).flatMap fun position =>
      rpc.outputData.map fun key => (batch.getD position 0, rpc.remapOutputKey key, (rpc.modelName, dpIdx))

theorem recordOutputOwners_eq
    {rpc : ModelRpc Key ModelName}
    {batch : List Nat}
    {partitions : List (Nat × Nat)} :
    recordOutputOwners dataOwner rpc batch partitions = writeOwners dataOwner (outputWrites rpc batch partitions) := by
  simp only [recordOutputOwners, writeOwners, outputWrites, List.flatMap_def, List.foldl_flatten, List.foldl_map]

/-- A write of `recordOutputOwners`: an output key at a position of range `dp_idx`, owned by rank `dp_idx`. -/
theorem mem_outputWrites
    {rpc : ModelRpc Key ModelName}
    {batch : List Nat}
    {partitions : List (Nat × Nat)}
    {write : Nat × Key × (ModelName × Nat)} :
    write ∈ outputWrites rpc batch partitions ↔
      ∃ dpIdx start stop position, partitions[dpIdx]? = some (start, stop) ∧ start ≤ position ∧ position < stop ∧
        ∃ key ∈ rpc.outputData, write = (batch.getD position 0, rpc.remapOutputKey key, (rpc.modelName, dpIdx)) := by
  simp only [outputWrites, List.mem_flatMap, List.mem_map, List.mem_range'_1, Prod.exists,
    List.mem_enum_iff_getElem?]
  constructor
  · rintro ⟨dpIdx, start, stop, range, position, ⟨low, high⟩, key, output, rfl⟩
    exact ⟨dpIdx, start, stop, position, range, low, by omega, key, output, rfl⟩
  · rintro ⟨dpIdx, start, stop, position, range, low, high, key, output, rfl⟩
    exact ⟨dpIdx, start, stop, range, position, ⟨low, by omega⟩, key, output, rfl⟩

/-- The writes of `load_data_func`: each dataset key of the `offset`-th new record, owned by its data worker. -/
def loadWrites (datasetKeys : List Key) (nextIndex : Nat) (srcModelName : ModelName) (dataRanks : List Nat) :
    List (Nat × Key × (ModelName × Nat)) :=
  dataRanks.enum.flatMap fun (offset, dpIdx) => datasetKeys.map fun key => (nextIndex + offset, key, (srcModelName, dpIdx))

theorem loadData_dataOwner
    {dfg : Dfg Key ModelName}
    {s : MasterState dfg}
    {srcModelName : ModelName}
    {dataRanks : List Nat} :
    (s.loadData srcModelName dataRanks).dataOwner =
      writeOwners s.dataOwner (loadWrites dfg.datasetKeys s.nextIndex srcModelName dataRanks) := by
  simp only [MasterState.loadData, writeOwners, loadWrites, List.flatMap_def, List.foldl_flatten, List.foldl_map]

omit [DecidableEq Key] in
/-- A write of `load_data_func`: a dataset key of a new record, owned by the record's data worker. -/
theorem mem_loadWrites
    {datasetKeys : List Key}
    {nextIndex : Nat}
    {srcModelName : ModelName}
    {dataRanks : List Nat}
    {write : Nat × Key × (ModelName × Nat)} :
    write ∈ loadWrites datasetKeys nextIndex srcModelName dataRanks ↔
      ∃ offset dpIdx, dataRanks[offset]? = some dpIdx ∧
        ∃ key ∈ datasetKeys, write = (nextIndex + offset, key, (srcModelName, dpIdx)) := by
  simp only [loadWrites, List.mem_flatMap, List.mem_map, Prod.exists, List.mem_enum_iff_getElem?]
  constructor
  · rintro ⟨offset, dpIdx, rank, key, dataset, rfl⟩
    exact ⟨offset, dpIdx, rank, key, dataset, rfl⟩
  · rintro ⟨offset, dpIdx, rank, key, dataset, rfl⟩
    exact ⟨offset, dpIdx, rank, key, dataset, rfl⟩

end Writes

section Ranges

variable {start stop position : Nat} {ranges : List (Nat × Nat)}

theorem RangesCover.start_le
    (cover : RangesCover start ranges stop) :
    start ≤ stop := by
  induction ranges generalizing start with
  | nil => exact Nat.le_of_eq cover
  | cons range rest inductionHypothesis =>
      obtain ⟨first, ordered, restCover⟩ := cover
      have := inductionHypothesis restCover
      omega

/-- Each range lies inside the covered interval and has its start before its end. -/
theorem RangesCover.bounds
    {dpIdx low high : Nat}
    (cover : RangesCover start ranges stop)
    (range : ranges[dpIdx]? = some (low, high)) :
    start ≤ low ∧ low ≤ high ∧ high ≤ stop := by
  induction ranges generalizing start dpIdx with
  | nil => simp at range
  | cons first rest inductionHypothesis =>
      obtain ⟨starts, ordered, restCover⟩ := cover
      cases dpIdx with
      | zero =>
          simp only [List.getElem?_cons_zero, Option.some.injEq] at range
          subst range
          have := restCover.start_le
          omega
      | succ dpIdx =>
          have := inductionHypothesis restCover (by simpa using range)
          omega

/-- No position lies in two ranges. -/
theorem RangesCover.unique
    {dpIdx dpIdx' low high low' high' : Nat}
    (cover : RangesCover start ranges stop)
    (range : ranges[dpIdx]? = some (low, high))
    (range' : ranges[dpIdx']? = some (low', high'))
    (inRange : low ≤ position ∧ position < high)
    (inRange' : low' ≤ position ∧ position < high') :
    dpIdx = dpIdx' := by
  induction ranges generalizing start dpIdx dpIdx' with
  | nil => simp at range
  | cons first rest inductionHypothesis =>
      obtain ⟨starts, ordered, restCover⟩ := cover
      cases dpIdx with
      | zero =>
          cases dpIdx' with
          | zero => rfl
          | succ dpIdx' =>
              simp only [List.getElem?_cons_zero, Option.some.injEq] at range
              subst range
              have := restCover.bounds (by simpa using range')
              omega
      | succ dpIdx =>
          cases dpIdx' with
          | zero =>
              simp only [List.getElem?_cons_zero, Option.some.injEq] at range'
              subst range'
              have := restCover.bounds (by simpa using range)
              omega
          | succ dpIdx' =>
              exact congrArg (· + 1) (inductionHypothesis restCover (by simpa using range) (by simpa using range'))

/-- Every position of the covered interval lies in some range. -/
theorem RangesCover.exists_range
    (cover : RangesCover start ranges stop)
    (inside : start ≤ position ∧ position < stop) :
    ∃ dpIdx low high : Nat, ranges[dpIdx]? = some (low, high) ∧ low ≤ position ∧ position < high := by
  induction ranges generalizing start with
  | nil =>
      have : start = stop := cover
      omega
  | cons first rest inductionHypothesis =>
      obtain ⟨starts, ordered, restCover⟩ := cover
      by_cases early : position < first.2
      · refine ⟨0, first.1, first.2, ?_, by omega, early⟩
        simp
      · obtain ⟨dpIdx, low, high, range, inRange⟩ := inductionHypothesis restCover ⟨by omega, inside.2⟩
        exact ⟨dpIdx + 1, low, high, by simpa using range, inRange⟩

end Ranges

section ProducerMapping

/-- The positions of `dp_indices` that hold `dp_idx`, in order. -/
def positionsOf (dpIndices : List Nat) (dpIdx : Nat) : List Nat :=
  (dpIndices.enum.filter fun entry => entry.2 = dpIdx).map (·.1)

theorem mem_positionsOf
    {dpIndices : List Nat}
    {dpIdx position : Nat} :
    position ∈ positionsOf dpIndices dpIdx ↔ dpIndices[position]? = some dpIdx := by
  simp [positionsOf, List.mem_enum_iff_getElem?]

/-- A map that keeps the keys of an association list maps what `lookup` finds. -/
theorem lookup_map_values
    (mapping : List (Nat × List Nat))
    (f : Nat → List Nat → List Nat)
    (dpIdx : Nat) :
    (mapping.map fun item => (item.1, f item.1 item.2)).lookup dpIdx = (mapping.lookup dpIdx).map (f dpIdx) := by
  induction mapping with
  | nil => rfl
  | cons item rest inductionHypothesis =>
      rw [List.map_cons, List.lookup_cons, List.lookup_cons]
      by_cases same : dpIdx = item.1
      · simp [same]
      · have differ : (dpIdx == item.1) = false := by simpa using same
        simp only [differ]
        exact inductionHypothesis

/-- `producer_mapping[dp_idx].append(i)` appends to the list of `dp_idx` and leaves the others. -/
theorem lookup_appendPosition
    (mapping : List (Nat × List Nat))
    (entry : Nat × Nat)
    (dpIdx : Nat) :
    (appendPosition mapping entry).lookup dpIdx =
      if dpIdx = entry.2 then some ((mapping.lookup dpIdx).getD [] ++ [entry.1]) else mapping.lookup dpIdx := by
  have values : (fun item : Nat × List Nat => if item.1 = entry.2 then (item.1, item.2 ++ [entry.1]) else item) =
      fun item => (item.1, if item.1 = entry.2 then item.2 ++ [entry.1] else item.2) := by
    funext item
    split_ifs <;> rfl
  by_cases present : mapping.any (·.1 == entry.2) = true
  · obtain ⟨found, member, key⟩ := List.any_eq_true.mp present
    obtain ⟨positions, lookedUp⟩ := Option.isSome_iff_exists.mp
      (List.lookup_isSome_iff.mpr ⟨found, member, beq_iff_eq.mpr (beq_iff_eq.mp key).symm⟩ :
        (mapping.lookup entry.2).isSome)
    simp only [appendPosition, present, if_true, values]
    rw [lookup_map_values mapping fun key positions => if key = entry.2 then positions ++ [entry.1] else positions]
    by_cases same : dpIdx = entry.2
    · simp [same, lookedUp]
    · simp [same]
  · have absent : mapping.lookup entry.2 = none := by
      rw [List.lookup_eq_none_iff]
      intro item member
      have differs := List.any_eq_false.mp (Bool.eq_false_iff.mpr present) item member
      simp only [bne_iff_ne, ne_eq]
      exact fun same => differs (beq_iff_eq.mpr same.symm)
    simp only [appendPosition, present, if_false, Bool.false_eq_true]
    by_cases same : dpIdx = entry.2
    · simp [List.lookup_append, same, absent]
    · have differ : (dpIdx == entry.2) = false := by simpa using same
      simp [List.lookup_append, List.lookup_cons, same, differ]

/-- After a run of the loop, each `dp_idx` seen maps to its positions, appended in order. -/
theorem lookup_foldl_appendPosition
    (entries : List (Nat × Nat))
    (mapping : List (Nat × List Nat))
    (dpIdx : Nat) :
    (entries.foldl appendPosition mapping).lookup dpIdx =
      if dpIdx ∈ entries.map (·.2) then
        some ((mapping.lookup dpIdx).getD [] ++ (entries.filter fun entry => entry.2 = dpIdx).map (·.1))
      else mapping.lookup dpIdx := by
  induction entries generalizing mapping with
  | nil => simp
  | cons entry rest inductionHypothesis =>
      rw [List.foldl_cons, inductionHypothesis, lookup_appendPosition]
      by_cases same : dpIdx = entry.2
      · subst same
        by_cases later : entry.2 ∈ rest.map (·.2)
        · simp [later]
        · have : (rest.filter fun other => other.2 = entry.2) = [] :=
            List.filter_eq_nil_iff.mpr fun other member same =>
              later (List.mem_map.mpr ⟨other, member, by simpa using same⟩)
          simp [later, this]
      · have notHead : dpIdx ∈ (entry :: rest).map (·.2) ↔ dpIdx ∈ rest.map (·.2) := by
          simp [same]
        have filterCons : ((entry :: rest).filter fun other => other.2 = dpIdx) =
            rest.filter fun other => other.2 = dpIdx := by
          simp [Ne.symm same]
        simp only [same, if_false, notHead, filterCons]

/-- The map `producer_mapping` builds: every rank present maps to the sorted positions holding it. -/
theorem producerMapping_lookup
    (dpIndices : List Nat)
    (dpIdx : Nat) :
    (producerMapping dpIndices).lookup dpIdx =
      if dpIdx ∈ dpIndices then some (positionsOf dpIndices dpIdx) else none := by
  have sorted : (positionsOf dpIndices dpIdx).Pairwise fun a b => decide (a ≤ b) = true := by
    have increasing : (positionsOf dpIndices dpIdx).Pairwise (· < ·) := by
      have sub : (positionsOf dpIndices dpIdx).Sublist (dpIndices.enum.map (·.1)) :=
        (List.filter_sublist _).map _
      rw [List.enum_map_fst] at sub
      exact (List.pairwise_lt_range _).sublist sub
    exact increasing.imp fun less => decide_eq_true (Nat.le_of_lt less)
  unfold producerMapping
  rw [lookup_map_values _ (fun _ positions => positions.mergeSort fun a b => decide (a ≤ b)),
    lookup_foldl_appendPosition]
  simp only [List.enum_map_snd, List.lookup_nil, Option.getD_none, List.nil_append]
  split_ifs
  · simp only [Option.map_some']
    rw [← positionsOf, List.mergeSort_of_sorted sorted]
  · rfl

/-- The loop adds a rank to the keys only when it is not there yet. -/
theorem nodup_keys_appendPosition
    {mapping : List (Nat × List Nat)}
    (distinct : (mapping.map (·.1)).Nodup)
    (entry : Nat × Nat) :
    ((appendPosition mapping entry).map (·.1)).Nodup := by
  unfold appendPosition
  split_ifs with present
  · simpa [List.map_map, Function.comp_def, apply_ite Prod.fst] using distinct
  · rw [List.map_append, List.nodup_append]
    refine ⟨distinct, List.nodup_singleton _, ?_⟩
    simp only [List.map_cons, List.map_nil, List.disjoint_singleton, List.mem_map, not_exists, not_and]
    intro item member same
    exact present (List.any_eq_true.mpr ⟨item, member, beq_iff_eq.mpr same⟩)

/-- `producer_mapping` has each rank once, as the `dict` it is. -/
theorem producerMapping_nodup_keys
    (dpIndices : List Nat) :
    ((producerMapping dpIndices).map (·.1)).Nodup := by
  have loop : ∀ (entries : List (Nat × Nat)) (mapping : List (Nat × List Nat)),
      (mapping.map (·.1)).Nodup → ((entries.foldl appendPosition mapping).map (·.1)).Nodup := by
    intro entries
    induction entries with
    | nil => exact fun _ distinct => distinct
    | cons entry rest inductionHypothesis =>
        exact fun mapping distinct => inductionHypothesis _ (nodup_keys_appendPosition distinct entry)
  simpa [producerMapping, List.map_map, Function.comp_def] using loop dpIndices.enum [] List.nodup_nil

end ProducerMapping

end RealRlhf.Master
