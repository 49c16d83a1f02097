import Mathlib

namespace RealRlhf.Datapack

/-!
# First-fit bin packing

`ffd_check`, `ffd_with_result` and `ffd_with_result_unsorted` of `base/datapack.py`.
All three run the same inner scan: the first bin whose remaining room is at least the
item's size takes it. `ffd_check` scans `n` bins filled with `c` and fails when none has
room; the two packers open a new bin instead. Sizes are integers, as the numpy arrays
the dataset and the allocator pass.

The scan is stated once (`placeFirst`) with one inversion lemma. From it follow the
first-fit invariant (room, capacity, and any two bins overflowing together), that the
bins hold each processed index once, and the simulation of the fixed-bin check by the
bin-opening packer.
-/

/-- `np.sort(a)[::-1]`: the sizes in descending order. -/
def sortDesc (a : List Int) : List Int :=
  (a.mergeSort fun x y => x ≤ y).reverse

/--
`np.argsort(a)[::-1]`: the indices by descending size. A stable ascending sort, reversed,
stands for numba's quicksort; nothing proved here depends on the order among equal sizes.
-/
def argsortDesc (a : List Int) : List Nat :=
  ((List.range a.length).mergeSort fun i j => a.getD i 0 ≤ a.getD j 0).reverse

section Scan

variable {β : Type}

/--
The scan `for idx in range(len(bins)): if bins[idx] >= size: ...; break`: the first bin
with room at least `size` is updated by `take`; `none` when no bin has room.
-/
def placeFirst (room : β → Int) (take : β → β) (size : Int) : List β → Option (List β)
  | [] => none
  | bin :: rest =>
      if size ≤ room bin then some (take bin :: rest)
      else (placeFirst room take size rest).map (bin :: ·)

variable {room : β → Int} {take : β → β} {size : Int}

/-- Bins without room are passed over: the scan of `pre ++ rest` is the scan of `rest`. -/
theorem placeFirst_append_of_lt
    {pre : List β}
    (skipped : ∀ bin ∈ pre, room bin < size)
    (rest : List β) :
    placeFirst room take size (pre ++ rest) = (placeFirst room take size rest).map (pre ++ ·) := by
  induction pre with
  | nil => simp
  | cons bin pre inductionHypothesis =>
      simp only [List.mem_cons, forall_eq_or_imp] at skipped
      simp [placeFirst, not_le.mpr skipped.1, inductionHypothesis skipped.2, Option.map_map,
        Function.comp_def]

/-- A successful scan passed over bins without room and updated the first bin with room. -/
theorem placeFirst_eq_some :
    ∀ {bins bins' : List β}, placeFirst room take size bins = some bins' →
      ∃ pre bin post, bins = pre ++ bin :: post ∧ (∀ b ∈ pre, room b < size) ∧
        size ≤ room bin ∧ bins' = pre ++ take bin :: post
  | [], _, found => by simp [placeFirst] at found
  | bin :: rest, bins', found => by
      by_cases fits : size ≤ room bin
      · simp only [placeFirst, fits, if_true, Option.some.injEq] at found
        exact ⟨[], bin, rest, rfl, by simp, fits, found.symm⟩
      · simp only [placeFirst, fits, if_false, Option.map_eq_some'] at found
        obtain ⟨rest', foundRest, rfl⟩ := found
        obtain ⟨pre, b, post, rfl, skipped, fitsB, rfl⟩ := placeFirst_eq_some foundRest
        refine ⟨bin :: pre, b, post, rfl, ?_, fitsB, rfl⟩
        simpa [not_le.mp fits] using skipped

/-- A failed scan met no bin with room. -/
theorem placeFirst_eq_none :
    ∀ {bins : List β}, placeFirst room take size bins = none → ∀ bin ∈ bins, room bin < size
  | [], _ => by simp
  | bin :: rest, missed => by
      by_cases fits : size ≤ room bin
      · simp [placeFirst, fits] at missed
      · simp only [placeFirst, fits, if_false, Option.map_eq_none'] at missed
        simpa [not_le.mp fits] using placeFirst_eq_none missed

/-- The scan keeps the number of bins. -/
theorem length_of_placeFirst_eq_some
    {bins bins' : List β}
    (found : placeFirst room take size bins = some bins') :
    bins'.length = bins.length := by
  obtain ⟨pre, bin, post, rfl, -, -, rfl⟩ := placeFirst_eq_some found
  simp

end Scan

/-- `ffd_check(a, c, n)`: first-fit over the sizes in descending order into `n` bins of room `c`, `False` at the first size no bin has room for. -/
def ffdCheck (a : List Int) (c : Int) (n : Nat) : Bool :=
  ((sortDesc a).foldlM (fun bins size => placeFirst id (· - size) size bins) (List.replicate n c)).isSome

/-- One bin of the packers: `bins[idx]`, its remaining room, and `bins_result[idx]`, its item indices, kept by the source in two parallel lists. -/
structure Bin where
  room : Int
  items : List Nat
  deriving Repr, DecidableEq

/-- One pass of the item loop: item `index` of `size` goes into the first bin with room, else `bins.append(c - size)` and `bins_result.append([index])`. -/
def ffdInsert (c : Int) (bins : List Bin) (index : Nat) (size : Int) : List Bin :=
  (placeFirst Bin.room (fun bin => ⟨bin.room - size, bin.items ++ [index]⟩) size bins).getD
    (bins ++ [⟨c - size, [index]⟩])

/-- The bins after the item loop over the indices `order`, item `i` having size `a[i]`. -/
def firstFitBins (a : List Int) (c : Int) (order : List Nat) : List Bin :=
  order.foldl (fun bins index => ffdInsert c bins index (a.getD index 0)) []

/-- `ffd_with_result(a, c)`: the item loop over `indices = np.argsort(a)[::-1]`, item `a_id` of `a[indices]` standing for `indices[a_id]`. -/
def ffdWithResult (a : List Int) (c : Int) : List (List Nat) :=
  (firstFitBins a c (argsortDesc a)).map Bin.items

/-- `ffd_with_result_unsorted(a, c)`: the item loop over the indices in order. -/
def ffdWithResultUnsorted (a : List Int) (c : Int) : List (List Nat) :=
  (firstFitBins a c (List.range a.length)).map Bin.items

/-- Load of a bin: the sizes `a[i]` of its items, summed. -/
def binLoad (a : List Int) (items : List Nat) : Int :=
  (items.map (a.getD · 0)).sum

@[simp]
theorem binLoad_nil
    (a : List Int) :
    binLoad a [] = 0 :=
  rfl

@[simp]
theorem binLoad_singleton
    (a : List Int)
    (index : Nat) :
    binLoad a [index] = a.getD index 0 := by
  simp [binLoad]

@[simp]
theorem binLoad_append_singleton
    (a : List Int)
    (items : List Nat)
    (index : Nat) :
    binLoad a (items ++ [index]) = binLoad a items + a.getD index 0 := by
  simp [binLoad]

/-! ## The descending order -/

/-- Every index of `range n` names an element of `a`. -/
theorem getD_mem_of_lt
    {a : List Int}
    {index : Nat}
    (inBounds : index < a.length) :
    a.getD index 0 ∈ a := by
  simp [List.getElem?_eq_getElem inBounds]

/-- Reading `a` at every index in order gives `a` back. -/
theorem map_getD_range
    (a : List Int) :
    (List.range a.length).map (a.getD · 0) = a :=
  List.ext_getElem (by simp) fun index _ inBounds => by
    simp [List.getElem?_eq_getElem inBounds]

/-- The argsort order visits every index once. -/
theorem argsortDesc_perm
    (a : List Int) :
    (argsortDesc a).Perm (List.range a.length) :=
  (List.reverse_perm _).trans (List.mergeSort_perm _ _)

/-- `ffd_with_result` and `ffd_check` see the same sizes in the same order: `a[argsort(a)[::-1]] = sort(a)[::-1]`. -/
theorem map_argsortDesc
    (a : List Int) :
    (argsortDesc a).map (a.getD · 0) = sortDesc a := by
  have byIndex : ((argsortDesc a).map (a.getD · 0)).Sorted (· ≥ ·) := by
    have ascending : ((List.range a.length).mergeSort fun i j => a.getD i 0 ≤ a.getD j 0).Pairwise
        fun i j => a.getD i 0 ≤ a.getD j 0 :=
      (List.sorted_mergeSort (fun _ _ _ h₁ h₂ => by simp only [decide_eq_true_eq] at *; omega)
        (fun _ _ => by simpa using le_total _ _) _).imp (by simp)
    simpa [argsortDesc, List.Sorted, List.map_reverse, List.pairwise_reverse, List.pairwise_map]
      using ascending
  have bySize : (sortDesc a).Sorted (· ≥ ·) :=
    List.pairwise_reverse.mpr <| (List.sorted_mergeSort
      (fun _ _ _ h₁ h₂ => by simp only [decide_eq_true_eq] at *; omega)
      (fun x y => by simpa using le_total x y) a).imp (by simp)
  have samePerm : ((argsortDesc a).map (a.getD · 0)).Perm (sortDesc a) := by
    have byValue := (argsortDesc_perm a).map (a.getD · 0)
    rw [map_getD_range] at byValue
    exact byValue.trans ((List.reverse_perm _).trans (List.mergeSort_perm _ _)).symm
  exact List.eq_of_perm_of_sorted samePerm byIndex bySize

/-! ## One item -/

/-- What one pass of the item loop does: the first bin with room takes the item, or, when no bin has room, a new bin holds it alone. -/
theorem ffdInsert_cases
    (c : Int)
    (bins : List Bin)
    (index : Nat)
    (size : Int) :
    (∃ pre bin post, bins = pre ++ bin :: post ∧ (∀ b ∈ pre, b.room < size) ∧ size ≤ bin.room ∧
        ffdInsert c bins index size = pre ++ ⟨bin.room - size, bin.items ++ [index]⟩ :: post) ∨
      ((∀ bin ∈ bins, bin.room < size) ∧ ffdInsert c bins index size = bins ++ [⟨c - size, [index]⟩]) := by
  unfold ffdInsert
  cases found : placeFirst Bin.room (fun bin => ⟨bin.room - size, bin.items ++ [index]⟩) size bins with
  | none => exact .inr ⟨placeFirst_eq_none found, rfl⟩
  | some bins' =>
      obtain ⟨pre, bin, post, rfl, skipped, fits, rfl⟩ := placeFirst_eq_some found
      exact .inl ⟨pre, bin, post, rfl, skipped, fits, rfl⟩

/-- One item adds its index to the contents of the bins. -/
theorem flatten_ffdInsert_perm
    (c : Int)
    (bins : List Bin)
    (index : Nat)
    (size : Int) :
    ((ffdInsert c bins index size).map Bin.items).flatten.Perm ((bins.map Bin.items).flatten ++ [index]) := by
  rcases ffdInsert_cases c bins index size with ⟨pre, bin, post, rfl, -, -, inserted⟩ | ⟨-, inserted⟩
  · simpa [inserted] using ((List.perm_append_singleton index _).symm.append_left _).append_left _
  · simp [inserted]

/-- No bin is ever closed. -/
theorem length_le_ffdInsert
    (c : Int)
    (bins : List Bin)
    (index : Nat)
    (size : Int) :
    bins.length ≤ (ffdInsert c bins index size).length := by
  rcases ffdInsert_cases c bins index size with ⟨pre, bin, post, rfl, -, -, inserted⟩ | ⟨-, inserted⟩
  · simp [inserted]
  · simp [inserted]

/-! ## The first-fit invariant -/

section Replace

variable {β : Type} {pre post : List β} {bin bin' : β}

/-- A member of a list with one element replaced is the new element or was there before. -/
theorem mem_replace
    {b : β}
    (member : b ∈ pre ++ bin' :: post) :
    b = bin' ∨ b ∈ pre ++ bin :: post := by
  simp only [List.mem_append, List.mem_cons] at member ⊢
  tauto

/-- Replacing one element by one related to at least the same elements keeps a list pairwise related. -/
theorem pairwise_replace
    {R : β → β → Prop}
    (pairwise : (pre ++ bin :: post).Pairwise R)
    (before : ∀ b, R b bin → R b bin')
    (after : ∀ b, R bin b → R bin' b) :
    (pre ++ bin' :: post).Pairwise R := by
  simp only [List.pairwise_append, List.pairwise_cons, List.mem_cons] at pairwise ⊢
  obtain ⟨pairwisePre, ⟨afterBin, pairwisePost⟩, across⟩ := pairwise
  refine ⟨pairwisePre, ⟨fun b member => after b (afterBin b member), pairwisePost⟩, ?_⟩
  rintro b memberPre b' (rfl | memberPost)
  · exact before b (across b memberPre bin (.inl rfl))
  · exact across b memberPre b' (.inr memberPost)

end Replace

/-- What first-fit keeps of its bins: each room is the capacity less the load, each bin holds an item, no bin is over capacity, and any two bins together exceed it. -/
structure FirstFitInvariant (a : List Int) (c : Int) (bins : List Bin) : Prop where
  room : ∀ bin ∈ bins, bin.room = c - binLoad a bin.items
  nonempty : ∀ bin ∈ bins, bin.items ≠ []
  withinCapacity : ∀ bin ∈ bins, binLoad a bin.items ≤ c
  pairsOverflow : bins.Pairwise fun bin bin' => c < binLoad a bin.items + binLoad a bin'.items

/-- One item of size in `[0, c]` keeps the first-fit invariant. -/
theorem firstFitInvariant_ffdInsert
    {a : List Int}
    {c : Int}
    {bins : List Bin}
    {index : Nat}
    (invariant : FirstFitInvariant a c bins)
    (nonneg : 0 ≤ a.getD index 0)
    (fits : a.getD index 0 ≤ c) :
    FirstFitInvariant a c (ffdInsert c bins index (a.getD index 0)) := by
  rcases ffdInsert_cases c bins index (a.getD index 0) with
    ⟨pre, bin, post, rfl, -, hasRoom, inserted⟩ | ⟨noRoom, inserted⟩
  · -- the first bin with room takes the item and its load grows by the item's size
    have roomBin := invariant.room bin (by simp)
    rw [inserted]
    refine ⟨fun b member => ?_, fun b member => ?_, fun b member => ?_, ?_⟩
    · rcases mem_replace member with rfl | member
      · simp only [binLoad_append_singleton]; omega
      · exact invariant.room b member
    · rcases mem_replace member with rfl | member
      · simp
      · exact invariant.nonempty b member
    · rcases mem_replace member with rfl | member
      · simp only [binLoad_append_singleton]; omega
      · exact invariant.withinCapacity b member
    · refine pairwise_replace invariant.pairsOverflow (fun _ overflow => ?_) (fun _ overflow => ?_) <;>
        simp only [binLoad_append_singleton] <;> omega
  · -- no bin had room: the new bin and every old one overflow together
    rw [inserted]
    refine ⟨?_, ?_, ?_, List.pairwise_append.mpr ⟨invariant.pairsOverflow, List.pairwise_singleton _ _, ?_⟩⟩
    · simpa [or_imp, forall_and] using invariant.room
    · simpa [or_imp, forall_and] using invariant.nonempty
    · simpa [or_imp, forall_and] using And.intro invariant.withinCapacity fits
    · simp only [List.mem_singleton]
      rintro b member _ rfl
      have := noRoom b member
      have := invariant.room b member
      simp only [binLoad_singleton]
      omega

/-- The item loop over items of size in `[0, c]` keeps the first-fit invariant. -/
theorem firstFitInvariant_foldl
    {a : List Int}
    {c : Int} :
    ∀ {order : List Nat}, (∀ index ∈ order, 0 ≤ a.getD index 0 ∧ a.getD index 0 ≤ c) →
      ∀ {bins : List Bin}, FirstFitInvariant a c bins →
        FirstFitInvariant a c (order.foldl (fun bins index => ffdInsert c bins index (a.getD index 0)) bins)
  | [], _, _, invariant => invariant
  | index :: _, inRange, _, invariant => by
      simp only [List.mem_cons, forall_eq_or_imp] at inRange
      exact firstFitInvariant_foldl inRange.2 (firstFitInvariant_ffdInsert invariant inRange.1.1 inRange.1.2)

/-- The item loop adds the indices it visits to the contents of the bins. -/
theorem flatten_foldl_ffdInsert_perm
    (a : List Int)
    (c : Int) :
    ∀ (order : List Nat) (bins : List Bin),
      ((order.foldl (fun bins index => ffdInsert c bins index (a.getD index 0)) bins).map Bin.items).flatten.Perm
        ((bins.map Bin.items).flatten ++ order)
  | [], _ => by simp
  | index :: order, bins => by
      simpa using (flatten_foldl_ffdInsert_perm a c order _).trans
        ((flatten_ffdInsert_perm c bins index _).append_right order)

/-! ## The fixed-bin check against the bin-opening packer -/

/-- No bin is ever closed over a whole run of the item loop. -/
theorem length_le_foldl_ffdInsert
    (a : List Int)
    (c : Int) :
    ∀ (order : List Nat) (bins : List Bin),
      bins.length ≤ (order.foldl (fun bins index => ffdInsert c bins index (a.getD index 0)) bins).length
  | [], _ => le_rfl
  | index :: order, bins =>
      (length_le_ffdInsert c bins index _).trans (length_le_foldl_ffdInsert a c order _)

/--
The scan of `ffd_check` over the rooms of the packer's bins followed by `fresh` untouched
bins of room `c` places every size exactly when the packer opens at most `fresh` more bins:
both loops put each size into the same bin.
-/
theorem isSome_foldlM_placeFirst_iff
    (a : List Int)
    (c : Int) :
    ∀ (order : List Nat), (∀ index ∈ order, a.getD index 0 ≤ c) → ∀ (bins : List Bin) (fresh : Nat),
      ((order.map (a.getD · 0)).foldlM (fun rooms size => placeFirst id (· - size) size rooms)
          (bins.map Bin.room ++ List.replicate fresh c)).isSome = true ↔
        (order.foldl (fun bins index => ffdInsert c bins index (a.getD index 0)) bins).length ≤
          bins.length + fresh
  | [], _, bins, fresh => by simp
  | index :: order, fits, bins, fresh => by
      simp only [List.mem_cons, forall_eq_or_imp] at fits
      obtain ⟨fitsHead, fitsRest⟩ := fits
      simp only [List.map_cons, List.foldlM_cons, List.foldl_cons, Option.bind_eq_bind]
      generalize a.getD index 0 = size at fitsHead ⊢
      rcases ffdInsert_cases c bins index size with
        ⟨pre, bin, post, rfl, skipped, hasRoom, inserted⟩ | ⟨noRoom, inserted⟩
      · -- both loops put the size into `bin`
        have scan : placeFirst id (· - size) size ((pre ++ bin :: post).map Bin.room ++ List.replicate fresh c) =
            some ((pre ++ ⟨bin.room - size, bin.items ++ [index]⟩ :: post).map Bin.room ++
              List.replicate fresh c) := by
          rw [List.map_append, List.append_assoc, placeFirst_append_of_lt (by simpa using skipped)]
          simp [placeFirst, hasRoom]
        rw [scan, inserted, Option.some_bind, isSome_foldlM_placeFirst_iff a c order fitsRest]
        simp
      · have scan : placeFirst id (· - size) size (bins.map Bin.room ++ List.replicate fresh c) =
            (placeFirst id (· - size) size (List.replicate fresh c)).map (bins.map Bin.room ++ ·) :=
          placeFirst_append_of_lt (by simpa using noRoom) _
        have opened := length_le_foldl_ffdInsert a c order (bins ++ [⟨c - size, [index]⟩])
        simp only [List.length_append, List.length_singleton] at opened
        rw [scan, inserted]
        cases fresh with
        | zero =>
            -- `ffd_check` finds no room, and the packer opens a bin beyond `bins.length`
            simp only [List.replicate_zero, placeFirst, Option.map_none', Option.none_bind,
              Option.isSome_none, Bool.false_eq_true, false_iff, not_le]
            omega
        | succ fresh =>
            -- `ffd_check` fills its first untouched bin, and the packer opens one
            have fillsFresh : placeFirst id (· - size) size (List.replicate (fresh + 1) c) =
                some ((c - size) :: List.replicate fresh c) := by
              simp [placeFirst, List.replicate_succ, fitsHead]
            have := isSome_foldlM_placeFirst_iff a c order fitsRest (bins ++ [⟨c - size, [index]⟩]) fresh
            simp only [List.map_append, List.map_singleton, List.append_assoc, List.singleton_append,
              List.length_append, List.length_singleton] at this
            rw [fillsFresh, Option.map_some', Option.some_bind, this]
            omega

/-- `ffd_check(a, c, n)` accepts exactly when the first-fit loop over the descending argsort opens at most `n` bins. -/
theorem ffdCheck_eq_true_iff_firstFitBins
    (a : List Int)
    (c : Int)
    (n : Nat)
    (sizesInRange : ∀ x ∈ a, 0 ≤ x ∧ x ≤ c) :
    ffdCheck a c n = true ↔ (firstFitBins a c (argsortDesc a)).length ≤ n := by
  have fits : ∀ index ∈ argsortDesc a, a.getD index 0 ≤ c := fun index member =>
    (sizesInRange _ (getD_mem_of_lt (by simpa using (argsortDesc_perm a).mem_iff.mp member))).2
  have simulation := isSome_foldlM_placeFirst_iff a c (argsortDesc a) fits [] n
  rw [map_argsortDesc] at simulation
  simpa [ffdCheck, firstFitBins] using simulation

/-- `ffd_check(a, c, n)` holds exactly when `ffd_with_result(a, c)` needs at most `n` bins. -/
theorem ffdCheck_iff_length_ffdWithResult_le
    (a : List Int)
    (c : Int)
    (n : Nat)
    (sizesInRange : ∀ x ∈ a, 0 ≤ x ∧ x ≤ c) :
    ffdCheck a c n = true ↔ (ffdWithResult a c).length ≤ n := by
  rw [ffdWithResult, List.length_map]
  exact ffdCheck_eq_true_iff_firstFitBins a c n sizesInRange

/-- The equivalence on the items `[600, 500, 400, 400, 300, 200, 100]` under capacity `1000` with three bins. -/
theorem ffdCheck_iff_length_ffdWithResult_le_scenario :
    (∀ x ∈ ([600, 500, 400, 400, 300, 200, 100] : List Int), 0 ≤ x ∧ x ≤ 1000) ∧
      (ffdCheck [600, 500, 400, 400, 300, 200, 100] 1000 3 = true ↔
        (ffdWithResult [600, 500, 400, 400, 300, 200, 100] 1000).length ≤ 3) :=
  ⟨by decide, ffdCheck_iff_length_ffdWithResult_le _ _ _ (by decide)⟩

/-- What a first-fit packing of the items `0..n-1` of sizes `a` into bins of capacity `c` guarantees: each bin holds an item, each index is in exactly one bin, no bin is over capacity, and any two bins together exceed it. -/
structure FirstFitPacking (a : List Int) (c : Int) (bins : List (List Nat)) : Prop where
  nonempty : ∀ bin ∈ bins, bin ≠ []
  exactlyOnce : bins.flatten.Perm (List.range a.length)
  withinCapacity : ∀ bin ∈ bins, binLoad a bin ≤ c
  pairsOverflow : bins.Pairwise fun bin bin' => c < binLoad a bin + binLoad a bin'

/-- First-fit over any order of the indices, with every size in `[0, c]`, is a first-fit packing. -/
theorem firstFitBins_packing
    {a : List Int}
    {c : Int}
    {order : List Nat}
    (visitsAll : order.Perm (List.range a.length))
    (sizesInRange : ∀ x ∈ a, 0 ≤ x ∧ x ≤ c) :
    FirstFitPacking a c ((firstFitBins a c order).map Bin.items) := by
  have inRange : ∀ index ∈ order, 0 ≤ a.getD index 0 ∧ a.getD index 0 ≤ c := fun index member =>
    sizesInRange _ (getD_mem_of_lt (by simpa using visitsAll.mem_iff.mp member))
  have invariant : FirstFitInvariant a c (firstFitBins a c order) :=
    firstFitInvariant_foldl inRange ⟨by simp, by simp, by simp, List.Pairwise.nil⟩
  refine ⟨?_, ?_, ?_, ?_⟩
  · simpa using invariant.nonempty
  · simpa [firstFitBins] using (flatten_foldl_ffdInsert_perm a c order []).trans visitsAll
  · simpa using invariant.withinCapacity
  · exact List.pairwise_map.mpr invariant.pairsOverflow

/-- `ffd_with_result` returns a first-fit packing. -/
theorem ffdWithResult_packing
    {a : List Int}
    {c : Int}
    (sizesInRange : ∀ x ∈ a, 0 ≤ x ∧ x ≤ c) :
    FirstFitPacking a c (ffdWithResult a c) :=
  firstFitBins_packing (argsortDesc_perm a) sizesInRange

/-- `ffd_with_result_unsorted` returns a first-fit packing. -/
theorem ffdWithResultUnsorted_packing
    {a : List Int}
    {c : Int}
    (sizesInRange : ∀ x ∈ a, 0 ≤ x ∧ x ≤ c) :
    FirstFitPacking a c (ffdWithResultUnsorted a c) :=
  firstFitBins_packing (List.Perm.refl _) sizesInRange

/-- A first-fit packing has at most one bin per item. -/
theorem FirstFitPacking.length_le
    {a : List Int}
    {c : Int}
    {bins : List (List Nat)}
    (packing : FirstFitPacking a c bins) :
    bins.length ≤ a.length := by
  have atMostFlatten : ∀ bins : List (List Nat), (∀ bin ∈ bins, bin ≠ []) → bins.length ≤ bins.flatten.length := by
    intro bins nonempty
    induction bins with
    | nil => simp
    | cons bin bins inductionHypothesis =>
        simp only [List.mem_cons, forall_eq_or_imp] at nonempty
        have := List.length_pos.mpr nonempty.1
        simp only [List.length_cons, List.flatten_cons, List.length_append]
        have := inductionHypothesis nonempty.2
        omega
  simpa [packing.exactlyOnce.length_eq] using atMostFlatten bins packing.nonempty

/-- `ffd_check` accepts items sized in `[0, c]` into at least as many bins as there are items. -/
theorem ffdCheck_of_length_le
    {a : List Int}
    {c : Int}
    {n : Nat}
    (sizesInRange : ∀ x ∈ a, 0 ≤ x ∧ x ≤ c)
    (enoughBins : a.length ≤ n) :
    ffdCheck a c n = true :=
  (ffdCheck_eq_true_iff_firstFitBins a c n sizesInRange).mpr
    (by simpa [ffdWithResult] using (ffdWithResult_packing sizesInRange).length_le.trans enoughBins)

end RealRlhf.Datapack


