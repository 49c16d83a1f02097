import Mathlib.Data.List.AList

namespace RealRlhf.Pipeline

/-!
# The tensor buffer of a pipeline stage

`TensorBuffer` of `impl/model/utils/tensor_storage.py` keeps tensors by name and micro-batch
id in a `defaultdict(dict)`. Its dicts are modelled as association lists with distinct keys
(`AList`): no method reads their insertion order. A method that raises `KeyError` keeps what it
did before raising, as Python does, so each method returns its result together with the buffer
it leaves.

What the buffer is for is a store (`TensorBuffer.Store`): a tensor or nothing for each name and
micro-batch id, and the set of names the `defaultdict` holds. Every call of a method on the
buffer answers as the same call on the store, and leaves the buffer the store describes
(`abstract_call`), so over every sequence of calls the buffer refines the store
(`runCalls_refines`).

Reading `self.tensors[name]` binds a missing name to an empty dict, also when the read then
raises. So `check_name` says whether a name was read since it was last deleted, not whether it
holds a tensor; a call that raises keeps every tensor (`call_raised_keeps_tensors`).
-/

variable {Value : Type}

/-- The micro-batches of one name: a `dict` from micro-batch ids to tensors. -/
abbrev MbidDict (Value : Type) := AList fun _ : Int => Value

/-- `TensorBuffer`: its attribute `tensors`, from names to the dicts of their micro-batches. -/
structure TensorBuffer (Value : Type) where
  tensors : AList fun _ : String => MbidDict Value

namespace TensorBuffer

/-- The `KeyError`s that the methods of `TensorBuffer` let through. -/
inductive KeyError where
  /-- `d[mbid]` or `d.pop(mbid)` of a micro-batch id that `d` lacks: `KeyError(mbid)`. -/
  | missingMbid (mbid : Int)
  /-- The error that `remove` raises with `check_exists=True`. -/
  | message (text : String)
  deriving Repr, DecidableEq

/-- Python's `str` of the optional micro-batch id, as the f-string of `remove` prints it. -/
def mbidText : Option Int → String
  | none => "None"
  | some mbid => toString mbid

/-- `KeyError(f"TensorBuffer.remove: key {name} mbid {mbid} not found")`. -/
def removeError (name : String) (mbid : Option Int) : KeyError :=
  .message ("TensorBuffer.remove: key " ++ name ++ " mbid " ++ mbidText mbid ++ " not found")

/-- `TensorBuffer()`, and what `clear` sets: `defaultdict(dict)` with no entry. -/
def init : TensorBuffer Value :=
  ⟨∅⟩

/-- The dict of `name`, empty when `name` has no entry. -/
def mbids (buffer : TensorBuffer Value) (name : String) : MbidDict Value :=
  (buffer.tensors.lookup name).getD ∅

/-- The buffer after reading `self.tensors[name]`: the `defaultdict` binds a missing name to `{}`. -/
def touch (buffer : TensorBuffer Value) (name : String) : TensorBuffer Value :=
  if name ∈ buffer.tensors then buffer else ⟨buffer.tensors.insert name ∅⟩

/-- The buffer whose dict at `name` is `d`: a change made through `self.tensors[name]`. -/
def setMbids (buffer : TensorBuffer Value) (name : String) (d : MbidDict Value) : TensorBuffer Value :=
  ⟨buffer.tensors.insert name d⟩

/-- `put(name, mbid, x)`: `self.tensors[name][mbid] = x`. -/
def put (buffer : TensorBuffer Value) (name : String) (mbid : Int) (x : Value) : TensorBuffer Value :=
  let buffer := buffer.touch name
  buffer.setMbids name ((buffer.mbids name).insert mbid x)

/--
`alloc(name, mbid, shape, dtype, device, require_grads)`: puts the tensor
`torch.zeros(shape, dtype=dtype, device=device, requires_grad=require_grads)`, which `zeros`
makes from the shape.
-/
def alloc {Shape : Type} (zeros : Shape → Value) (buffer : TensorBuffer Value) (name : String) (mbid : Int)
    (shape : Shape) : TensorBuffer Value :=
  buffer.put name mbid (zeros shape)

/-- `self.tensors[name][mbid]`. -/
def index (buffer : TensorBuffer Value) (name : String) (mbid : Int) : Except KeyError Value × TensorBuffer Value :=
  let buffer := buffer.touch name
  match (buffer.mbids name).lookup mbid with
  | some x => (.ok x, buffer)
  | none => (.error (.missingMbid mbid), buffer)

/-- `self.tensors[name].pop(mbid)`. -/
def pop (buffer : TensorBuffer Value) (name : String) (mbid : Int) : Except KeyError Value × TensorBuffer Value :=
  let buffer := buffer.touch name
  match (buffer.mbids name).lookup mbid with
  | some x => (.ok x, buffer.setMbids name ((buffer.mbids name).erase mbid))
  | none => (.error (.missingMbid mbid), buffer)

/-- `get(name, mbid, remove)`. -/
def get (buffer : TensorBuffer Value) (name : String) (mbid : Int) (remove : Bool) :
    Except KeyError Value × TensorBuffer Value :=
  if remove then buffer.pop name mbid else buffer.index name mbid

/--
The `try` block of `remove`: `del self.tensors[name]` when `mbid` is `None`, else
`self.tensors[name].pop(mbid)`; the buffer it leaves and whether it raised `KeyError`.
-/
def removeTry (buffer : TensorBuffer Value) (name : String) : Option Int → TensorBuffer Value × Bool
  | none => if name ∈ buffer.tensors then (⟨buffer.tensors.erase name⟩, false) else (buffer, true)
  | some mbid =>
      match buffer.pop name mbid with
      | (.ok _, buffer) => (buffer, false)
      | (.error _, buffer) => (buffer, true)

/-- `remove(name, mbid, check_exists)`: a `KeyError` of the `try` block is dropped, or raised again with `check_exists`. -/
def remove (buffer : TensorBuffer Value) (name : String) (mbid : Option Int) (checkExists : Bool) :
    Except KeyError Unit × TensorBuffer Value :=
  match buffer.removeTry name mbid with
  | (buffer, raised) => (if raised && checkExists then .error (removeError name mbid) else .ok (), buffer)

/-- `check_name(name)`: `name in self.tensors`. -/
def checkName (buffer : TensorBuffer Value) (name : String) : Bool :=
  decide (name ∈ buffer.tensors)

/-- `check_mbid(name, mbid)`; its read of `self.tensors[name]` follows the check that `name` is bound. -/
def checkMbid (buffer : TensorBuffer Value) (name : String) (mbid : Int) : Bool :=
  if name ∉ buffer.tensors then false else decide (mbid ∈ buffer.mbids name)

/-- `clear()`. -/
def clear (_buffer : TensorBuffer Value) : TensorBuffer Value :=
  init

/-! ## Calls and responses -/

/-- A call of a method of `TensorBuffer` (`alloc` is a `put` of the zero tensor). -/
inductive Call (Value : Type) where
  | put (name : String) (mbid : Int) (x : Value)
  | get (name : String) (mbid : Int) (remove : Bool)
  | remove (name : String) (mbid : Option Int) (checkExists : Bool)
  | checkName (name : String)
  | checkMbid (name : String) (mbid : Int)
  | clear

/-- What a call gives back: `None`, a tensor, a `bool`, or the `KeyError` it raises. -/
inductive Response (Value : Type) where
  | done
  | tensor (x : Value)
  | answer (b : Bool)
  | raised (error : KeyError)
  deriving Repr, DecidableEq

/-- The response of a method that returns `toResponse a` or raises. -/
def Response.ofExcept {α : Type} (toResponse : α → Response Value) : Except KeyError α → Response Value
  | .ok a => toResponse a
  | .error e => .raised e

/-- One call on the buffer: its response and the buffer it leaves. -/
def call (buffer : TensorBuffer Value) : Call Value → Response Value × TensorBuffer Value
  | .put name mbid x => (.done, buffer.put name mbid x)
  | .get name mbid remove =>
      match buffer.get name mbid remove with
      | (result, buffer) => (Response.ofExcept .tensor result, buffer)
  | .remove name mbid checkExists =>
      match buffer.remove name mbid checkExists with
      | (result, buffer) => (Response.ofExcept (fun _ => .done) result, buffer)
  | .checkName name => (.answer (buffer.checkName name), buffer)
  | .checkMbid name mbid => (.answer (buffer.checkMbid name mbid), buffer)
  | .clear => (.done, buffer.clear)

/-- A sequence of calls made one after another from `state`: the responses, and the last state. -/
def runCalls {σ : Type} (step : σ → Call Value → Response Value × σ) (state : σ) :
    List (Call Value) → List (Response Value) × σ
  | [] => ([], state)
  | c :: calls =>
      match step state c with
      | (response, state) =>
          match runCalls step state calls with
          | (responses, state) => (response :: responses, state)

/--
A map `abstract` that turns each step of `step` into the step of `stepAbstract` turns every run
into the run of `stepAbstract`: the step lemma of a simulation, lifted to whole runs.
-/
theorem runCalls_simulation {σ τ : Type}
    {step : σ → Call Value → Response Value × σ}
    {stepAbstract : τ → Call Value → Response Value × τ}
    {abstract : σ → τ}
    (commutes : ∀ state c, ((step state c).1, abstract (step state c).2) = stepAbstract (abstract state) c) :
    ∀ (state : σ) (calls : List (Call Value)),
      ((runCalls step state calls).1, abstract (runCalls step state calls).2) =
        runCalls stepAbstract (abstract state) calls
  | _, [] => rfl
  | state, c :: calls => by
      simp only [runCalls, ← commutes state c, ← runCalls_simulation commutes (step state c).2 calls]

/-! ## The store the buffer implements -/

/--
The store: which names the `defaultdict` holds, and the tensor, if any, of each name and
micro-batch id; a tensor is only ever held under a bound name.
-/
@[ext]
structure Store (Value : Type) where
  bound : String → Bool
  tensor : String → Int → Option Value
  boundOfStored : ∀ name mbid, (tensor name mbid).isSome → bound name = true

namespace Store

/-- The store with `name` bound and `v` at `(name, mbid)`. -/
def write (store : Store Value) (name : String) (mbid : Int) (v : Option Value) : Store Value where
  bound name' := name' = name || store.bound name'
  tensor name' mbid' := if name' = name ∧ mbid' = mbid then v else store.tensor name' mbid'
  boundOfStored name' mbid' isStored := by
    by_cases same : name' = name
    · simp [same]
    · simpa [same] using store.boundOfStored name' mbid' (by simpa [same] using isStored)

/-- The store with `name` unbound, and so no tensor under it. -/
def unbind (store : Store Value) (name : String) : Store Value where
  bound name' := name' ≠ name && store.bound name'
  tensor name' mbid' := if name' = name then none else store.tensor name' mbid'
  boundOfStored name' mbid' isStored := by
    by_cases same : name' = name
    · simp [same] at isStored
    · simpa [same] using store.boundOfStored name' mbid' (by simpa [same] using isStored)

/-- The store with no name bound. -/
def empty : Store Value :=
  ⟨fun _ => false, fun _ _ => none, fun _ _ isStored => by simp at isStored⟩

/-- The response of `remove` when the entry it deletes is missing. -/
def missingResponse (name : String) (mbid : Option Int) (checkExists : Bool) : Response Value :=
  if checkExists then .raised (removeError name mbid) else .done

variable {store : Store Value} {name : String} {mbid : Int}

@[simp] theorem write_write {v v' : Option Value} :
    (store.write name mbid v).write name mbid v' = store.write name mbid v' := by
  ext name' mbid'
  · by_cases same : name' = name <;> simp [write, same]
  · by_cases same : name' = name ∧ mbid' = mbid <;> simp [write, same]

/-- Writing back the tensor that is there changes nothing. -/
theorem write_self (isStored : (store.tensor name mbid).isSome) :
    store.write name mbid (store.tensor name mbid) = store := by
  ext name' mbid'
  · by_cases same : name' = name
    · simp [write, same, store.boundOfStored name mbid isStored]
    · simp [write, same]
  · by_cases same : name' = name ∧ mbid' = mbid
    · simp [write, same]
    · simp [write, same]

/-- Writing nothing where nothing is stored keeps every tensor. -/
theorem tensor_write_none (absent : store.tensor name mbid = none) :
    (store.write name mbid none).tensor = store.tensor :=
  funext₂ fun name' mbid' => by
    by_cases same : name' = name ∧ mbid' = mbid
    · obtain ⟨rfl, rfl⟩ := same
      simp [write, absent]
    · simp [write, same]

/-- One call on the store: a failed read binds the name it read, as the `defaultdict` does. -/
def call (store : Store Value) : Call Value → Response Value × Store Value
  | .put name mbid x => (.done, store.write name mbid (some x))
  | .get name mbid remove =>
      match store.tensor name mbid with
      | some x => (.tensor x, if remove then store.write name mbid none else store)
      | none => (.raised (.missingMbid mbid), store.write name mbid none)
  | .remove name none checkExists =>
      if store.bound name then (.done, store.unbind name) else (missingResponse name none checkExists, store)
  | .remove name (some mbid) checkExists =>
      ((if (store.tensor name mbid).isSome then .done else missingResponse name (some mbid) checkExists),
        store.write name mbid none)
  | .checkName name => (.answer (store.bound name), store)
  | .checkMbid name mbid => (.answer (store.tensor name mbid).isSome, store)
  | .clear => (.done, empty)

/-- A call on the store that raises keeps every tensor. -/
theorem tensor_call_of_raised {c : Call Value} {e : KeyError}
    (raised : (store.call c).1 = .raised e) :
    (store.call c).2.tensor = store.tensor := by
  cases c with
  | get name mbid remove =>
      cases found : store.tensor name mbid with
      | none => simp [call, found, tensor_write_none found]
      | some x => simp [call, found] at raised
  | remove name mbid checkExists =>
      cases mbid with
      | none =>
          by_cases bound : store.bound name = true
          · simp [call, bound] at raised
          · simp [call, bound]
      | some mbid =>
          cases found : store.tensor name mbid with
          | none => simp [call, found, tensor_write_none found]
          | some x => simp [call, found] at raised
  | put | checkName | checkMbid | clear => simp [call] at raised

end Store

/-! ## The buffer refines the store -/

/-- The tensor at `(name, mbid)`, if any. -/
def stored (buffer : TensorBuffer Value) (name : String) (mbid : Int) : Option Value :=
  (buffer.mbids name).lookup mbid

/-- The store a buffer describes. -/
def abstract (buffer : TensorBuffer Value) : Store Value where
  bound name := decide (name ∈ buffer.tensors)
  tensor := buffer.stored
  boundOfStored name mbid isStored := by
    by_contra unbound
    simp [stored, mbids, AList.lookup_eq_none.mpr (of_decide_eq_false (Bool.eq_false_iff.mpr unbound))] at isStored

variable {buffer : TensorBuffer Value} {name name' : String} {mbid : Int}

@[simp] theorem mem_touch :
    name' ∈ (buffer.touch name).tensors ↔ name' = name ∨ name' ∈ buffer.tensors := by
  unfold touch
  split_ifs with bound
  · exact ⟨.inr, fun either => either.elim (fun same => same ▸ bound) id⟩
  · exact AList.mem_insert _

@[simp] theorem mbids_touch :
    (buffer.touch name).mbids name' = buffer.mbids name' := by
  unfold touch
  split_ifs with bound
  · rfl
  · by_cases same : name' = name
    · subst same
      simp [mbids, AList.lookup_eq_none.mpr bound]
    · simp [mbids, same]

@[simp] theorem mem_setMbids {d : MbidDict Value} :
    name' ∈ (buffer.setMbids name d).tensors ↔ name' = name ∨ name' ∈ buffer.tensors :=
  AList.mem_insert _

@[simp] theorem mbids_setMbids {d : MbidDict Value} :
    (buffer.setMbids name d).mbids name' = if name' = name then d else buffer.mbids name' := by
  by_cases same : name' = name
  · subst same
    simp [setMbids, mbids]
  · simp [setMbids, mbids, same]

@[simp] theorem stored_touch :
    (buffer.touch name).stored = buffer.stored :=
  funext₂ fun name' mbid' => by simp [stored]

@[simp] theorem tensor_abstract :
    buffer.abstract.tensor = buffer.stored :=
  rfl

@[simp] theorem bound_abstract :
    buffer.abstract.bound name = decide (name ∈ buffer.tensors) :=
  rfl

/-- Reading `self.tensors[name]` binds `name` and keeps every tensor: a `write` of what is there. -/
theorem abstract_touch (buffer : TensorBuffer Value) (name : String) (mbid : Int) :
    (buffer.touch name).abstract = buffer.abstract.write name mbid (buffer.stored name mbid) := by
  ext name' mbid'
  · simp [abstract, Store.write]
  · by_cases same : name' = name ∧ mbid' = mbid
    · simp [abstract, Store.write, stored, same]
    · simp [abstract, Store.write, stored, same]

/-- Changing the dict of a bound name to `d`, which differs from it at most at `mbid`, is a `write` at `(name, mbid)`. -/
theorem abstract_setMbids {d : MbidDict Value}
    (bound : name ∈ buffer.tensors)
    (elsewhere : ∀ mbid', mbid' ≠ mbid → d.lookup mbid' = buffer.stored name mbid') :
    (buffer.setMbids name d).abstract = buffer.abstract.write name mbid (d.lookup mbid) := by
  ext name' mbid'
  · by_cases same : name' = name
    · simp [abstract, Store.write, same]
    · simp [abstract, Store.write, same]
  · by_cases same : name' = name
    · subst same
      by_cases sameMbid : mbid' = mbid
      · simp [abstract, Store.write, stored, sameMbid]
      · simp [abstract, Store.write, stored, sameMbid, elsewhere mbid' sameMbid]
    · simp [abstract, Store.write, stored, same]

/-- `put` writes the tensor. -/
theorem abstract_put {x : Value} :
    (buffer.put name mbid x).abstract = buffer.abstract.write name mbid (some x) := by
  rw [put, abstract_setMbids ((mem_touch).mpr (.inl rfl)) fun mbid' (other : mbid' ≠ mbid) => by simp [other, stored],
    AList.lookup_insert, abstract_touch buffer name mbid, Store.write_write]

/-- `self.tensors[name][mbid]` answers the tensor there, or `KeyError(mbid)`, and binds `name`. -/
theorem index_eq :
    buffer.index name mbid =
      ((buffer.stored name mbid).elim (.error (.missingMbid mbid)) .ok, buffer.touch name) := by
  simp only [index, stored, mbids_touch]
  cases (buffer.mbids name).lookup mbid <;> rfl

/-- `self.tensors[name].pop(mbid)` answers as the read, and erases the tensor it finds. -/
theorem pop_eq :
    buffer.pop name mbid =
      ((buffer.stored name mbid).elim (.error (.missingMbid mbid)) .ok,
        (buffer.stored name mbid).elim (buffer.touch name) fun _ =>
          (buffer.touch name).setMbids name ((buffer.mbids name).erase mbid)) := by
  simp only [pop, stored, mbids_touch]
  cases (buffer.mbids name).lookup mbid <;> rfl

/-- Erasing the tensor at `(name, mbid)` from the dict of `name` is a `write` of nothing there. -/
theorem abstract_erase_mbid :
    ((buffer.touch name).setMbids name ((buffer.mbids name).erase mbid)).abstract =
      buffer.abstract.write name mbid none := by
  rw [abstract_setMbids ((mem_touch).mpr (.inl rfl)) fun mbid' (other : mbid' ≠ mbid) => by simp [other, stored],
    AList.lookup_erase, abstract_touch buffer name mbid, Store.write_write]

/-- Deleting the entry of `name` unbinds it. -/
theorem abstract_erase_name :
    (⟨buffer.tensors.erase name⟩ : TensorBuffer Value).abstract = buffer.abstract.unbind name := by
  ext name' mbid'
  · by_cases same : name' = name
    · simp [abstract, Store.unbind, same]
    · simp [abstract, Store.unbind, same]
  · by_cases same : name' = name
    · simp [abstract, Store.unbind, stored, mbids, same]
    · simp [abstract, Store.unbind, stored, mbids, same]

/-- `check_mbid` answers whether a tensor is stored. -/
theorem checkMbid_eq :
    buffer.checkMbid name mbid = (buffer.stored name mbid).isSome := by
  by_cases bound : name ∈ buffer.tensors
  · rw [checkMbid, if_neg (not_not.mpr bound)]
    simp only [← AList.lookup_isSome, Bool.decide_eq_true, stored]
  · rw [checkMbid, if_pos bound]
    simp [stored, mbids, AList.lookup_eq_none.mpr bound]

/--
Every call on the buffer answers as the same call on the store the buffer describes, and leaves
the buffer that describes the store after the call.
-/
theorem abstract_call (buffer : TensorBuffer Value) :
    ∀ c : Call Value, ((buffer.call c).1, (buffer.call c).2.abstract) = buffer.abstract.call c
  | .put name mbid x => by
      rw [call, abstract_put]
      rfl
  | .get name mbid remove => by
      cases found : buffer.stored name mbid with
      | none =>
          cases remove <;>
            simp [call, get, index_eq, pop_eq, found, Store.call, Response.ofExcept, abstract_touch buffer name mbid]
      | some x =>
          cases remove
          · have kept : (buffer.touch name).abstract = buffer.abstract :=
              (abstract_touch buffer name mbid).trans (Store.write_self (by simp [found]))
            simp [call, get, index_eq, found, Store.call, Response.ofExcept, kept]
          · simp [call, get, pop_eq, found, Store.call, Response.ofExcept, abstract_erase_mbid]
  | .remove name none checkExists => by
      by_cases bound : name ∈ buffer.tensors
      · simp [call, remove, removeTry, bound, Store.call, Response.ofExcept, abstract_erase_name]
      · cases checkExists <;>
          simp [call, remove, removeTry, bound, Store.call, Store.missingResponse, Response.ofExcept]
  | .remove name (some mbid) checkExists => by
      cases found : buffer.stored name mbid with
      | none =>
          cases checkExists <;>
            simp [call, remove, removeTry, pop_eq, found, Store.call, Store.missingResponse, Response.ofExcept,
              abstract_touch buffer name mbid]
      | some x => simp [call, remove, removeTry, pop_eq, found, Store.call, Response.ofExcept, abstract_erase_mbid]
  | .checkName name => rfl
  | .checkMbid name mbid => by simp [call, Store.call, checkMbid_eq]
  | .clear => by
      refine Prod.ext rfl (Store.ext (funext fun name => ?_) (funext₂ fun name mbid => ?_)) <;>
        simp [call, clear, init, abstract, Store.call, Store.empty, stored, mbids]

/--
Over every sequence of calls from any buffer, the buffer gives the responses of the store it
describes, and ends describing the store's last state.
-/
theorem runCalls_refines (buffer : TensorBuffer Value) (calls : List (Call Value)) :
    ((runCalls call buffer calls).1, (runCalls call buffer calls).2.abstract) =
      runCalls Store.call buffer.abstract calls :=
  runCalls_simulation abstract_call buffer calls

/-- A put, a popping get and a read of what was popped, on a fresh buffer. -/
example :
    (runCalls call (init : TensorBuffer Nat) [.put "x" 0 5, .get "x" 0 true, .get "x" 0 false, .checkName "x"]).1 =
      [.done, .tensor 5, .raised (.missingMbid 0), .answer true] := by
  decide

/--
A call that raises `KeyError` keeps every tensor of the buffer; what it may change is only
whether the name it read is bound.
-/
theorem call_raised_keeps_tensors (buffer : TensorBuffer Value) (c : Call Value) {e : KeyError}
    (raised : (buffer.call c).1 = .raised e) :
    (buffer.call c).2.stored = buffer.stored := by
  have response : (buffer.call c).1 = (buffer.abstract.call c).1 := congrArg Prod.fst (abstract_call buffer c)
  have state : (buffer.call c).2.abstract = (buffer.abstract.call c).2 := congrArg Prod.snd (abstract_call buffer c)
  rw [← tensor_abstract, state, Store.tensor_call_of_raised (response.symm.trans raised), tensor_abstract]

end TensorBuffer

end RealRlhf.Pipeline
