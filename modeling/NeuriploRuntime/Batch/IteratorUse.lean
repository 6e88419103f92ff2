import NeuriploRuntime.Batch.Return

open neuriplo.scheduler neuriplo.tensor transition

namespace neuriplo.batch

variable {setup : Setup}

/-- What `formBatch` does with an iterator. -/
inductive IteratorOp where
  | compare
  | dereference
  | increment
  | erase
deriving DecidableEq, Repr

/-- One use of an iterator: the generation of the queue that it was obtained in,
and the generation at the time. -/
structure IteratorUse where
  op : IteratorOp
  obtained : Nat
  generation : Nat
deriving DecidableEq, Repr

/-- How the loop leaves the queue, where it stopped, and its uses of the iterator.
It stopped nowhere when the iterator was not valid. -/
structure LoopResult where
  queue_ : List Nat
  generation : Nat
  made_progress : Bool
  scanned : Option State.Scanned
  uses : List IteratorUse

def LoopResult.after (uses : List IteratorUse) (result : LoopResult) : LoopResult :=
  { result with uses := uses ++ result.uses }

/-- The loop over `queue_` up to the next unlock, turn by turn. What `erase`
returns is an iterator of the generation that the erasure starts. -/
def State.scanLoop (s : State setup) (formation : Formation) (queue_ : List Nat) (generation : Nat)
    (iterator : Iterator) (made_progress : Bool) : LoopResult :=
  let use (op : IteratorOp) : IteratorUse := { op, obtained := iterator.generation, generation }
  let erased : Iterator := { iterator with generation := generation + 1 }
  let passed : Iterator := { iterator with position := iterator.position + 1 }
  if iterator.generation ≠ generation then ⟨queue_, generation, made_progress, none, [use .compare]⟩
  else if hend : iterator.position < queue_.length then
    let next := queue_[iterator.position]
    if (s.pending next).cancelled then
      (s.scanLoop formation (queue_.eraseIdx iterator.position) (generation + 1) erased true).after
        [use .compare, use .dereference, use .erase]
    else if (s.pending next).deadline ≤ s.now then
      ⟨queue_.eraseIdx iterator.position, generation + 1, true, some (.expired next iterator.position),
        [use .compare, use .dereference, use .erase]⟩
    else if !areBatchCompatible (s.pending (formation.batch.headD next)).request (s.pending next).request then
      (s.scanLoop formation queue_ generation passed made_progress).after
        [use .compare, use .dereference, use .increment]
    else if setup.config.dynamic_batching.max_batch_size <
        wrapSize (formation.merged_batch_dimension + s.batchSize next) then
      (s.scanLoop formation queue_ generation passed made_progress).after
        [use .compare, use .dereference, use .increment]
    else
      ⟨queue_.eraseIdx iterator.position, generation + 1, true, some (.joined next),
        [use .compare, use .dereference, use .erase]⟩
  else ⟨queue_, generation, made_progress, some .ended, [use .compare]⟩
termination_by queue_.length - iterator.position
decreasing_by
  · rw [List.length_eraseIdx_of_lt hend]
    omega
  · omega
  · omega

/-- The loop over `queue_` for the deadline to wait for. -/
def waitUses (queue_ : List Nat) (generation : Nat) : List IteratorUse :=
  let use (op : IteratorOp) : IteratorUse := { op, obtained := generation, generation }
  queue_.flatMap (fun _ => [use .compare, use .dereference, use .increment]) ++ [use .compare]

/-- The uses of iterators in a locked section of `formBatch`. -/
def State.sectionUses (s : State setup) (formation : Formation) (delay_elapsed : Bool) (iterator : Iterator)
    (made_progress : Bool) : List IteratorUse :=
  let result := s.scanLoop formation s.queue_ s.generation iterator made_progress
  result.uses ++
    match result.scanned with
    | some .ended => if result.made_progress || delay_elapsed then [] else waitUses result.queue_ result.generation
    | _ => []

/-- The uses of iterators in a step: `begin()` is obtained under the lock, and the
iterator that the last `erase` returned before the unlock is taken up again. -/
def State.iteratorUses (s : State setup) : Event setup → List IteratorUse
  | .worker worker =>
    match s.workers worker with
    | .locking formation delay_elapsed =>
      if s.draining_ then []
      else s.sectionUses formation delay_elapsed { position := 0, generation := s.generation } false
    | .rescanning formation delay_elapsed iterator => s.sectionUses formation delay_elapsed iterator true
    | _ => []
  | _ => []

/-- A loop with a valid iterator does what the scan does, every erasure is one
change of the queue, and the iterator is valid wherever it is used. -/
structure LoopResult.Follows (result : LoopResult) (scan : State.ScanResult) (changes : Nat) : Prop where
  queue : result.queue_ = scan.queue_
  made_progress : result.made_progress = scan.made_progress
  scanned : result.scanned = some scan.scanned
  generation : result.generation + scan.queue_.length = changes
  fresh : ∀ use ∈ result.uses, use.obtained = use.generation

/-- A loop that follows a scan still does so with uses before it. -/
theorem LoopResult.Follows.after {result : LoopResult} {scan : State.ScanResult} {changes : Nat}
    (hfollows : result.Follows scan changes) {uses : List IteratorUse}
    (huses : ∀ use ∈ uses, use.obtained = use.generation) : (result.after uses).Follows scan changes := by
  refine ⟨hfollows.queue, hfollows.made_progress, hfollows.scanned, hfollows.generation, ?_⟩
  intro use hmem
  obtain hmem | hmem := List.mem_append.mp hmem
  · exact huses use hmem
  · exact hfollows.fresh use hmem

section Loop

variable {s : State setup}

/-- The loop over a longer queue starts where the shorter one ends. -/
theorem State.scanLoop_append (s : State setup) (formation : Formation) (passed rest : List Nat) (generation : Nat)
    (made_progress : Bool) :
    (s.scanLoop formation (passed ++ rest) generation { position := passed.length, generation } made_progress).Follows
      (s.scan formation passed made_progress rest) (generation + (passed.length + rest.length)) := by
  induction rest generalizing passed generation made_progress with
  | nil =>
    rw [scanLoop]
    simp only [ne_eq, not_true_eq_false, if_false, List.append_nil, lt_irrefl, dite_false]
    exact ⟨rfl, rfl, rfl, rfl, by simp⟩
  | cons next rest ih =>
    have hend : passed.length < (passed ++ next :: rest).length := by simp
    have hnext : (passed ++ next :: rest)[passed.length] = next := by simp
    have herase : (passed ++ next :: rest).eraseIdx passed.length = passed ++ rest := by
      simp [List.eraseIdx_append_of_length_le]
    have hpassed := ih (passed ++ [next]) generation made_progress
    rw [List.append_assoc, List.singleton_append, List.length_append, List.length_singleton,
      Nat.add_assoc passed.length, Nat.add_comm 1] at hpassed
    have herased := ih passed (generation + 1) true
    rw [Nat.add_assoc generation, Nat.add_left_comm 1, Nat.add_comm 1] at herased
    rw [scanLoop, scan]
    simp only [ne_eq, not_true_eq_false, if_false, hend, dite_true, hnext, herase]
    have hgeneration : generation + 1 + (passed ++ rest).length = generation + (passed.length + (rest.length + 1)) := by
      rw [List.length_append]
      omega
    split
    · exact herased.after (by simp)
    · split
      · exact ⟨rfl, rfl, rfl, hgeneration, by simp⟩
      · split
        · exact hpassed.after (by simp)
        · split
          · exact hpassed.after (by simp)
          · exact ⟨rfl, rfl, rfl, hgeneration, by simp⟩

/-- From any position on. -/
theorem State.scanLoop_follows (s : State setup) (formation : Formation) (position : Nat) (made_progress : Bool) :
    (s.scanLoop formation s.queue_ s.generation { position, generation := s.generation } made_progress).Follows
      (s.scan formation (s.queue_.take position) made_progress (s.queue_.drop position))
      (s.generation + s.queue_.length) := by
  by_cases hposition : position ≤ s.queue_.length
  · have hfollows := s.scanLoop_append formation (s.queue_.take position) (s.queue_.drop position) s.generation
      made_progress
    rwa [List.take_append_drop, List.length_drop, List.length_take_of_le hposition,
      Nat.add_sub_cancel' hposition] at hfollows
  · have hend : ¬ position < s.queue_.length := by omega
    rw [scanLoop, List.take_of_length_le (by omega), List.drop_eq_nil_of_le (by omega)]
    simp only [ne_eq, not_true_eq_false, if_false, hend, dite_false]
    exact ⟨rfl, rfl, rfl, rfl, by simp⟩

/-- A locked section leaves the queue and its generation as the loop does. -/
theorem State.runScan_eq_scanLoop (s : State setup) (worker : Fin setup.config.instances) (formation : Formation)
    (delay_elapsed : Bool) (position : Nat) (made_progress : Bool) :
    let result := s.scanLoop formation s.queue_ s.generation { position, generation := s.generation } made_progress
    let after := s.runScan worker formation delay_elapsed position made_progress
    after.queue_ = result.queue_ ∧ after.generation = result.generation := by
  have hfollows := s.scanLoop_follows formation position made_progress
  obtain ⟨hshrinks, -⟩ :=
    s.scan_shrinks formation (s.queue_.take position) (s.queue_.drop position) made_progress
  rw [← List.length_append, List.take_append_drop] at hshrinks
  refine ⟨hfollows.queue.symm, ?_⟩
  have hgeneration := hfollows.generation
  change s.generation + (s.queue_.length - (s.scan ..).queue_.length) = _
  omega

/-- A section that obtains its iterator under the lock uses it while it is
valid. -/
theorem State.sectionUses_fresh (s : State setup) (formation : Formation) (delay_elapsed : Bool) (position : Nat)
    (made_progress : Bool) {use : IteratorUse}
    (hmem : use ∈ s.sectionUses formation delay_elapsed { position, generation := s.generation } made_progress) :
    use.obtained = use.generation := by
  obtain hmem | hmem := List.mem_append.mp hmem
  · exact (s.scanLoop_follows formation position made_progress).fresh use hmem
  · split at hmem
    · split at hmem
      · cases hmem
      · simp only [waitUses, List.mem_append, List.mem_flatMap, List.mem_cons, List.not_mem_nil, or_false] at hmem
        obtain ⟨-, -, rfl | rfl | rfl⟩ | rfl := hmem <;> rfl
    · cases hmem

end Loop

end neuriplo.batch
