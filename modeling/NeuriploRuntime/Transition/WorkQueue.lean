import Mathlib.Data.List.Nodup
import NeuriploRuntime.Transition.Ownership
import NeuriploRuntime.Transition.System

namespace transition

/-- Items are admitted at the end of a queue, and taken from its front by parties
that hold nothing. What was admitted and what was taken is kept, in order. -/
@[ext]
structure WorkQueue (Item Party : Type*) where
  queue : List Item
  held : Party → Option Item
  admitted : List Item
  taken : List Item

namespace WorkQueue

variable {Item Party : Type*} {q q' : WorkQueue Item Party}

/-- What was admitted was taken in that order or waits in it, nothing was
admitted twice, and each party holds something of its own that was taken. -/
structure Ordered (q : WorkQueue Item Party) : Prop where
  fifo : q.admitted = q.taken ++ q.queue
  nodup : q.admitted.Nodup
  unshared : Unshared q.held
  taken : ∀ party item, q.held party = some item → item ∈ q.taken

/-- What was taken out of the queue is not in it any more. -/
theorem Ordered.not_queued_of_taken (hordered : q.Ordered) {item : Item} (htaken : item ∈ q.taken) :
    item ∉ q.queue := by
  have hnodup := hordered.nodup
  rw [hordered.fifo] at hnodup
  exact fun hqueued => (List.disjoint_of_nodup_append hnodup) htaken hqueued

/-- What a party holds is not in the queue. -/
theorem Ordered.not_queued (hordered : q.Ordered) {party : Party} {item : Item} (hheld : q.held party = some item) :
    item ∉ q.queue :=
  hordered.not_queued_of_taken (hordered.taken party item hheld)

inductive Event (Item Party : Type*) where
  | enqueue (item : Item)
  | take (party : Party)
  | release (party : Party)

variable [DecidableEq Item] [DecidableEq Party]

def step (q : WorkQueue Item Party) : Event Item Party → Option (WorkQueue Item Party)
  | .enqueue item =>
    if item ∈ q.admitted then none
    else some { q with queue := q.queue ++ [item], admitted := q.admitted ++ [item] }
  | .take party =>
    match q.queue, q.held party with
    | item :: queue, none =>
      some { q with queue, held := Function.update q.held party (some item), taken := q.taken ++ [item] }
    | _, _ => none
  | .release party => some { q with held := Function.update q.held party none }

/-- The queue nobody has used. -/
def empty : WorkQueue Item Party where
  queue := []
  held _ := none
  admitted := []
  taken := []

def system (Item Party : Type*) [DecidableEq Item] [DecidableEq Party] :
    System (WorkQueue Item Party) (Event Item Party) :=
  System.ofStep empty step

/-- No event takes an item out of its order or hands it out twice. -/
theorem Ordered.step (hordered : q.Ordered) {event : Event Item Party} (hstep : q.step event = some q') :
    q'.Ordered := by
  cases event with
  | enqueue item =>
    simp only [WorkQueue.step, Option.ite_none_left_eq_some, Option.some.injEq] at hstep
    obtain ⟨hfresh, rfl⟩ := hstep
    refine ⟨?_, ?_, hordered.unshared, hordered.taken⟩
    · rw [hordered.fifo, List.append_assoc]
    · refine hordered.nodup.append (List.nodup_singleton item) ?_
      exact List.disjoint_singleton.mpr hfresh
  | take party =>
    simp only [WorkQueue.step] at hstep
    split at hstep
    · rename_i item queue hqueue hheld
      cases hstep
      refine ⟨?_, hordered.nodup, hordered.unshared.put ?_, ?_⟩
      · rw [hordered.fifo, hqueue, List.append_assoc, List.singleton_append]
      · intro other _ hother
        apply hordered.not_queued hother
        rw [hqueue]
        exact List.mem_cons_self
      · intro other item' hother
        obtain ⟨-, rfl⟩ | ⟨-, hbefore⟩ := update_some_eq_some_iff.mp hother
        · exact List.mem_append_right _ (List.mem_singleton_self item)
        · exact List.mem_append_left _ (hordered.taken other item' hbefore)
    · cases hstep
  | release party =>
    cases hstep
    refine ⟨hordered.fifo, hordered.nodup, hordered.unshared.drop party, ?_⟩
    intro other item hother
    exact hordered.taken other item (update_none_eq_some_iff.mp hother).2

/-- In every run items leave the queue in the order in which they entered it. -/
theorem ordered_reachable (hreach : (system Item Party).Reachable q) : q.Ordered := by
  refine @System.Reachable.invariant _ _ (system Item Party) Ordered ?_ ?_ q hreach
  · rintro q rfl
    refine ⟨rfl, List.nodup_nil, ?_, ?_⟩
    · intro first second item hfirst
      cases hfirst
    · intro party item hheld
      cases hheld
  · intro q event q' _ hordered hstep
    exact hordered.step hstep

end WorkQueue

end transition
