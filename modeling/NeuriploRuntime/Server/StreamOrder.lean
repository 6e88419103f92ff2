import NeuriploRuntime.Server.Streams

open neuriplo.codec neuriplo.llm neuriplo.scheduler stream transition

namespace neuriplo.server.streaming

variable {setup : Setup}

/-- The requests other than the event's own keep what they have. -/
theorem State.step_others {s s' : State setup} {request other : Nat} (hother : other ≠ request)
    (hstep : s.runHandler request = some s' ∨ ∃ text, s.callback request text = some s') :
    s'.handlers other = s.handlers other ∧ s'.sent other = s.sent other ∧ s'.tokens other = s.tokens other ∧
      s'.stray other = s.stray other := by
  obtain hstep | ⟨text, hstep⟩ := hstep
  · unfold State.runHandler at hstep
    split at hstep
    · obtain ⟨scheduler, -, rfl⟩ := Option.map_eq_some_iff.mp hstep
      simp [State.setHandler, Function.update_of_ne hother]
    · split at hstep <;> cases hstep
      simp [State.setHandler, Function.update_of_ne hother]
    · cases hstep
      simp [State.setHandler, State.send, Function.update_of_ne hother]
    · cases hstep
      simp [State.setHandler, State.send, Function.update_of_ne hother]
    · cases hstep
    · cases hstep
  · unfold State.callback at hstep
    simp only at hstep
    split at hstep
    · cases hstep
    · cases hstep
      simp [Function.update_of_ne hother]
    · split at hstep <;> cases hstep <;> simp [State.send, Function.update_of_ne hother]

def greeting : StreamedCompletion := completionsStreaming "1" 0 { model := "demo", prompt := "hi", stream := true }

/-- A streamed completion up to where its request is in an executor. -/
def decoding : List (Event singleSlot) :=
  [.connect 0 greeting, .handler 0] ++ List.replicate 5 (.scheduler (.submitter 0)) ++
    List.replicate 13 (.scheduler (.worker onlyWorker))

/-- The deadline passes while the executor is at work, and another snapshot is
published. The second token is half a letter. -/
def overdue : List (Event singleSlot) :=
  decoding ++ [.token onlyWorker [97], .token onlyWorker [195], .scheduler (.tick 30000000000)] ++
    List.replicate 5 (.scheduler (.submitter 0)) ++
      [.handler 0, .publish, .handler 0, .token onlyWorker [98], .handler 0, .token onlyWorker [99]]

end neuriplo.server.streaming
