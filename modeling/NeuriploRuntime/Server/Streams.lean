import NeuriploRuntime.Server.Streaming

open neuriplo.codec neuriplo.llm neuriplo.scheduler stream transition

namespace neuriplo.server.streaming

variable {setup : Setup}

def Handler.scheduled : Handler → Option SchedulerResult
  | .answered _ scheduled => some scheduled
  | .finished _ scheduled => some scheduled
  | .closed _ scheduled => some scheduled
  | _ => none

/-- The piece that the callback ends with, once it is sent. -/
def Handler.final : Handler → List Sent
  | .finished _ scheduled => [finalPiece scheduled]
  | .closed _ scheduled => [finalPiece scheduled]
  | _ => []

/-- The piece that ends the stream, once it is sent. -/
def Handler.last : Handler → List Sent
  | .closed _ _ => [.done]
  | _ => []

/-- The thread's stream writer is there. -/
def Handler.isWriting : Handler → Bool
  | .idle => false
  | .closed _ _ => false
  | _ => true

/-- The pieces that a client gets for tokens. -/
def tokenPieces (tokens : List (List UInt8)) : List Sent := (tokens.filterMap decodeUtf8).map .token

@[simp] theorem tokenPieces_nil : tokenPieces [] = [] := rfl

/-- Tokens are sent one after the other. -/
@[simp] theorem tokenPieces_append (first second : List (List UInt8)) :
    tokenPieces (first ++ second) = tokenPieces first ++ tokenPieces second := by
  simp [tokenPieces]

theorem tokenPieces_singleton (token : List UInt8) :
    tokenPieces [token] = ((decodeUtf8 token).map Sent.token).toList := by
  cases hdecoded : decodeUtf8 token with
  | none => simp [tokenPieces, hdecoded]
  | some text => simp [tokenPieces, hdecoded]

/-- The tokens a client gets before the final piece, and between it and the end. -/
structure State.Streams (s : State setup) (request : Nat) (before after : List (List UInt8)) : Prop where
  sent : s.sent request =
    tokenPieces before ++ (s.handlers request).final ++ tokenPieces after ++ (s.handlers request).last
  tokens : s.tokens request = before ++ after ++ s.stray request
  early : (s.handlers request).final = [] → after = []
  open_ : (s.handlers request).last = [] → s.stray request = []
  late : after ++ s.stray request ≠ [] →
    (s.handlers request).scheduled = some makeTimeoutResult ∧ s.scheduler.GivenUp request

section Steps

variable {s s' : State setup} {request : Nat} {before after : List (List UInt8)}

/-- A step that touches neither the handler nor what it sent keeps its stream. -/
theorem State.Streams.keep (hstreams : s.Streams request before after)
    (hhandler : s'.handlers request = s.handlers request) (hsent : s'.sent request = s.sent request)
    (htokens : s'.tokens request = s.tokens request) (hstray : s'.stray request = s.stray request)
    (hgiven : s.scheduler.GivenUp request → s'.scheduler.GivenUp request) : s'.Streams request before after := by
  constructor
  · rw [hsent, hhandler]
    exact hstreams.sent
  · rw [htokens, hstray]
    exact hstreams.tokens
  · rw [hhandler]
    exact hstreams.early
  · rw [hhandler, hstray]
    exact hstreams.open_
  · rw [hstray, hhandler]
    exact fun hlate => (hstreams.late hlate).imp_right hgiven

/-- What a thread knows of its call of `submit`, and what its client got. -/
structure State.Settled (s : State setup) (request : Nat) : Prop where
  returned : ∀ scheduled, (s.handlers request).scheduled = some scheduled →
    s.scheduler.submits request = .returned scheduled
  streams : ∃ before after, s.Streams request before after

/-- A step that touches neither the handler nor what it sent keeps it settled. -/
theorem State.Settled.keep (hsettled : s.Settled request) (hhandler : s'.handlers request = s.handlers request)
    (hsent : s'.sent request = s.sent request) (htokens : s'.tokens request = s.tokens request)
    (hstray : s'.stray request = s.stray request)
    (hgiven : s.scheduler.GivenUp request → s'.scheduler.GivenUp request)
    (hreturned : ∀ scheduled, s.scheduler.submits request = .returned scheduled →
      s'.scheduler.submits request = .returned scheduled) : s'.Settled request := by
  obtain ⟨before, after, hstreams⟩ := hsettled.streams
  refine ⟨?_, before, after, hstreams.keep hhandler hsent htokens hstray hgiven⟩
  intro scheduled hscheduled
  rw [hhandler] at hscheduled
  exact hreturned scheduled (hsettled.returned scheduled hscheduled)

/-- What the callback of a request with a writer sends, if anything. -/
theorem State.callback_writing {text : List UInt8} (hwriting : (s.handlers request).isWriting = true)
    (hstep : s.callback request text = some s') :
    s'.scheduler = s.scheduler ∧ s'.handlers = s.handlers ∧ s'.stray = s.stray ∧
      s'.tokens request = s.tokens request ++ [text] ∧ s'.sent request = s.sent request ++ tokenPieces [text] := by
  rw [tokenPieces_singleton]
  unfold State.callback at hstep
  cases hhandler : s.handlers request with
  | idle | closed =>
    rw [hhandler] at hwriting
    cases hwriting
  | opened | submitted | dangling | answered | finished =>
    rw [hhandler] at hstep
    dsimp only at hstep
    cases hdecoded : decodeUtf8 text with
    | none =>
      rw [hdecoded] at hstep
      cases hstep
      exact ⟨rfl, rfl, rfl, Function.update_self .., (List.append_nil _).symm⟩
    | some token =>
      rw [hdecoded] at hstep
      cases hstep
      exact ⟨rfl, rfl, rfl, Function.update_self .., Function.update_self ..⟩

/-- A token after the answer is one of a request that was given up. -/
theorem State.Settled.callback (hsettled : s.Settled request) {text : List UInt8}
    (hgiven : ∀ scheduled, s.scheduler.submits request = .returned scheduled →
      scheduled = makeTimeoutResult ∧ s.scheduler.GivenUp request)
    (hstep : s.callback request text = some s') : s'.Settled request := by
  obtain ⟨before, after, hstreams⟩ := hsettled.streams
  have hsent := hstreams.sent
  have htokens := hstreams.tokens
  generalize hhandler : s.handlers request = handler at hsent
  cases handler with
  | idle =>
    unfold State.callback at hstep
    rw [hhandler] at hstep
    cases hstep
  | opened | submitted | dangling | answered =>
    obtain ⟨hscheduler, hhandlers, hunread, htokens', hsent'⟩ :=
      State.callback_writing (by rw [hhandler]; rfl) hstep
    have hafter : after = [] := hstreams.early (by rw [hhandler]; rfl)
    have hstray : s.stray request = [] := hstreams.open_ (by rw [hhandler]; rfl)
    subst hafter
    refine ⟨?_, before ++ [text], [], ?_, ?_, fun _ => rfl, fun _ => by rw [hunread, hstray], ?_⟩
    · rw [hhandlers, hscheduler]
      exact hsettled.returned
    · simp [hsent', hsent, hhandlers, hhandler, Handler.final, Handler.last]
    · simp [htokens', htokens, hunread, hstray]
    · rw [hunread]
      exact fun hlate => absurd hstray hlate
  | finished completion scheduled =>
    obtain ⟨hscheduler, hhandlers, hunread, htokens', hsent'⟩ :=
      State.callback_writing (by rw [hhandler]; rfl) hstep
    have hstray : s.stray request = [] := hstreams.open_ (by rw [hhandler]; rfl)
    refine ⟨?_, before, after ++ [text], ?_, ?_, ?_, fun _ => by rw [hunread, hstray], ?_⟩
    · rw [hhandlers, hscheduler]
      exact hsettled.returned
    · simp [hsent', hsent, hhandlers, hhandler, Handler.final, Handler.last]
    · simp [htokens', htokens, hunread, hstray]
    · simp [hhandlers, hhandler, Handler.final]
    · intro _
      obtain ⟨rfl, hlate⟩ := hgiven scheduled (hsettled.returned scheduled (by rw [hhandler]; rfl))
      rw [hhandlers, hscheduler]
      exact ⟨congrArg Handler.scheduled hhandler, hlate⟩
  | closed completion scheduled =>
    unfold State.callback at hstep
    rw [hhandler] at hstep
    cases hstep
    refine ⟨hsettled.returned, before, after, ?_, ?_, ?_, ?_, ?_⟩
    · rw [hhandler]
      exact hsent
    · simp [htokens]
    · simp [hhandler, Handler.final]
    · simp [hhandler, Handler.last]
    · intro _
      obtain ⟨rfl, hlate⟩ := hgiven scheduled (hsettled.returned scheduled (by rw [hhandler]; rfl))
      exact ⟨congrArg Handler.scheduled hhandler, hlate⟩

/-- A step of the scheduler, by whichever of its threads. -/
theorem State.Settled.schedule {scheduler : llm.State setup} {event : llm.Event setup} (hsettled : s.Settled request)
    (hattended : s.scheduler.Attended) (hstep : s.scheduler.step event = some scheduler) :
    ({ s with scheduler } : State setup).Settled request :=
  hsettled.keep rfl rfl rfl rfl (hattended.step_givenUp hstep) fun _ => llm.State.step_returned hstep

/-- The thread goes on without sending anything. -/
theorem State.Settled.setHandler (hsettled : s.Settled request) {handler : Handler}
    (hwas : (s.handlers request).final = []) (hnow : handler.final = []) (hlast : (s.handlers request).last = [])
    (hlast' : handler.last = [])
    (hreturned : ∀ scheduled, handler.scheduled = some scheduled → s.scheduler.submits request = .returned scheduled) :
    (s.setHandler request handler).Settled request := by
  obtain ⟨before, after, hstreams⟩ := hsettled.streams
  have hhandler : (s.setHandler request handler).handlers request = handler := Function.update_self ..
  refine ⟨?_, before, after, ?_, hstreams.tokens, ?_, ?_, ?_⟩
  · rw [hhandler]
    exact hreturned
  · have hsent := hstreams.sent
    rw [hwas, hlast] at hsent
    rw [hhandler, hnow, hlast']
    exact hsent
  · exact fun _ => hstreams.early hwas
  · exact fun _ => hstreams.open_ hlast
  · intro hlate
    apply absurd hlate
    rw [not_not, hstreams.early hwas]
    exact hstreams.open_ hlast

/-- Another snapshot is published. -/
theorem State.Settled.unpublish (hsettled : s.Settled request)
    (hhandler : s'.handlers request = (s.handlers request).unpublish)
    (hscheduler : s'.scheduler = s.scheduler) (hsent : s'.sent = s.sent) (htokens : s'.tokens = s.tokens)
    (hstray : s'.stray = s.stray) : s'.Settled request := by
  obtain ⟨before, after, hstreams⟩ := hsettled.streams
  have hsame : (s'.handlers request).final = (s.handlers request).final ∧
      (s'.handlers request).last = (s.handlers request).last ∧
      (s'.handlers request).scheduled = (s.handlers request).scheduled := by
    rw [hhandler]
    cases s.handlers request <;> exact ⟨rfl, rfl, rfl⟩
  obtain ⟨hfinal, hlast, hscheduled⟩ := hsame
  refine ⟨?_, before, after, ?_, ?_, ?_, ?_, ?_⟩
  · rw [hscheduled, hscheduler]
    exact hsettled.returned
  · rw [hsent, hfinal, hlast]
    exact hstreams.sent
  · rw [htokens, hstray]
    exact hstreams.tokens
  · rw [hfinal]
    exact hstreams.early
  · rw [hlast, hstray]
    exact hstreams.open_
  · rw [hstray, hscheduled, hscheduler]
    exact hstreams.late

/-- The piece that ends the answer follows the tokens. -/
theorem State.Settled.finish (hsettled : s.Settled request) {completion : StreamedCompletion}
    {scheduled : SchedulerResult} (hhandler : s.handlers request = .answered completion scheduled) :
    ((s.send request (finalPiece scheduled)).setHandler request (.finished completion scheduled)).Settled request := by
  obtain ⟨before, after, hstreams⟩ := hsettled.streams
  have hsent := hstreams.sent
  have hafter : after = [] := hstreams.early (by rw [hhandler]; rfl)
  have hstray : s.stray request = [] := hstreams.open_ (by rw [hhandler]; rfl)
  subst hafter
  have hreturned : s.scheduler.submits request = .returned scheduled :=
    hsettled.returned scheduled (by rw [hhandler]; rfl)
  refine ⟨?_, before, [], ?_, hstreams.tokens, fun _ => rfl, fun _ => hstray, fun hlate => absurd hstray hlate⟩
  · intro other hother
    simp only [State.setHandler, Function.update_self, Handler.scheduled, Option.some.injEq] at hother
    subst hother
    exact hreturned
  · rw [hhandler] at hsent
    simp [State.send, State.setHandler, hsent, Handler.final, Handler.last]

/-- The end of the stream follows the piece that ends the answer. -/
theorem State.Settled.close (hsettled : s.Settled request) {completion : StreamedCompletion}
    {scheduled : SchedulerResult} (hhandler : s.handlers request = .finished completion scheduled) :
    ((s.send request .done).setHandler request (.closed completion scheduled)).Settled request := by
  obtain ⟨before, after, hstreams⟩ := hsettled.streams
  have hsent := hstreams.sent
  have hreturned : s.scheduler.submits request = .returned scheduled :=
    hsettled.returned scheduled (by rw [hhandler]; rfl)
  refine ⟨?_, before, after, ?_, hstreams.tokens, ?_, ?_, ?_⟩
  · intro other hother
    simp only [State.setHandler, Function.update_self, Handler.scheduled, Option.some.injEq] at hother
    subst hother
    exact hreturned
  · rw [hhandler] at hsent
    simp [State.send, State.setHandler, hsent, Handler.final, Handler.last]
  · simp [State.setHandler, Handler.final]
  · simp [State.setHandler, Handler.last]
  · intro hlate
    obtain ⟨hscheduled, hgiven⟩ := hstreams.late hlate
    rw [hhandler] at hscheduled
    refine ⟨?_, hgiven⟩
    simp only [State.setHandler, Function.update_self]
    exact hscheduled

/-- A handler's own step keeps its stream settled. -/
theorem State.Settled.runHandler (hsettled : s.Settled request) (hattended : s.scheduler.Attended)
    (hstep : s.runHandler request = some s') : s'.Settled request := by
  unfold State.runHandler at hstep
  split at hstep
  · rename_i completion hhandler
    obtain ⟨scheduler, hsubmit, rfl⟩ := Option.map_eq_some_iff.mp hstep
    apply (hsettled.schedule hattended hsubmit).setHandler <;>
      simp [hhandler, Handler.final, Handler.last, Handler.scheduled]
  · rename_i completion hhandler
    split at hstep <;> cases hstep
    rename_i scheduled hreturned
    apply hsettled.setHandler <;> simp [hhandler, Handler.final, Handler.last, Handler.scheduled, hreturned]
  · cases hstep
    exact hsettled.finish ‹_›
  · cases hstep
    exact hsettled.close ‹_›
  · cases hstep
  · cases hstep

end Steps

end neuriplo.server.streaming
