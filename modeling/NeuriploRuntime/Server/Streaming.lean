import NeuriploRuntime.Llm.Delivery
import NeuriploRuntime.Server.Completions

open neuriplo.codec neuriplo.llm neuriplo.scheduler stream transition

namespace neuriplo.server.streaming

/-- Where the thread of a streamed completion stands. The stream writer is gone
once it is `closed`. A thread is `dangling` when the snapshot that its callback
captured by reference was replaced before `submit` had returned. -/
inductive Handler where
  | idle
  | opened (completion : StreamedCompletion)
  | submitted (completion : StreamedCompletion)
  | dangling (completion : StreamedCompletion)
  | answered (completion : StreamedCompletion) (scheduled : SchedulerResult)
  | finished (completion : StreamedCompletion) (scheduled : SchedulerResult)
  | closed (completion : StreamedCompletion) (scheduled : SchedulerResult)

/-- The registry publishes another snapshot, or none. -/
def Handler.unpublish : Handler → Handler
  | .opened completion => .dangling completion
  | .submitted completion => .dangling completion
  | handler => handler

/-- The scheduler of a model and the threads that stream from it, each with what
it has sent behind its header block. `tokens` are those an executor has passed to
a streaming callback, `stray` the ones whose writer was gone. The model's snapshot
is found while it is `published`. -/
structure State (setup : Setup) where
  scheduler : llm.State setup
  published : Bool := true
  handlers : Nat → Handler := fun _ => .idle
  sent : Nat → List Sent := fun _ => []
  tokens : Nat → List (List UInt8) := fun _ => []
  stray : Nat → List (List UInt8) := fun _ => []

inductive Event (setup : Setup) where
  | connect (request : Nat) (completion : StreamedCompletion)
  | handler (request : Nat)
  | publish
  | token (worker : Fin setup.config.kv_cache_slots) (text : List UInt8)
  | scheduler (event : llm.Event setup)

variable {setup : Setup}

namespace State

def setHandler (s : State setup) (request : Nat) (handler : Handler) : State setup :=
  { s with handlers := Function.update s.handlers request handler }

/-- A `send` on the client's socket. -/
def send (s : State setup) (request : Nat) (piece : Sent) : State setup :=
  { s with sent := Function.update s.sent request (s.sent request ++ [piece]) }

/-- The next step of the stream callback, and of `handleClient` around it. -/
def runHandler (s : State setup) (request : Nat) : Option (State setup) :=
  match s.handlers request with
  | .opened completion =>
    (s.scheduler.step (.submit request completion.exec_req)).map fun scheduler =>
      { s with scheduler }.setHandler request (.submitted completion)
  | .submitted completion =>
    match s.scheduler.submits request with
    | .returned scheduled => some (s.setHandler request (.answered completion scheduled))
    | _ => none
  | .answered completion scheduled =>
    some ((s.send request (finalPiece scheduled)).setHandler request (.finished completion scheduled))
  | .finished completion scheduled =>
    some ((s.send request .done).setHandler request (.closed completion scheduled))
  -- what a thread does with a snapshot that is gone is undefined
  | .dangling _ => none
  | _ => none

/-- The streaming callback of a request is called with a token. The JSON library
throws on one that is no UTF-8, and nothing is sent. -/
def callback (s : State setup) (request : Nat) (text : List UInt8) : Option (State setup) :=
  let passed := { s with tokens := Function.update s.tokens request (s.tokens request ++ [text]) }
  match s.handlers request with
  | .idle => none
  | .closed _ _ => some { passed with stray := Function.update s.stray request (s.stray request ++ [text]) }
  | _ =>
    match decodeUtf8 text with
    | some token => some (passed.send request (.token token))
    | none => some passed

/-- Whether the executor was asked for tokens. -/
def streams (s : State setup) (request : Nat) : Bool :=
  (s.scheduler.requests request).any fun pending => pending.request.llm_params.any (·.streaming)

/-- An executor calls the streaming callback of the request that it is decoding. -/
def emit (s : State setup) (worker : Fin setup.config.kv_cache_slots) (text : List UInt8) : Option (State setup) :=
  match s.scheduler.workers worker with
  | .executing request _ _ => if s.streams request then s.callback request text else none
  | _ => none

/-- Calls of `submit` that belong to a stream are made by its handler. -/
def mayTake (s : State setup) : llm.Event setup → Bool
  | .submit request _ =>
    match s.handlers request with
    | .idle => true
    | _ => false
  | _ => true

def step (s : State setup) : Event setup → Option (State setup)
  | .connect request completion =>
    match s.handlers request, s.scheduler.submits request with
    | .idle, .idle => if s.published then some (s.setHandler request (.opened completion)) else none
    | _, _ => none
  | .handler request => s.runHandler request
  | .publish => some { s with published := false, handlers := fun request => (s.handlers request).unpublish }
  | .token worker text => s.emit worker text
  | .scheduler event =>
    if s.mayTake event then (s.scheduler.step event).map fun scheduler => { s with scheduler } else none

end State

def system (setup : Setup) (now : Int) : System (State setup) (Event setup) :=
  System.ofStep { scheduler := { now } } State.step

end neuriplo.server.streaming
