import NeuriploRuntime.Codec.OutputTensor
import NeuriploRuntime.Scheduler.Result
import NeuriploRuntime.Stream.Events

open neuriplo.codec neuriplo.scheduler neuriplo.tensor stream

namespace neuriplo.server

structure OpenAiCompletionRequest where
  model : String
  prompt : String
  max_tokens : Option Nat := none
  temperature : Option ℚ := none
  top_p : Option ℚ := none
  stream : Bool := false
deriving DecidableEq, Repr

structure ChatMessage where
  role : String
  content : String
deriving DecidableEq, Repr

structure OpenAiChatRequest where
  model : String
  messages : List ChatMessage
  max_tokens : Option Nat := none
  temperature : Option ℚ := none
  top_p : Option ℚ := none
  stream : Bool := false
deriving DecidableEq, Repr

def promptTensor (prompt : String) : InputTensor where
  name := "prompt"
  datatype := "BYTES"
  shape := [1]
  string_data := [prompt]

/-- What a stream callback captures, with the request it submits. -/
structure StreamedCompletion where
  request_id : String
  object : String
  model : String
  created : Int
  exec_req : ExecutionRequest
deriving DecidableEq, Repr

/-- The streamed answer to a completion request, under the id and at the second
at which it was made. -/
def completionsStreaming (generated_id : String) (created : Int) (comp_req : OpenAiCompletionRequest) :
    StreamedCompletion :=
  let request_id := "cmpl-" ++ generated_id
  { request_id
    object := "text_completion"
    model := comp_req.model
    created
    exec_req := {
      id := some request_id
      inputs := [promptTensor comp_req.prompt]
      llm_params := some {
        max_tokens := comp_req.max_tokens
        temperature := comp_req.temperature
        top_p := comp_req.top_p
        streaming := true } } }

def chatPrompt (messages : List ChatMessage) : String :=
  messages.foldl (fun prompt_text message => prompt_text ++ (message.role ++ ": " ++ message.content ++ "\n")) "" ++
    "assistant: "

def chatCompletionsStreaming (generated_id : String) (created : Int) (chat_req : OpenAiChatRequest) :
    StreamedCompletion :=
  let request_id := "chatcmpl-" ++ generated_id
  { request_id
    object := "chat.completion.chunk"
    model := chat_req.model
    created
    exec_req := {
      id := some request_id
      inputs := [promptTensor (chatPrompt chat_req.messages)]
      llm_params := some {
        max_tokens := chat_req.max_tokens
        temperature := chat_req.temperature
        top_p := chat_req.top_p
        streaming := true } } }

/-- What is sent to a client behind the header block, one `send` each. -/
inductive Sent where
  | token (text : String)
  | finish
  | failed (error_message : String)
  | done
deriving DecidableEq, Repr

/-- The body of `streamingChunkJson`. The library keeps the fields of an object
sorted by name. -/
def streamingChunk (completion : StreamedCompletion) (delta_content finish_reason : String) : Json :=
  .object [
    ("choices", .array [.object [
      ("delta", .object [("content", .string delta_content)]),
      ("finish_reason", if finish_reason.isEmpty then .null else .string finish_reason),
      ("index", .number (.unsigned 0))]]),
    ("created", jsonInteger completion.created),
    ("id", .string completion.request_id),
    ("model", .string completion.model),
    ("object", .string completion.object)]

def streamingChunkJson (lib : JsonLibrary) (completion : StreamedCompletion) (delta_content finish_reason : String) :
    List UInt8 :=
  frame (lib.dump (streamingChunk completion delta_content finish_reason))

def errorJson (error_message : String) : Json := .object [("error", .string error_message)]

/-- `[DONE]`. -/
def doneText : List UInt8 := octets "[DONE]"

/-- The text that an event of the stream carries. -/
def Sent.payload (lib : JsonLibrary) (completion : StreamedCompletion) : Sent → List UInt8
  | .token text => lib.dump (streamingChunk completion text "")
  | .finish => lib.dump (streamingChunk completion "" "stop")
  | .failed error_message => lib.dump (errorJson error_message)
  | .done => doneText

/-- What is handed to `send`. -/
def Sent.bytes (lib : JsonLibrary) (completion : StreamedCompletion) : Sent → List UInt8
  | .token text => streamingChunkJson lib completion text ""
  | .finish => streamingChunkJson lib completion "" "stop"
  | .failed error_message => octets "data: " ++ lib.dump (errorJson error_message) ++ [10, 10]
  | .done => octets "data: [DONE]\n\n"

/-- What a stream ends with once `submit` has returned. -/
def finalPiece (scheduled : SchedulerResult) : Sent :=
  if !scheduled.ok then .failed scheduled.error_message else .finish

def chunkContent (body : Json) : Option String := do
  let choice ← (← (← body.field "choices").asArray).head?
  (← (← choice.field "delta").field "content").asString

/-- The text a client reads out of an event. -/
def deltaContent (lib : JsonLibrary) (payload : List UInt8) : Option String := (lib.parse payload).bind chunkContent

/-- The library prints a piece on one line, and reads it back. -/
structure Prints (lib : JsonLibrary) (json : Json) : Prop where
  line : 10 ∉ lib.dump json
  parse : lib.parse (lib.dump json) = some json

/-- A piece is printed, and is not taken for the end of the stream. -/
def Sent.Printed (lib : JsonLibrary) (completion : StreamedCompletion) : Sent → Prop
  | .token text => Prints lib (streamingChunk completion text "")
  | .finish => Prints lib (streamingChunk completion "" "stop")
  | .failed error_message => Prints lib (errorJson error_message)
  | .done => lib.parse doneText = none

variable {lib : JsonLibrary} {completion : StreamedCompletion}

/-- A printed piece stays on one line. -/
theorem Sent.Printed.line {sent : Sent} (hprinted : sent.Printed lib completion) :
    10 ∉ sent.payload lib completion := by
  cases sent with
  | token | finish | failed => exact Prints.line hprinted
  | done =>
    change 10 ∉ doneText
    decide

/-- What a client reads out of a piece. -/
def Sent.text : Sent → Option String
  | .token text => some text
  | .finish => some ""
  | _ => none

/-- A chunk carries its text. -/
@[simp] theorem chunkContent_streamingChunk (completion : StreamedCompletion) (delta_content finish_reason : String) :
    chunkContent (streamingChunk completion delta_content finish_reason) = some delta_content := rfl

/-- The text reads back from a printed chunk. -/
theorem deltaContent_streamingChunk {delta_content finish_reason : String}
    (hprints : Prints lib (streamingChunk completion delta_content finish_reason)) :
    deltaContent lib (lib.dump (streamingChunk completion delta_content finish_reason)) = some delta_content := by
  rw [deltaContent, hprints.parse, Option.bind_some, chunkContent_streamingChunk]

/-- A client reads from a printed piece the text that it carries. -/
theorem Sent.Printed.deltaContent {sent : Sent} (hprinted : sent.Printed lib completion) :
    deltaContent lib (sent.payload lib completion) = sent.text := by
  cases sent with
  | token | finish => exact deltaContent_streamingChunk hprinted
  | failed error_message =>
    rw [payload, server.deltaContent, Prints.parse hprinted]
    rfl
  | done =>
    rw [payload, server.deltaContent, show lib.parse doneText = none from hprinted]
    rfl

end neuriplo.server
