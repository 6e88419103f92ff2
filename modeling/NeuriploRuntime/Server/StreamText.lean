import NeuriploRuntime.Server.StreamOrder

open neuriplo.codec neuriplo.llm neuriplo.scheduler stream transition

namespace neuriplo.server.streaming

variable {setup : Setup}

/-- The answer comes in time, with one token. -/
def answered : List (Event singleSlot) :=
  decoding ++ [.token onlyWorker [104, 105], .scheduler (.infer onlyWorker (.ok {}))] ++
    List.replicate 9 (.scheduler (.worker onlyWorker)) ++ [.scheduler (.submitter 0)] ++ List.replicate 3 (.handler 0)

end neuriplo.server.streaming
