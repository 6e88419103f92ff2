import NeuriploRuntime.Stream.Octets

namespace stream

/-- The start of a line that carries data. -/
def dataField : List UInt8 := octets "data: "

/-- An event as it is sent: one line of data, and a blank line. -/
def frame (payload : List UInt8) : List UInt8 := dataField ++ payload ++ [10, 10]

/-- A reader of server-sent events: the line it is in, the data of the event it
is in, line by line, and the events it has read. -/
structure EventReader where
  line : List UInt8 := []
  data : List (List UInt8) := []
  events : List (List UInt8) := []
deriving DecidableEq, Repr

namespace EventReader

/-- At the end of a line: a blank one ends the event, a line of data adds to it,
and other fields are skipped. -/
def endLine (reader : EventReader) : EventReader :=
  if reader.line = [] then
    if reader.data = [] then reader
    else { events := reader.events ++ [List.intercalate [10] reader.data] }
  else if dataField <+: reader.line then
    { reader with line := [], data := reader.data ++ [reader.line.drop dataField.length] }
  else { reader with line := [] }

def feed (reader : EventReader) (byte : UInt8) : EventReader :=
  if byte = 10 then reader.endLine else { reader with line := reader.line ++ [byte] }

end EventReader

end stream
