import WaltzExample.Nanopb.Message.Basic

namespace Nanopb

open Varint (Byte)

namespace Fields

def int64 (tag : BitVec 32) : Fields → Fields :=
  value tag .optional (.varint 8)

def int32 (tag : BitVec 32) : Fields → Fields :=
  value tag .optional (.varint 4)

def enum (tag : BitVec 32) : Fields → Fields :=
  value tag .optional (.varint 4)

def uenum (tag : BitVec 32) : Fields → Fields :=
  value tag .optional (.uvarint 4)

def sint64 (tag : BitVec 32) : Fields → Fields :=
  value tag .optional (.svarint 8)

def bool (tag : BitVec 32) : Fields → Fields :=
  value tag .optional (.varint 1)

def bytes (tag : BitVec 32) : Fields → Fields :=
  value tag .optional .bytes

def message (tag : BitVec 32) (ptr : Fields) : Fields → Fields :=
  submessage tag .optional ptr

def messages (tag : BitVec 32) (ptr : Fields) : Fields → Fields :=
  submessage tag .repeated ptr

end Fields

open Fields

section Descriptions

def NetworkConnectionInfo : Fields :=
  enum 1 <| uenum 2 <| last

def LogEvent : Fields :=
  int64 1 <| bytes 6 <| int32 11 <| sint64 15 <| int64 17 <| message 23 NetworkConnectionInfo <|
  last

def IosClientInfo : Fields :=
  bytes 3 <| bytes 4 <| bytes 5 <| bytes 6 <| bytes 7 <| bytes 8 <| bytes 11 <| last

def ClientInfo : Fields :=
  uenum 1 <| message 4 IosClientInfo <| last

def LogRequest : Fields :=
  message 1 ClientInfo <| int32 2 <| messages 3 LogEvent <| int64 4 <| int64 8 <| uenum 9 <| last

def BatchedLogRequest : Fields :=
  messages 1 LogRequest <| last

def QosTierConfiguration : Fields :=
  uenum 2 <| int32 3 <| last

def QosTiersOverride : Fields :=
  messages 1 QosTierConfiguration <| int64 2 <| last

def LogResponse : Fields :=
  int64 1 <| message 3 QosTiersOverride <| last

def ICoreConfiguration : Fields :=
  uenum 1 <| value 7 .repeated (.uvarint 4) <| bytes 9 <| bytes 10 <| bytes 12 <| uenum 16 <|
  bytes 18 <| bytes 19 <| uenum 20 <| int32 21 <| bytes 22 <| bytes 24 <| bool 25 <| bool 26 <|
  int32 27 <| bytes 28 <| bool 29 <| uenum 30 <| bytes 31 <| bool 33 <| bool 36 <| last

end Descriptions

-- A message is encoded once to determine the size, and a second time to get its bytes.
def transportBytes (fields : Fields) (config : fields.Message) : Except Error (List Byte) := do
  let (_, sizestream) ← (fields.encode config).run .sizing
  let bufferSize := sizestream.bytesWritten
  let (_, ostream) ← (fields.encode config).run <| ostreamFromBuffer bufferSize
  return (ostream.state.getD []).take ostream.bytesWritten

def encodeBatchedLogRequest (batchedLogRequest : BatchedLogRequest.Message) :
    Except Error (List Byte) :=
  transportBytes BatchedLogRequest batchedLogRequest

-- The error that is passed on has nothing but the message in it.
def decodeLogResponse (data : List Byte) : LogResponse.Message × Option String :=
  match (decode LogResponse).run data with
  | .ok (response, _) => (response, none)
  | .error e          => (LogResponse.setToDefaults, some e.errmsg)

end Nanopb
