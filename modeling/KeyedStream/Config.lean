import KeyedStream.Json.Reader
import KeyedStream.Pipe
import KeyedStream.Rpc.Router

/-!
# Configurations in JSON

A configuration is an object, or an array of its settings in order. A setting that is left out has
its standard value.
-/

namespace KeyedStream

def maxUInt32 : Nat := 4294967295

def maxUInt64 : Nat := 18446744073709551615

namespace ServerConfig

/-- The configuration that a JSON value stands for. -/
def ofValue? (v : Json.Value) : Option ServerConfig :=
  let standard : ServerConfig := {}
  match Json.record? ["addr", "max_message_size"] v with
  | some [addr, size] => do
    return { addr := ← Json.field (·.text?) standard.addr addr,
             maxMessageSize := ← Json.field (·.natural? maxUInt64) standard.maxMessageSize size }
  | _ => none

def read? (s : String) : Option ServerConfig := (Json.read? s.toList).bind ofValue?

end ServerConfig

namespace PipeConfig

/-- The configuration that a JSON value stands for. -/
def ofValue? (v : Json.Value) : Option PipeConfig :=
  let standard : PipeConfig := {}
  match Json.record? ["max_frame_size"] v with
  | some [size] => do
    return { maxFrameSize := ← Json.field (·.natural? maxUInt32) standard.maxFrameSize size }
  | _ => none

def read? (s : String) : Option PipeConfig := (Json.read? s.toList).bind ofValue?

end PipeConfig

end KeyedStream
