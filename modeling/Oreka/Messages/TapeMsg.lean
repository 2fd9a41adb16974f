import Oreka.Serializers.Serializer

/-!
# Tape messages

`messages/TapeMsg.cpp` and `messages/Message.cpp`: the fields that a message defines, and its URL
form. `time_t` has 64 bits, of which `Define` reads and writes the low 32 as an `int`.
-/

open Std

namespace Oreka.Messages

open Serializers

/-- `TapeMsg`. -/
structure TapeMsg where
  recId : List UInt8 := []
  stage : List UInt8 := []
  timestamp : Int64 := 0
  fileName : List UInt8 := []
  capturePort : List UInt8 := []
  localParty : List UInt8 := []
  localEntryPoint : List UInt8 := []
  remoteParty : List UInt8 := []
  direction : List UInt8
  audioKeepDirection : List UInt8
  duration : Int32 := 0
  serviceName : List UInt8
  localIp : List UInt8 := []
  remoteIp : List UInt8 := []
  nativeCallId : List UInt8 := []
  tags : PairMap := ∅
  onDemand : Bool
  live : Bool := true
  hostname : List UInt8

namespace TapeMsg

/-- A new message. The constructor takes the service name from the configuration and the host's name
from the capture ports, and leaves `m_onDemand` as it is in memory. -/
def new (serviceName hostname : List UInt8) (onDemand : Bool) : TapeMsg where
  direction := bytes "unkn"
  audioKeepDirection := bytes "both"
  serviceName
  hostname
  onDemand

/-- `(int&)m_timestamp`. -/
def lowInt (timestamp : Int64) : Int32 := timestamp.toInt32

/-- An assignment to `(int&)m_timestamp`. -/
def setLowInt (timestamp : Int64) (low : Int32) : Int64 :=
  .ofBitVec (timestamp.toBitVec.extractLsb' 32 32 ++ low.toBitVec)

open SerializerM in
def define (m : TapeMsg) : SerializerM TapeMsg := do
  let _ ← stringValue "type" (bytes "tape") true
  let recId ← stringValue "recid" m.recId true
  let stage ← stringValue "stage" m.stage true
  let capturePort ← stringValue "captureport" m.capturePort true
  let low ← intValue "timestamp" (lowInt m.timestamp) true
  let fileName ← stringValue "filename" m.fileName true
  let localParty ← stringValue "localparty" m.localParty false
  let localEntryPoint ← stringValue "localentrypoint" m.localEntryPoint false
  let remoteParty ← stringValue "remoteparty" m.remoteParty false
  let direction ← stringValue "direction" m.direction false
  let duration ← intValue "duration" m.duration false
  let serviceName ← stringValue "service" m.serviceName false
  let localIp ← stringValue "localip" m.localIp false
  let remoteIp ← stringValue "remoteip" m.remoteIp false
  let nativeCallId ← stringValue "nativecallid" m.nativeCallId false
  let tags ← csvMapValue "tags" m.tags false
  let onDemand ← boolValue "ondemand" m.onDemand false
  let audioKeepDirection ← stringValue "side" m.audioKeepDirection false
  let live ← boolValue "live" m.live false
  let hostname ← stringValue "hostname" m.hostname false
  return { recId, stage, capturePort, fileName, localParty, localEntryPoint, remoteParty, direction
           duration, serviceName, localIp, remoteIp, nativeCallId, tags, onDemand, audioKeepDirection
           live, hostname, timestamp := setLowInt m.timestamp low }

/-- `Serialize`: the URL of a message. -/
def serialize (m : TapeMsg) : Except Failure (List UInt8) :=
  (·.2.output) <$> m.define.run { deSerialize := false }

/-- `DeSerialize`: `m` with what the URL says. -/
def deSerialize (m : TapeMsg) (input : List UInt8) : Except Failure TapeMsg :=
  match UrlSerializer.deSerialize input with
  | some map => (·.1) <$> m.define.run { deSerialize := true, map }
  | none => .error .outOfRange

end TapeMsg

end Oreka.Messages
