import Oreka.Capture.HeaderWalk
import Oreka.Serializers.PairScan
import Oreka.VoIp.Operations

/-!
# URL extraction

`VoIpSessions::UrlExtraction`, whose parser and `UnEscapeUrl` are those of `UrlSerializer` once more,
and the part of `DetectUsefulTcpPacket` that copies the text out of a packet. The text of a range behind
the frame is what of it is in memory.
-/

namespace Oreka.VoIp

open Capture Net Serializers

/-- A `CStdString`: a character for every byte. -/
def ofBytes (s : List UInt8) : String := String.ofList (s.map fun c => Char.ofNat c.toNat)

namespace VoIpSessions

/-- `VoIpSessions::UnEscapeUrl`. -/
def unEscapeUrl : List UInt8 → Option (List UInt8) := UrlSerializer.unEscapeUrl

/-- The pairs that `UrlExtraction` stores. -/
def extracted (input : List UInt8) : Scanned := PairParser.scan '&'.toUInt8 unEscapeUrl {} (trim input)

/-- `UrlExtraction`: what was stored before an exception stays. -/
def urlExtraction (σ : VoIpSessions) (cfg : VoIpConfig) (input : List UInt8) (endpointIp : InAddr) (now : Int) :
    VoIpSessions :=
  σ.storeExtracted cfg ((extracted input).pairs.map fun p => (ofBytes p.1, ofBytes p.2)) endpointIp now

/-- The value of a key in the map of an endpoint, if the endpoint is known and has it. -/
def extractedValue (σ : VoIpSessions) (cfg : VoIpConfig) (endpointIp : InAddr) (key : String) : Option String := do
  let ep ← σ.directory.getVoIpEndpointInfo cfg endpointIp 0
  let value ← ep.urlExtractionMap[key]?
  return value.value

end VoIpSessions

structure UrlConfig extends WalkConfig where
  voIp : VoIpConfig := {}
  urlExtractorEndpointIsSender : Bool := false

/-- The bytes of a range. -/
def copyRange (m : List UInt8) (s : Span) : Reading (List UInt8) :=
  .look s.start (s.stop - s.start) ((m.drop s.start).take (s.stop - s.start))

def readInAddr (m : List UInt8) (i : Nat) : InAddr :=
  ⟨byte m i, byte m (i + 1), byte m (i + 2), byte m (i + 3)⟩

/-- `ip_src` or `ip_dest`. -/
def urlEndpoint (cfg : UrlConfig) (m : List UInt8) (ip : Nat) : InAddr :=
  if cfg.urlExtractorEndpointIsSender then readInAddr m (ip + 12) else readInAddr m (ip + 16)

/-- `DetectUsefulTcpPacket`, as far as the URL goes; `σ` is what the attempts before it leave. -/
def detectUrl (cfg : UrlConfig) (m : List UInt8) (ip ipHeaderLength : Nat) (now : Int) (σ : VoIpSessions) :
    Reading VoIpSessions := do
  let detectedUsefulPacket ← Walk.tryTcp cfg.toWalkConfig m (ip + ipHeaderLength)
  if detectedUsefulPacket then return σ
  else
    let ranges ← Walk.extractUrl cfg.toWalkConfig m ip (ip + ipHeaderLength)
    ranges.foldlM (fun σ range => do
      let urlString ← copyRange m range
      return σ.urlExtraction cfg.voIp urlString (urlEndpoint cfg m ip) now) σ

end Oreka.VoIp
