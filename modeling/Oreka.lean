import Oreka.Mixer.Proof.ReferenceMix
import Oreka.Mixer.Proof.ChannelRings
import Oreka.Mixer.Proof.StereoMix
import Oreka.Net.Proof.Reassembly
import Oreka.Net.Proof.FragmentKeys
import Oreka.Iax2.Proof.Tables
import Oreka.Iax2.Iax2Parsers
import Oreka.Iax2.Proof.KeptPackets
import Oreka.Iax2.Proof.SameState
import Oreka.Iax2.Proof.TrunkFrames
import Oreka.Iax2.Proof.MiniFrames
import Oreka.Iax2.Proof.SteadyFrames
import Oreka.Iax2.Proof.Begun
import Oreka.Iax2.Proof.TrunkTransparency
import Oreka.Sip.Proof.Segmentation
import Oreka.VoIp.Proof.Moves
import Oreka.VoIp.Proof.Routes
import Oreka.VoIp.Proof.Steps
import Oreka.VoIp.Proof.Stopped
import Oreka.VoIp.Proof.StopCapture
import Oreka.VoIp.Proof.Hoover
import Oreka.Capture.UdpListener
import Oreka.Capture.TcpConnection
import Oreka.Capture.Proof.TcpFrames
import Oreka.Capture.Proof.UdpPackets
import Oreka.Capture.HandlePacket
import Oreka.Capture.Proof.FragmentDelivery
import Oreka.Lib.Changes
import Oreka.VoIp.DtmfHandling
import Oreka.VoIp.Proof.DtmfReports
import Oreka.Base.Proof.QueueInv
import Oreka.Audio.OggOpusFile
import Oreka.Audio.Proof.WholeFrames
import Oreka.Base.OrkLruMap
import Oreka.Lib.Recency
import Oreka.Base.Proof.LruOrder
import Oreka.Audio.MediaChunkFile
import Oreka.Audio.Proof.McfRoundTrip
import Oreka.Serializers.KeyValueText
import Oreka.Serializers.SingleLineSerializer
import Oreka.Serializers.UrlSerializer
import Oreka.Serializers.Proof.KeyValueParse
import Oreka.Serializers.Proof.UrlRoundTrip
import Oreka.Serializers.Proof.SingleLineRoundTrip
import Oreka.Tape.ImmediateProcessing
import Oreka.Tape.Proof.LastChunk
import Oreka.Tape.Proof.TapeEvents
import Oreka.Tape.Proof.Written
import Oreka.Tape.Proof.FinishedOnce
import Oreka.Tape.Proof.MessageStages
import Oreka.Lib.Reading
import Oreka.Capture.HeaderWalk
import Oreka.Capture.Proof.WalkBounds
import Oreka.Capture.Proof.Realignment
import Oreka.Capture.Proof.Encapsulation
import Oreka.Tape.DirectionSelector
import Oreka.Tape.Proof.DirectionMarks
import Oreka.Tape.CapturePort
import Oreka.Tape.Proof.Recordings
import Oreka.Tape.Proof.Unfiltered
import Oreka.Tape.Proof.Segments
import Oreka.Tape.Proof.VoiceDetection
import Oreka.Serializers.Serializer
import Oreka.Serializers.Proof.CsvMap
import Oreka.Messages.TapeMsg
import Oreka.Messages.Proof.TapeMsgRoundTrip
import Oreka.Tape.Proof.OnePort
import Oreka.Server.MultiThreadedServer
import Oreka.Server.Proof.CommandLines
import Oreka.Orkbasej.SingleLineSerializer
import Oreka.Orkbasej.Proof.JavaLines
import Oreka.Orkbasej.Proof.CppLines
import Oreka.Orkbasej.Proof.Agreement
import Oreka.Client.OrkHttpClient
import Oreka.Client.Proof.PlainReads
import Oreka.Client.Proof.TlsReads
import Oreka.Client.Proof.ResponseLines
import Oreka.Orktrack.PortManager
import Oreka.Orktrack.Proof.PortsKept
import Oreka.Lib.FirstRun
import Oreka.Orktrack.Port
import Oreka.Orktrack.Proof.PortReports
import Oreka.Orktrack.Proof.ArrivalOrder
import Oreka.Sip.Proof.StreamEnd
import Oreka.Capture.Rtcp
import Oreka.Capture.Proof.RtcpHeaders
import Oreka.Capture.Proof.RtcpSdes
import Oreka.VoIp.Proof.PacketPath
import Oreka.VoIp.Proof.Remapping
import Oreka.VoIp.Proof.Continuity
import Oreka.VoIp.Proof.HoldSteps
import Oreka.VoIp.Proof.HoldAccounting
import Oreka.Net.Proof.ReassembledSize
import Oreka.Mixer.Proof.CorrectiveDelta
import Oreka.Mixer.Proof.ChannelIndices
import Oreka.Mixer.Proof.Milliseconds
import Oreka.Capture.Proof.TzspTags
import Oreka.Serializers.PairScan
import Oreka.Serializers.Proof.CompletePairs
import Oreka.VoIp.UrlExtraction
import Oreka.VoIp.Proof.UrlPayload
import Oreka.Lib.Search
import Oreka.Sip.HeaderSearch
import Oreka.Sip.Proof.Occurrences
import Oreka.Iax2.Proof.Timestamps
import Oreka.Iax2.InformationElements
import Oreka.Iax2.Proof.Elements
import Oreka.Lib.Memory
import Oreka.Skinny.SkinnyParsers
import Oreka.Skinny.Proof.PartyNames
import Oreka.Skinny.PacketHeaderDefs
import Oreka.Skinny.Proof.MessageScan
import Oreka.Skinny.Proof.Ccm5CallInfo
import Oreka.VoIp.Proof.HoldMemory
import Oreka.Lib.LastWinner
import Oreka.VoIp.Proof.Lookups
import Oreka.VoIp.Proof.DtmfCommands
import Oreka.Tape.Proof.NullMessages
import Oreka.Tape.Proof.StoppedTapes
import Oreka.Lib.Stopwatch
import Oreka.Tape.Proof.HoldDuration
import Oreka.Batch.BatchProcessing
import Oreka.Batch.Proof.OutputFiles
import Oreka.Batch.Proof.PlainCapture
import Oreka.Batch.Proof.SecondaryMixer
import Oreka.Serializers.Proof.Integers
import Oreka.Sip.PayloadMapping
import Oreka.Sip.Proof.RtpmapLines
import Oreka.Sip.Proof.PayloadMappings
import Oreka.Lib.Infix
import Oreka.Sip.KeyValues
import Oreka.Sip.Proof.LineValues
import Oreka.Sip.Proof.KeyLines
import Oreka.Sip.Proof.FieldPositions
import Oreka.Sip.Proof.ConfinedKeys
import Oreka.Base.IpRanges
import Oreka.Base.Proof.DottedAddress
import Oreka.Base.Proof.CidrRanges
import Oreka.Tape.PartyFilter
import Oreka.Tape.Proof.PartyMap
import Oreka.Tape.Proof.PartyMatches
import Oreka.Server.Proof.ReceivedBytes
import Oreka.Lib.Files
import Oreka.Batch.CommandProcessing
import Oreka.Batch.Proof.CommandFiles
import Oreka.Lib.Walk
import Oreka.Tape.TapeFileNaming
import Oreka.Tape.Proof.FinalNames
import Oreka.Lib.Wrapping
import Oreka.Audio.OpusCodec
import Oreka.Audio.Proof.OpusTimestamps
import Oreka.Mixer.Proof.Contribution
import Oreka.Batch.Proof.KeptSide
import Oreka.Lib.CyclicInterval
import Oreka.Orktrack.ProgramManager
import Oreka.Orktrack.Proof.ProgramFilter
import Oreka.Orktrack.Proof.TapeRecords
import Oreka.Lib.BoundedCache
import Oreka.Orktrack.Proof.SegmentFindsTape
import Oreka.Streaming.EventStreaming
import Oreka.Streaming.Proof.Broadcast
import Oreka.Reporting.Reporting
import Oreka.Reporting.Proof.Delivery
import Oreka.Lib.Links
import Oreka.Tape.Proof.TapePipeline
import Oreka.Tape.TapeProcessor
import Oreka.Iax2.Proof.TrackingIds
