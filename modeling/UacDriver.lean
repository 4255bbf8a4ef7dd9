import UacDriver.Lib.Circular
import UacDriver.Lib.Cursor
import UacDriver.Lib.Runs
import UacDriver.Ring
import UacDriver.Scheduling
import UacDriver.Playback
import UacDriver.PlaybackFifo
import UacDriver.Transfer
import UacDriver.MetaFifo
import UacDriver.MetaFifoRace
import UacDriver.Refill
import UacDriver.Capture
import UacDriver.CaptureFifo
import UacDriver.CaptureFrames
import UacDriver.Driver
import UacDriver.Pump
import UacDriver.Session
import UacDriver.Buffers
import UacDriver.Rotation
import UacDriver.ImplicitOrder
import UacDriver.ImplicitStart
import UacDriver.Ledger
import UacDriver.LedgerStart
import UacDriver.Wakeup
import UacDriver.Teardown
import UacDriver.BufferPolicy
import UacDriver.Lifecycle
import UacDriver.StartupPrime
import UacDriver.QueueRace
import UacDriver.QueueCount
import UacDriver.FlushRace
import UacDriver.WakeRace
import UacDriver.WaitLoops
import UacDriver.StopHandshake
import UacDriver.Pcm
import UacDriver.PcmRoundTrip
import UacDriver.Descriptors
import UacDriver.FormatAgreement
import UacDriver.Cadence
import UacDriver.PacketPlan
import UacDriver.ImplicitTransfer
import UacDriver.PackLayout
import UacDriver.CaptureReads
import UacDriver.CaptureAdmission
import UacDriver.PrimeReach
import UacDriver.InitialFill
import UacDriver.QuantumSubmit
import UacDriver.Host
import UacDriver.TransferCount
import UacDriver.Unwind
import UacDriver.SideBySide
import UacDriver.Sessions
import UacDriver.PrimingRace
import UacDriver.PrimeGate
import UacDriver.PolicyArith
import UacDriver.PolicySound
import UacDriver.CaptureBudget
import UacDriver.AutomaticPolicy
import UacDriver.CaptureRunway
import UacDriver.CreditLead
import UacDriver.EndpointArith
import UacDriver.DescriptorReads
import UacDriver.SelectionReads
import UacDriver.SubrangeRates
import UacDriver.Lib.Search
import UacDriver.SampleRate
import UacDriver.FlightRecorder
import UacDriver.Lib.Episodes
import UacDriver.Lib.Ranks
import UacDriver.CpuMasks
import UacDriver.Lib.Checked
import UacDriver.Conversions
import UacDriver.Starvation
import UacDriver.StarvationSessions
import UacDriver.Lib.CasLoop
import UacDriver.Lib.Meters
import UacDriver.RetryLoops
import UacDriver.Envelope
import UacDriver.Burst
import UacDriver.RecorderRace
import UacDriver.Ownership
import UacDriver.Lib.Slots
import UacDriver.PendingSlots
import UacDriver.FormatsKept
import UacDriver.Adapter
import UacDriver.CaptureSelection
import UacDriver.Affinity
import UacDriver.Lib.Neighbours
import UacDriver.Detectors
import UacDriver.ErrorCodes
import UacDriver.ChannelCount
