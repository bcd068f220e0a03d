import KartStack.FrameScan
import KartStack.FrameResync
import KartStack.WireFormat
import KartStack.SerialParser
import KartStack.SerialTimeout
import KartStack.MicroReceive
import KartStack.MicroRuns
import KartStack.MicroSend
import KartStack.MicroSendTruth
import KartStack.LinkLossless
import KartStack.LinkReceivers
import KartStack.LinkResync
import KartStack.ObjectTable
import KartStack.PedalInterlock
import KartStack.Transitions
import KartStack.FloatArithmetic
import KartStack.PidController
import KartStack.ActuatorOutput
import KartStack.ObjectFold
import KartStack.BufferBounds
import KartStack.DriverMachine
import KartStack.DriverSteps
import KartStack.DriverTransmit
import KartStack.DriverReconnect
import KartStack.DriverWinding
import KartStack.DriverStop
import KartStack.SenderTasks
import KartStack.RtosTable
import KartStack.RtosAgrees
import KartStack.RtosLaws
import KartStack.RtosFlags
import KartStack.RtosRecords
import KartStack.RtosRequests
import KartStack.DashboardState
import KartStack.WebSocketServer
import KartStack.WebSocketSync
import KartStack.DashboardTelemetry
import KartStack.DashboardMission
import KartStack.PythonNumbers
import KartStack.PythonStrings
import KartStack.SimTraining
import KartStack.MultiTrack
import KartStack.DatasetPrepare
import KartStack.DatasetTogether
import KartStack.SimControllers
import KartStack.ConeFollower
import KartStack.ControllersAgree
import KartStack.ConePerception
import KartStack.SendTermination
import KartStack.PolynomialCodes
import KartStack.CrcDetection
import KartStack.DacChannels
import KartStack.SteeringSensor
import KartStack.WebSocketRoundTrip
import KartStack.PidRecovery
import KartStack.AckermannSpeed
import KartStack.FollowerCommands
import KartStack.MirrorSymmetry
import KartStack.FrameSlot
import KartStack.ClassRemap
import KartStack.LeastElement
import KartStack.HudTarget
import KartStack.PythonLoops
import KartStack.GeneticEvolution
import KartStack.GeneRanges
import KartStack.CircularTravel
import KartStack.SimTrack
import KartStack.SimEpisode
import KartStack.TrackSpecs
import KartStack.RandomTrack
import KartStack.SavedTracks
import KartStack.LostTracks
import KartStack.PythonDecimals
import KartStack.RegularExpressions
import KartStack.SdfWorld
import KartStack.PolygonParity
import KartStack.SimplePolygons
import KartStack.SteeringCalibration
import KartStack.CenterlineLength
import KartStack.BoundaryResampling
import KartStack.PythonDict
import KartStack.BoxMatching
import KartStack.NearestEdge
import KartStack.NestedPolygons
import KartStack.OnTrack
import KartStack.StreamReaders
import KartStack.Base128
import KartStack.NanopbVarint
import KartStack.NanopbFields
import KartStack.NanopbDecode
import KartStack.NanopbEncode
import KartStack.KartMessages
import KartStack.CommandLink
import KartStack.TopicOrder
import KartStack.TelemetryLink
import KartStack.BinaryFloats
import KartStack.FloatBits
import KartStack.BridgeLink
import KartStack.Teleop
import KartStack.BroadcastLoop
import KartStack.BroadcastConnections
import KartStack.CommandEcho
import KartStack.EpisodeClearance
import KartStack.PipelinesAgree
import KartStack.NetworkGenes
import KartStack.RecurrentNetwork
import KartStack.ConeLocalizer
import KartStack.GroundTruth
import KartStack.WebSocketHandshake
