import AquaOS.Transition
import AquaOS.Table
import AquaOS.Channel
import AquaOS.Timeline
import AquaOS.Domain
import AquaOS.CanonicalState
import AquaOS.EquipmentProfile
import AquaOS.SafetyEngine
import AquaOS.PolicyDecision
import AquaOS.IntentTime
import AquaOS.WatchdogSweep
import AquaOS.RuntimeAccounting
import AquaOS.DailyLimit
import AquaOS.Output
import AquaOS.OutputSystem
import AquaOS.Lifecycle
import AquaOS.Idempotency
import AquaOS.Provenance
import AquaOS.Submission
import AquaOS.Controller
import AquaOS.EmergencyStop
import AquaOS.WatchdogDelivery
import AquaOS.EngineCalls
import AquaOS.WatchdogAuthority
import AquaOS.WatchdogEpisode
import AquaOS.AlarmState
import AquaOS.AlarmLife
import AquaOS.AlarmTiming
import AquaOS.AlarmRecord
import AquaOS.AlarmRetry
import AquaOS.Coordinator
import AquaOS.FailureAlarm
import AquaOS.StatusOrder
import AquaOS.PendingCommands
import AquaOS.ReportedState
import AquaOS.Scan
import AquaOS.Configuration
import AquaOS.AcceptedConfig
import AquaOS.DerivedProfiles
import AquaOS.Registries
import AquaOS.AdapterInventory
import AquaOS.Construction
import AquaOS.Reload
import AquaOS.ConfigManager
import AquaOS.Adapters
import AquaOS.Measurement
import AquaOS.StateStore
import AquaOS.StateFeed
import AquaOS.Evaluator
import AquaOS.AlarmNotifications
import AquaOS.EventBus
import AquaOS.AlarmBus
import AquaOS.StateEvents
import AquaOS.Levels
import AquaOS.MqttTopics
import AquaOS.MqttClient
import AquaOS.EventExport
import AquaOS.Ownership
import AquaOS.StateSet
import AquaOS.HomeAssistant
import AquaOS.Discovery
import AquaOS.RetainedDiscovery
import AquaOS.CommandBridge
import AquaOS.SwitchRequests
import AquaOS.NodeSnapshot
import AquaOS.ProbeQuality
import AquaOS.Window
import AquaOS.MessageConsumer
import AquaOS.OfflineQueue
import AquaOS.MqttSession
import AquaOS.CommandRouter
import AquaOS.ConsumerFields
import AquaOS.Startup
import AquaOS.HistoryPoint
import AquaOS.HistorySeries
import AquaOS.StorageWriter
import AquaOS.EscapedText
import AquaOS.QuotedText
import AquaOS.LineProtocol
import AquaOS.LineBatches
import AquaOS.Program
import AquaOS.Operations
import AquaOS.HostMachine
import AquaOS.ManagedPaths
import AquaOS.Releases
import AquaOS.Archives
import AquaOS.Activation
import AquaOS.Convergence
import AquaOS.InstallRetry
import AquaOS.VisionContract
import AquaOS.OverrideWindow
import AquaOS.ThresholdRules
import AquaOS.MessageIdentity
import AquaOS.Paging
import AquaOS.Pagination
import AquaOS.TokenBucket
import AquaOS.RequestLimits
import AquaOS.ApiServer
import AquaOS.Occupancy
import AquaOS.CandidateProbe
import AquaOS.RetryDelays
import AquaOS.Identifiers
import AquaOS.WordTime
import AquaOS.Scenario
import AquaOS.SimulatorRun
import AquaOS.FaultWindows
import AquaOS.JsonText
import AquaOS.TrailingText
