import PmuFirmware.Lib.TextFile
import PmuFirmware.Lib.FileSystem
import PmuFirmware.Lib.Time
import PmuFirmware.Lib.Json
import PmuFirmware.Queue.Store
import PmuFirmware.Queue.Dequeueing
import PmuFirmware.Queue.Enqueueing
import PmuFirmware.Queue.Counters
import PmuFirmware.Queue.RetryDeletion
import PmuFirmware.Queue.Readers
import PmuFirmware.Queue.Acknowledge
import PmuFirmware.Messages.FormMessage
import PmuFirmware.Queue.RoundTrip
import PmuFirmware.Inbound.Validate
import PmuFirmware.Inbound.Calls
import PmuFirmware.Inbound.Effect
import PmuFirmware.Queue.Rewriter
import PmuFirmware.Queue.Crash
import PmuFirmware.Config.Changes
import PmuFirmware.Config.Report
import PmuFirmware.Lib.Run
import PmuFirmware.Publisher.MainLoop
import PmuFirmware.Publisher.Gate
import PmuFirmware.Can.StringReassembly
import PmuFirmware.Can.Transmission
import PmuFirmware.Lib.Handoff
import PmuFirmware.Can.Records
import PmuFirmware.Can.Delivery
import PmuFirmware.Can.Retransmission
import PmuFirmware.Can.ChargerConfig
import PmuFirmware.Can.ConfigRequest
import PmuFirmware.Can.Acknowledgement
import PmuFirmware.Lib.Mailbox
import PmuFirmware.Inbound.Notification
import PmuFirmware.Can.Fields
import PmuFirmware.Can.Termination
import PmuFirmware.Publisher.Retry
import PmuFirmware.Lib.CArray
import PmuFirmware.Messages.ComponentStatus
import PmuFirmware.Messages.PeriodicData
import PmuFirmware.Messages.Bounds
import PmuFirmware.Inbound.Replies
import PmuFirmware.Publisher.ConnectorTable
import PmuFirmware.Publisher.Boot
import PmuFirmware.Can.StringBounds
import PmuFirmware.Can.Stuttering
import PmuFirmware.Can.RecordLayout
import PmuFirmware.Queue.Eviction
import PmuFirmware.Queue.BufferBounds
import PmuFirmware.Publisher.Uptime
import PmuFirmware.Publisher.RetryBudget
import PmuFirmware.Queue.Selectivity
import PmuFirmware.Messages.Duration
import PmuFirmware.Queue.Timestamps
import PmuFirmware.Lib.Watchdog
import PmuFirmware.Can.PeriodicFrames
import PmuFirmware.Can.Health
import PmuFirmware.Publisher.FirstReport
import PmuFirmware.Lib.Buffer
import PmuFirmware.Inbound.EventData
import PmuFirmware.Can.VersionFrames
import PmuFirmware.Can.CommaFields
import PmuFirmware.Publisher.WifiStation
import PmuFirmware.Can.SerialCopies
import PmuFirmware.Messages.ReportSteps
import PmuFirmware.Messages.FailedConstruction
import PmuFirmware.Lib.SharedFile
import PmuFirmware.Queue.Copying
import PmuFirmware.Queue.Tasks
import PmuFirmware.Queue.Saving
import PmuFirmware.Queue.Visits
import PmuFirmware.Queue.Removing
import PmuFirmware.Queue.Turns
import PmuFirmware.Queue.Meeting
import PmuFirmware.Queue.Serial
import PmuFirmware.Lib.Ledger
import PmuFirmware.Publisher.Losses
import PmuFirmware.Publisher.Accounts
import PmuFirmware.Publisher.Outage
import PmuFirmware.Publisher.Draining
import PmuFirmware.Lib.Calendar
import PmuFirmware.Publisher.Clock
import PmuFirmware.Lib.Relay
import PmuFirmware.Can.StatusReport
import PmuFirmware.Lib.Latest
import PmuFirmware.Config.Mirror
import PmuFirmware.Can.Readings
