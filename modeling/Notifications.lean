import Notifications.Main
import Notifications.Proofs.Activity
import Notifications.Proofs.Separation
import Notifications.Proofs.LikeMessages
import Notifications.Proofs.Deliveries
import Notifications.Proofs.Independence
import Notifications.Proofs.MessageLimits
import Notifications.Proofs.Interleaving
import Notifications.Proofs.Schedules
import Notifications.Proofs.Json.Numbers
import Notifications.Proofs.Json.Strings
import Notifications.Proofs.Json.Spacing
import Notifications.Proofs.Json.Trees
import Notifications.Proofs.Utf8
import Notifications.Proofs.Json.Values
import Notifications.Proofs.Json.Records
import Notifications.Proofs.Json.Passing
import Notifications.Proofs.Json.Forms
import Notifications.Proofs.NoticeReading
import Notifications.Proofs.Lines
import Notifications.Proofs.NoticeLines
import Notifications.Proofs.TornLines
import Notifications.Proofs.RecordReading
import Notifications.Proofs.Presentations
import Notifications.Proofs.Trimming
import Notifications.Proofs.LineReading
import Notifications.Proofs.PaddedLines
import Notifications.Proofs.SkippedLines
import Notifications.Proofs.Serving
import Notifications.Proofs.QueueDepth
import Notifications.Proofs.ReliableRuns
import Notifications.Proofs.Sessions
import Notifications.Proofs.PrintedLines
import Notifications.Proofs.Counters
import Notifications.Proofs.LostReader
import Notifications.Proofs.Announcements
import Notifications.Proofs.Toml.Strings
import Notifications.Proofs.Toml.Lines
import Notifications.Proofs.Dictionaries
import Notifications.Proofs.SettingsText
import Notifications.Proofs.FileStore
import Notifications.Proofs.LoadedSettings
import Notifications.Proofs.SavedSettings
import Notifications.Proofs.RecordGroups
import Notifications.Proofs.WriterCalls
import Notifications.Proofs.Runs
import Notifications.Proofs.ByteOrder
import Notifications.Proofs.Quotation
import Notifications.Proofs.Truncation
import Notifications.Proofs.Overrides
import Notifications.Proofs.StoredSettings
import Notifications.Proofs.OmittedSettings
