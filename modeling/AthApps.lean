import AthApps.Plc.PibEdit
import AthApps.Plc.NvmMerge
import AthApps.Pcie.OtpCommit
import AthApps.Cal.Save
import AthApps.Cal.SaveRestore
import AthApps.Cal.Report
import AthApps.Lib.Aes
import AthApps.Lib.Sha256
import AthApps.Wps.Crypto
import AthApps.Wps.Job
import AthApps.Wps.Session
import AthApps.Lib.Trace
import AthApps.Wps.Eap
import AthApps.Wps.Calls
import AthApps.Wps.Enrollee
import AthApps.Wps.Credentials
import AthApps.Wps.Lockout
import AthApps.Wps.DevicePassword
import AthApps.Wps.Fragments
import AthApps.Wps.Settings
import AthApps.Wapi.Frame
import AthApps.Wapi.KeyNeg
import AthApps.Wapi.CertAuth
import AthApps.Wapi.Machine
import AthApps.Wapi.Change
import AthApps.Wapi.Unique
import AthApps.Wapi.Asue
import AthApps.Wapi.Sequence
import AthApps.Wapi.GroupKey
import AthApps.Wapi.Outstanding
import AthApps.Wapi.Resend
import AthApps.Wapi.Commute
import AthApps.Wapi.KeyOrigin
import AthApps.Wapi.ServerResponse
import AthApps.Lib.Text
import AthApps.Plc.Rule
import AthApps.Plc.RuleDump
import AthApps.Lib.Spill
import AthApps.Plc.RuleText
import AthApps.Plc.RuleRoundTrip
import AthApps.Spectral.Pool
import AthApps.Spectral.PoolOrder
import AthApps.Spectral.Response
import AthApps.Wapi.Defrag
import AthApps.Wapi.Supplicant
import AthApps.Wapi.Waiting
import AthApps.Wapi.AccessRequest
import AthApps.Wapi.Announcement
import AthApps.Wapi.Verified
import AthApps.Spectral.Classifier
import AthApps.Spectral.Burst
import AthApps.Lib.Window
import AthApps.Spectral.Frames
import AthApps.Spectral.Interference
import AthApps.Spectral.MaxHold
import AthApps.Http.Httpread
import AthApps.Http.Loop
import AthApps.Http.Message
import AthApps.Http.Cuts
import AthApps.Http.Delivery
import AthApps.Http.Limit
import AthApps.Lib.Ring
import AthApps.Upnp.Event
import AthApps.Upnp.Line
import AthApps.Upnp.Outbox
import AthApps.Upnp.Device
import AthApps.Upnp.Order
import AthApps.Upnp.Subscriptions
import AthApps.Upnp.Sender
import AthApps.Upnp.Machine
import AthApps.Upnp.Wakeup
import AthApps.Upnp.Callbacks
import AthApps.Upnp.Control
import AthApps.Config.Edit
import AthApps.Config.Ways
import AthApps.Config.Nested
import AthApps.Config.Rewrite
import AthApps.Config.Layout
import AthApps.Config.Lines
import AthApps.Config.Section
import AthApps.Config.Grow
import AthApps.Config.Document
import AthApps.Config.Meaning
import AthApps.Config.Reading
import AthApps.Config.Update
import AthApps.Config.Create
import AthApps.Cal.Access
import AthApps.Config.Rewriting
import AthApps.Config.Places
import AthApps.Cal.EdgePower
import AthApps.Cal.GainTable
import AthApps.Plc.Upload
import AthApps.Wps.Attributes
import AthApps.Wps.JobCycle
import AthApps.Wps.PushButton
import AthApps.Wps.Replace
import AthApps.Wps.ApConfig
import AthApps.Wps.Handshake
import AthApps.Art.Field
import AthApps.Art.Integers
import AthApps.Art.Pattern
import AthApps.Art.Select
import AthApps.Art.Subscript
import AthApps.Cal.Backoff
import AthApps.Cal.Interpolate
import AthApps.Plc.NvmEnds
import AthApps.Plc.RuleRecord
import AthApps.Lib.Blocks
import AthApps.Plc.HashChunks
import AthApps.Plc.Tones
import AthApps.Plc.Ipv6
import AthApps.Wapi.Gnonce
import AthApps.Wapi.Rejected
import AthApps.Wapi.CertSign
import AthApps.Plc.RuleLines
import AthApps.Plc.SetPib
import AthApps.Wapi.PubKey
import AthApps.Wapi.Bounds
import AthApps.Wapi.Receive
import AthApps.Spectral.Eacs
import AthApps.Upnp.Broadcast
import AthApps.Upnp.Decisions
import AthApps.Http.Accesses
