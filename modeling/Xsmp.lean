import Xsmp.Authority.Entry
import Xsmp.Authority.File
import Xsmp.Authority.Lock
import Xsmp.Client.Participant
import Xsmp.Client.SaveQueue
import Xsmp.Connection.Line
import Xsmp.Connection.Reading
import Xsmp.Control.Message
import Xsmp.Control.Remote
import Xsmp.Data.KeyMap
import Xsmp.Data.Time
import Xsmp.Host.Error
import Xsmp.Host.FileTree
import Xsmp.Host.Path
import Xsmp.Json.Magnitude
import Xsmp.Json.Printer
import Xsmp.Json.Reader
import Xsmp.Json.Record
import Xsmp.Json.Value
import Xsmp.Launch.Command
import Xsmp.Manager.Basic
import Xsmp.Manager.Service
import Xsmp.Manifest.Autostart
import Xsmp.Manifest.Basic
import Xsmp.Manifest.Exec
import Xsmp.Message.FromClient
import Xsmp.Message.FromManager
import Xsmp.Message.Save
import Xsmp.Property.Basic
import Xsmp.Property.Store
import Xsmp.Session.Basic
import Xsmp.Session.ClientId
import Xsmp.Session.Operation
import Xsmp.Session.Phase
import Xsmp.Session.Shutdown
import Xsmp.Session.Startup
import Xsmp.Session.Summary
import Xsmp.Settings.Basic
import Xsmp.Settings.CommandLine
import Xsmp.Settings.Locations
import Xsmp.Text.Blank
import Xsmp.Text.Escape
import Xsmp.Text.Extender
import Xsmp.Text.Hex
import Xsmp.Text.Numeral
import Xsmp.Text.Quoted
import Xsmp.Text.Ranges
import Xsmp.Text.Shell
import Xsmp.Text.Unseen
import Xsmp.Text.Utf8
import Xsmp.Main
import Xsmp.Proofs.Json.RoundTrip
import Xsmp.Proofs.Text.Blank
import Xsmp.Proofs.Text.Utf8
import Xsmp.Proofs.Text.Lossy
import Xsmp.Proofs.Host.FileTree
import Xsmp.Proofs.Host.Entries
import Xsmp.Proofs.Authority.Entry
import Xsmp.Proofs.Authority.Foreign
import Xsmp.Proofs.Authority.Lock
import Xsmp.Proofs.Authority.Exclusion
import Xsmp.Proofs.Message.Wire
import Xsmp.Proofs.Connection.Framing
import Xsmp.Proofs.Session.Run
import Xsmp.Proofs.Session.Startup
import Xsmp.Proofs.Session.Logout
import Xsmp.Proofs.Session.Barrier
import Xsmp.Proofs.Session.Finished
import Xsmp.Proofs.Session.Membership
import Xsmp.Proofs.Session.Deadline
import Xsmp.Proofs.Session.Answers
import Xsmp.Proofs.Session.Turns
import Xsmp.Proofs.Session.Identifiers
import Xsmp.Proofs.Session.Minting
import Xsmp.Proofs.Session.Cancelled
import Xsmp.Proofs.Manager.Event
import Xsmp.Proofs.Manager.MidSave
import Xsmp.Proofs.Manager.Streams
import Xsmp.Proofs.Manager.Stalled
import Xsmp.Proofs.Manager.Signals
import Xsmp.Proofs.Authority.History
import Xsmp.Proofs.Authority.Update
import Xsmp.Proofs.Client.SaveDiscipline
import Xsmp.Proofs.Client.Description
import Xsmp.Proofs.Manager.Refusals
import Xsmp.Proofs.Manager.Restarts
import Xsmp.Proofs.Manifest.Grammar
import Xsmp.Proofs.Text.Escape
import Xsmp.Proofs.Text.Decoded
import Xsmp.Proofs.Text.ByteOrder
import Xsmp.Proofs.Text.Shell
import Xsmp.Proofs.Manifest.Lookup
import Xsmp.Proofs.Manifest.CommandLine
import Xsmp.Proofs.Manifest.Group
import Xsmp.Proofs.Manifest.Edits
import Xsmp.Proofs.Manifest.Items
import Xsmp.Proofs.Manifest.Autostart
import Xsmp.Proofs.Connection.Pieces
import Xsmp.Proofs.Control.Exchange
import Xsmp.Proofs.Control.Attendant
import Xsmp.Proofs.Control.Answers
import Xsmp.Proofs.Control.Following
import Xsmp.Proofs.Control.Service
import Xsmp.Proofs.Control.Socket
import Xsmp.Proofs.Settings.Resolution
import Xsmp.Proofs.Settings.Agreement
