import ConfigPanel.Calendar
import ConfigPanel.History
import ConfigPanel.History.Payload
import ConfigPanel.History.Session
import ConfigPanel.History.Snapshot
import ConfigPanel.Json.Reader
import ConfigPanel.Json.Writer
import ConfigPanel.Log
import ConfigPanel.Main
import ConfigPanel.Markup
import ConfigPanel.Number.Double
import ConfigPanel.Number.Numeral
import ConfigPanel.Number.Scale
import ConfigPanel.Number.Shortest
import ConfigPanel.Panel
import ConfigPanel.Panel.Page
import ConfigPanel.Panel.Request
import ConfigPanel.Panel.Start
import ConfigPanel.Proofs.ClickedPage
import ConfigPanel.Proofs.DateLabels
import ConfigPanel.Proofs.Dates
import ConfigPanel.Proofs.Display
import ConfigPanel.Proofs.Encoded
import ConfigPanel.Proofs.Entries
import ConfigPanel.Proofs.Fields
import ConfigPanel.Proofs.Judgement
import ConfigPanel.Proofs.KeptRows
import ConfigPanel.Proofs.LabelsApart
import ConfigPanel.Proofs.Listings
import ConfigPanel.Proofs.Marks
import ConfigPanel.Proofs.Mounting
import ConfigPanel.Proofs.Naming
import ConfigPanel.Proofs.Numerals
import ConfigPanel.Proofs.Pages
import ConfigPanel.Proofs.Record
import ConfigPanel.Proofs.Refreshes
import ConfigPanel.Proofs.Reload
import ConfigPanel.Proofs.Replies
import ConfigPanel.Proofs.Routes
import ConfigPanel.Proofs.RowUses
import ConfigPanel.Proofs.Rows
import ConfigPanel.Proofs.Runs
import ConfigPanel.Proofs.Selection
import ConfigPanel.Proofs.Snapshots
import ConfigPanel.Proofs.Sound
import ConfigPanel.Proofs.Starts
import ConfigPanel.Proofs.Stored
import ConfigPanel.Proofs.Timestamp
import ConfigPanel.Proofs.Trace
import ConfigPanel.Proofs.Turns
import ConfigPanel.Proofs.VersionTexts
import ConfigPanel.Record
import ConfigPanel.Record.Assignment
import ConfigPanel.Record.Validation
import ConfigPanel.Row
import ConfigPanel.Row.Mounted
import ConfigPanel.Settings
import ConfigPanel.Settings.Folder
import ConfigPanel.Settings.Path
import ConfigPanel.Text
import ConfigPanel.Text.Blank
import ConfigPanel.Text.DecimalDigit
import ConfigPanel.Text.Encoding
import ConfigPanel.Text.Percent
import ConfigPanel.Text.Pieces
import ConfigPanel.Text.Printable
import ConfigPanel.Text.Quoted
import ConfigPanel.Text.UpperCase
import ConfigPanel.Timestamp
import ConfigPanel.Value
import ConfigPanel.Value.Shown
