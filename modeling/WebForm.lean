import WebForm.Address
import WebForm.Body.MediaHeader
import WebForm.Body.Multipart
import WebForm.Body.Parse
import WebForm.Body.Reader
import WebForm.Body.Transfer
import WebForm.Body.Urlencoded
import WebForm.Calendar.Date
import WebForm.Calendar.Iso
import WebForm.Check
import WebForm.Distribution
import WebForm.Error.Basic
import WebForm.Error.Cause
import WebForm.Error.Context
import WebForm.Error.System
import WebForm.Fault
import WebForm.Field
import WebForm.FileName
import WebForm.Form.Basic
import WebForm.Form.Display
import WebForm.Form.Enumeration
import WebForm.Form.Leaf
import WebForm.Form.Schema
import WebForm.Form.Upload
import WebForm.MediaType
import WebForm.Name.Display
import WebForm.Name.Path
import WebForm.Name.Place
import WebForm.Name.View
import WebForm.Number.Double
import WebForm.Number.Numeral
import WebForm.Number.Shortest
import WebForm.Outcome
import WebForm.Parser.Basic
import WebForm.Parser.Dict
import WebForm.Parser.Form
import WebForm.Parser.Leaf
import WebForm.Parser.List
import WebForm.Parser.Pair
import WebForm.Parser.Record
import WebForm.Parser.Session
import WebForm.Parser.Wrapped
import WebForm.Proofs.Run.Basic
import WebForm.Proofs.Run.Leaf
import WebForm.Proofs.Run.Pair
import WebForm.Query
import WebForm.Text.Blank
import WebForm.Text.Case
import WebForm.Text.Digit
import WebForm.Text.Identifier
import WebForm.Text.Normal
import WebForm.Text.Percent
import WebForm.Text.Printable
import WebForm.Text.Quoted
import WebForm.Text.Ranges
import WebForm.Text.Split
import WebForm.Text.Utf8
import WebForm.TypeExpr.Basic
import WebForm.TypeExpr.Declaration
import WebForm.TypeExpr.Resolve
import WebForm.Value.Basic
import WebForm.Value.Compare
import WebForm.Value.Display
import WebForm.Proofs.Run.List
import WebForm.Proofs.Run.Dict
import WebForm.Proofs.Run.Record
import WebForm.Proofs.Run.Form
import WebForm.Proofs.Strictness
import WebForm.Proofs.Depth.Lift
import WebForm.Proofs.Depth.Follow
import WebForm.Proofs.Depth.Absent
import WebForm.Proofs.Vetting
import WebForm.Proofs.Depth.Adequacy
import WebForm.Proofs.Termination
import WebForm.Proofs.Flatten.Branch
import WebForm.Proofs.Numerals
import WebForm.Proofs.Parts
import WebForm.Proofs.RoundTrip
import WebForm.Proofs.Names
import WebForm.Proofs.Attribution
import WebForm.Proofs.Rejection
import WebForm.Proofs.Interference
import WebForm.Proofs.Spelling.Value
import WebForm.Proofs.Spelling.Field
import WebForm.Proofs.Spelling.Leaf
import WebForm.Proofs.Spelling.Run
import WebForm.Proofs.Depth.Whole
import WebForm.Proofs.Merging
import WebForm.Proofs.Shares
import WebForm.Proofs.Ignoring
import WebForm.Proofs.Routes
import WebForm.Proofs.Order.Value
import WebForm.Proofs.Order.Meeting
import WebForm.Proofs.Order.Run
import WebForm.Proofs.Utf8
import WebForm.Proofs.Sources.Field
import WebForm.Proofs.Sources.Run
import WebForm.Proofs.Context.Contents
import WebForm.Proofs.Paths
import WebForm.Proofs.Context.Transparent
import WebForm.Proofs.Context.Lookup
import WebForm.Proofs.Breaking
import WebForm.Proofs.Settling
import WebForm.Proofs.Keys
import WebForm.Proofs.Splitting
import WebForm.Proofs.Scopes.Lockstep
import WebForm.Proofs.Scopes.Isolation
import WebForm.Proofs.Body.Taking
import WebForm.Proofs.Body.Reading
import WebForm.Proofs.Body.Broken
import WebForm.Proofs.Body.Encoded
import WebForm.Proofs.Batch.List
import WebForm.Proofs.Batch.Dict
import WebForm.Proofs.Batch.Naming
import WebForm.Proofs.Encoding
import WebForm.Proofs.Motion
import WebForm.Proofs.Deciding
import WebForm.Proofs.Reports
import WebForm.Proofs.Widths
import WebForm.Proofs.Choosing
import WebForm.Proofs.Uploading
import WebForm.Proofs.Calendar.Digits
import WebForm.Proofs.Calendar.Leaves
import WebForm.Proofs.Limits
import WebForm.Proofs.Joining
