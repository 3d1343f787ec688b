import Precis.Command.Gateway
import Precis.Command.Report
import Precis.Command.Summarize
import Precis.Decimal.Shortest
import Precis.Failure
import Precis.Gemini.Backend
import Precis.Gemini.Summarizer
import Precis.Gemini.Wire
import Precis.Http.Exchange
import Precis.Http.Message
import Precis.Http.Status
import Precis.Json.Access
import Precis.Json.Decoder
import Precis.Json.Document
import Precis.Json.Number
import Precis.Json.Reader
import Precis.Json.Writer
import Precis.Main
import Precis.Model.Catalog
import Precis.Model.Id
import Precis.Proofs.Command.EndToEnd
import Precis.Proofs.Command.Printing
import Precis.Proofs.Command.Probing
import Precis.Proofs.Command.StartUp
import Precis.Proofs.Gemini.Classification
import Precis.Proofs.Gemini.Endpoint
import Precis.Proofs.Gemini.Reply
import Precis.Proofs.Gemini.Request
import Precis.Proofs.Gemini.Traffic
import Precis.Proofs.Http.Exchange
import Precis.Proofs.Json.Field
import Precis.Proofs.Json.Members
import Precis.Proofs.Json.Reading
import Precis.Proofs.Json.Record
import Precis.Proofs.Json.Spelling
import Precis.Proofs.Json.Writing
import Precis.Proofs.Model.Validation
import Precis.Proofs.Result
import Precis.Proofs.Service.Absolute
import Precis.Proofs.Service.Base
import Precis.Proofs.Service.Construction
import Precis.Proofs.Service.Independence
import Precis.Proofs.Service.Interleaving
import Precis.Proofs.Service.LifeCycle
import Precis.Proofs.Service.Normalisation
import Precis.Proofs.Service.Payload
import Precis.Proofs.Service.Polling
import Precis.Proofs.Service.Pool
import Precis.Proofs.Service.Schedule
import Precis.Proofs.Service.Success
import Precis.Proofs.Service.Verdict
import Precis.Proofs.Settings.Loading
import Precis.Proofs.Settings.Neglect
import Precis.Proofs.Settings.Variables
import Precis.Proofs.Summary.Accounting
import Precis.Proofs.Summary.Answers
import Precis.Proofs.Summary.Attempt
import Precis.Proofs.Summary.Budget
import Precis.Proofs.Summary.Cancellation
import Precis.Proofs.Summary.Clearance
import Precis.Proofs.Summary.Concealment
import Precis.Proofs.Summary.Course
import Precis.Proofs.Summary.Coverage
import Precis.Proofs.Summary.FailedRequest
import Precis.Proofs.Summary.Fallback
import Precis.Proofs.Summary.Handle
import Precis.Proofs.Summary.Interruption
import Precis.Proofs.Summary.Opening
import Precis.Proofs.Summary.Pace
import Precis.Proofs.Summary.Settlement
import Precis.Proofs.Summary.Truncation
import Precis.Proofs.Summary.Turns
import Precis.Proofs.Summary.Walk
import Precis.Proofs.Text.Blank
import Precis.Proofs.Text.Hexadecimal
import Precis.Proofs.Text.Integer
import Precis.Proofs.Text.Utf8
import Precis.Proofs.Url.Authority
import Precis.Proofs.Url.Canonical
import Precis.Proofs.Url.Domain
import Precis.Proofs.Url.Encoding
import Precis.Proofs.Url.Host
import Precis.Proofs.Url.Numbers
import Precis.Proofs.Url.Pieces
import Precis.Proofs.Url.RoundTrip
import Precis.Proofs.Url.Written
import Precis.Proofs.Usage.Chronicle
import Precis.Proofs.Usage.Retention
import Precis.Proofs.Usage.Sharing
import Precis.Proofs.Usage.Total
import Precis.Service.Address
import Precis.Service.Connection
import Precis.Service.Database
import Precis.Service.Error
import Precis.Service.Health
import Precis.Service.Operation
import Precis.Service.Pool
import Precis.Service.Readiness
import Precis.Service.Task
import Precis.Settings.Command
import Precis.Settings.Environment
import Precis.Settings.Error
import Precis.Settings.Gateway
import Precis.Settings.Summarizer
import Precis.Summary.Error
import Precis.Summary.Reply
import Precis.Summary.Request
import Precis.Summary.Session
import Precis.Summary.Summarizer
import Precis.Summary.Wire
import Precis.Text.Blank
import Precis.Text.Charset
import Precis.Text.Hexadecimal
import Precis.Text.Integer
import Precis.Text.Printable
import Precis.Text.Quoted
import Precis.Text.Utf8
import Precis.Time
import Precis.Url.Address
import Precis.Url.Basic
import Precis.Url.Domain
import Precis.Url.Error
import Precis.Url.Host
import Precis.Url.Parse
import Precis.Url.Percent
import Precis.Url.Punycode
import Precis.Usage.Ledger
