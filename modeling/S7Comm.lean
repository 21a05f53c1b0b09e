import S7Comm.Bytes
import S7Comm.Number
import S7Comm.Calendar.Date
import S7Comm.Calendar.Time
import S7Comm.Text.Blank
import S7Comm.Text.Hex
import S7Comm.Text.Latin1
import S7Comm.Area
import S7Comm.ElementType
import S7Comm.Pdu.Kind
import S7Comm.ReturnCode
import S7Comm.TransportSize
import S7Comm.Error
import S7Comm.NckCodes
import S7Comm.Address.Basic
import S7Comm.Address.Parser
import S7Comm.Address.Printer
import S7Comm.Item.Data
import S7Comm.Item.Nck
import S7Comm.Item.Request
import S7Comm.Pdu.Control
import S7Comm.Pdu.Parameters
import S7Comm.Pdu.Read
import S7Comm.Pdu.Setup
import S7Comm.Pdu.Write
import S7Comm.Iso.Cotp
import S7Comm.Options
import S7Comm.Payload
import S7Comm.Call
import S7Comm.Session.Basic
import S7Comm.Session.Channel
import S7Comm.Batch.Plan
import S7Comm.Batch.Transfer
import S7Comm.Client.Basic
import S7Comm.Client.Lists
import S7Comm.Client.Range
import S7Comm.Client.Read
import S7Comm.Client.Control
import S7Comm.Client.Nck
import S7Comm.Client.Write
import S7Comm.Client.Command
import S7Comm.Proofs.Composition
import S7Comm.Proofs.NumbersAndTexts
import S7Comm.Proofs.Operations
import S7Comm.Proofs.Lifecycle
import S7Comm.Proofs.Answer
import S7Comm.Proofs.Request
import S7Comm.Proofs.Plan
import S7Comm.Proofs.Fragments
import S7Comm.Proofs.Reading
import S7Comm.Proofs.Writing
import S7Comm.Proofs.Conversation
import S7Comm.Proofs.ForeignAnswers
import S7Comm.Proofs.Refusal
import S7Comm.Proofs.FirstFaults
import S7Comm.Proofs.FailFast
import S7Comm.Proofs.Received
import S7Comm.Proofs.WrittenData
import S7Comm.Proofs.WrittenLengths
import S7Comm.Proofs.AnswerFormat
import S7Comm.Proofs.Reassembly
import S7Comm.Proofs.Atomicity
import S7Comm.Proofs.Sending
import S7Comm.Proofs.DataBlocks
import S7Comm.Proofs.RequestMeaning
import S7Comm.Proofs.Handshake
import S7Comm.Proofs.Reconnection
import S7Comm.Proofs.Verdict
import S7Comm.Proofs.Counting
import S7Comm.Proofs.References
import S7Comm.Proofs.AddressGrammar
import S7Comm.Proofs.SinglePlace
import S7Comm.Proofs.FewestRuns
import S7Comm.Proofs.Tilings
import S7Comm.Proofs.Ranges
import S7Comm.Proofs.FewestRequests
import S7Comm.Proofs.PartialSteps
import S7Comm.Proofs.StepwiseMessages
import S7Comm.Proofs.DefinedSteps
import S7Comm.Proofs.AnswerErrors
import S7Comm.Proofs.CanonicalAddresses
import S7Comm.Proofs.Days
import S7Comm.Proofs.Moments
import S7Comm.Proofs.StoredDates
import S7Comm.Proofs.StoredTimes
import S7Comm.Proofs.Sufficiency
import S7Comm.Proofs.Misfits
import S7Comm.Proofs.Memory
import S7Comm.Proofs.MemoryChannel
import S7Comm.Proofs.MemoryPeer
import S7Comm.Proofs.Strings
