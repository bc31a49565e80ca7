import SpanMachine.Answer
import SpanMachine.Bytes.Basic
import SpanMachine.Bytes.Decimal
import SpanMachine.Bytes.Source
import SpanMachine.Bytes.Utf8
import SpanMachine.Command.Diagnostic
import SpanMachine.Command.Directory
import SpanMachine.Command.FileSystem
import SpanMachine.Command.Host
import SpanMachine.Command.Invocation
import SpanMachine.Command.Session
import SpanMachine.Command.Settings
import SpanMachine.Command.Simulation
import SpanMachine.Console
import SpanMachine.Execution.Dump
import SpanMachine.Execution.Effect
import SpanMachine.Execution.Machine
import SpanMachine.Execution.Run
import SpanMachine.Listing.Draft
import SpanMachine.Listing.Fault
import SpanMachine.Listing.Line
import SpanMachine.Listing.Printer
import SpanMachine.Main
import SpanMachine.Number.Arithmetic
import SpanMachine.Number.Fraction
import SpanMachine.Number.Numeral
import SpanMachine.Number.Range
import SpanMachine.Program.Basic
import SpanMachine.Program.Opcode
import SpanMachine.Proofs.Bytes.Decimal
import SpanMachine.Proofs.Bytes.Utf8
import SpanMachine.Proofs.Console
import SpanMachine.Proofs.Execution.Echo
import SpanMachine.Proofs.Execution.Effect
import SpanMachine.Proofs.Execution.Ending
import SpanMachine.Proofs.Execution.Faults
import SpanMachine.Proofs.Execution.Lockstep
import SpanMachine.Proofs.Execution.NumberInput
import SpanMachine.Proofs.Execution.Steps
import SpanMachine.Proofs.Listing.Grammar
import SpanMachine.Proofs.Listing.Meaning
import SpanMachine.Proofs.Listing.Printing
import SpanMachine.Proofs.Listing.Reading
import SpanMachine.Proofs.Listing.RoundTrip
import SpanMachine.Proofs.Listing.Words
import SpanMachine.Proofs.Number.Exactness
import SpanMachine.Proofs.Number.Overflow
import SpanMachine.Proofs.Number.Storable
import SpanMachine.Proofs.Number.Text
import SpanMachine.Proofs.Number.Wide
import SpanMachine.Storage.Queue
import SpanMachine.Storage.Stacks
import SpanMachine.Proofs.Execution.WellFormed
import SpanMachine.Proofs.Command.FileSystem
import SpanMachine.Proofs.Command.Simulation
import SpanMachine.Proofs.Command.StepLimit
import SpanMachine.Proofs.Bytes.Source
import SpanMachine.Proofs.Execution.Causality
import SpanMachine.Proofs.Listing.Targets
import SpanMachine.Proofs.Execution.Trace
import SpanMachine.Proofs.Command.Conclusions
import SpanMachine.Proofs.Command.Observation
import SpanMachine.Proofs.Execution.Chain
import SpanMachine.Proofs.Execution.View
import SpanMachine.Proofs.Number.Spelling
import SpanMachine.Proofs.Listing.Columns
import SpanMachine.Proofs.Listing.Errors
import SpanMachine.Proofs.Number.Order
import SpanMachine.Proofs.Listing.Denotation
import SpanMachine.Proofs.Listing.Layout
import SpanMachine.Proofs.Listing.Composition
import SpanMachine.Proofs.Listing.FixedPoint
import SpanMachine.Proofs.Number.Inverses
import SpanMachine.Proofs.Storage.Histories
import SpanMachine.Proofs.Console.Words
import SpanMachine.Proofs.Bytes.Delivery
import SpanMachine.Proofs.Execution.Forward
import SpanMachine.Proofs.Execution.Dump
import SpanMachine.Proofs.Command.Reports
import SpanMachine.Proofs.Command.Arguments
import SpanMachine.Proofs.Number.Divisors
