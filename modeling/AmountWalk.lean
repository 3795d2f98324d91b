import AmountWalk.Choice.Any
import AmountWalk.Main
import AmountWalk.Proofs.Amount.Agreement
import AmountWalk.Proofs.Amount.Coding
import AmountWalk.Proofs.Amount.Termination
import AmountWalk.Proofs.Cli.Printing
import AmountWalk.Proofs.Dot.Reading
import AmountWalk.Proofs.Dot.Streaming
import AmountWalk.Proofs.Json.Layouts
import AmountWalk.Proofs.Json.Truncation
import AmountWalk.Proofs.Render.Identifier
import AmountWalk.Proofs.Render.Stages
import AmountWalk.Proofs.Sample.Account
import AmountWalk.Proofs.Sample.Batches
import AmountWalk.Proofs.Table.Extension
import AmountWalk.Proofs.Table.Order
import AmountWalk.Proofs.Table.Reading
import AmountWalk.Proofs.Walk.Contract
import AmountWalk.Shell.Rehearsal
