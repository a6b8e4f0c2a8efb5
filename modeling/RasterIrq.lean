import RasterIrq.Line
import RasterIrq.EdgeSpacing
import RasterIrq.Monitor
import RasterIrq.Counter
import RasterIrq.LineIrq
import RasterIrq.Cartridge.Image
import RasterIrq.Chip
import RasterIrq.Record.Encoding
import RasterIrq.Board
import RasterIrq.Timeline
import RasterIrq.Raster
import RasterIrq.Bus
import RasterIrq.Trace
import RasterIrq.Main
import RasterIrq.Proofs.Record.RoundTrip
import RasterIrq.Proofs.Board.Resume
import RasterIrq.Proofs.Board.Loading
import RasterIrq.Proofs.Trace.Schedule
import RasterIrq.Proofs.Json.Cutting
import RasterIrq.Proofs.Record.Truncation
import RasterIrq.Proofs.Record.Tampering
import RasterIrq.Proofs.Record.Payloads
import RasterIrq.Proofs.Board.Reached
import RasterIrq.Proofs.Board.Mmc3Coherent
import RasterIrq.Proofs.Bus.Operations
import RasterIrq.Proofs.Bus.EdgeCount
import RasterIrq.Proofs.Bus.Restart
import RasterIrq.Proofs.Board.Mapper222Coherent
import RasterIrq.Proofs.Board.Banks
import RasterIrq.Proofs.Board.ProgramRam
import RasterIrq.Proofs.Board.Contents
import RasterIrq.Proofs.Board.Revisions
import RasterIrq.Proofs.Cartridge.Parts
import RasterIrq.Proofs.Chip.Indexing
import RasterIrq.Proofs.Board.Bare
import RasterIrq.Proofs.Board.History
import RasterIrq.Proofs.Board.Mmc3Banking
import RasterIrq.Proofs.Board.Mapper222Banking
import RasterIrq.Proofs.Board.Sides
import RasterIrq.Proofs.Bus.Rises
import RasterIrq.Proofs.EdgeSpacing.Selection
import RasterIrq.Proofs.Counter.Period
import RasterIrq.Proofs.Trace.Verification
import RasterIrq.Proofs.Bus.HardReset
import RasterIrq.Proofs.Timeline.Stable
import RasterIrq.Proofs.Cartridge.Acceptance
import RasterIrq.Proofs.Board.UpwardSchedule
import RasterIrq.Proofs.Board.Countdown
import RasterIrq.Proofs.Counter.Enabling
import RasterIrq.Proofs.LineIrq.Transitions
import RasterIrq.Proofs.Board.SoftReset
import RasterIrq.Proofs.Board.CharacterRam
import RasterIrq.Proofs.Raster.Order
import RasterIrq.Proofs.Bus.Reporting
import RasterIrq.Proofs.Text.Base64
import RasterIrq.Proofs.Trace.Dump
import RasterIrq.Proofs.Trace.Items
import RasterIrq.Proofs.Trace.CommandLine
