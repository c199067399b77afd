import AccessLog.Main
import AccessLog.Session
import AccessLog.Snapshot.Encode
import AccessLog.Proofs.Compile.Cut
import AccessLog.Proofs.Tables
import AccessLog.Proofs.Compile.Field
import AccessLog.Proofs.Compile.Acceptance
import AccessLog.Proofs.Compile.Failure
import AccessLog.Proofs.Canonical
import AccessLog.Proofs.Render.Denotation
import AccessLog.Proofs.Concatenation
import AccessLog.Proofs.Render.Calls
import AccessLog.Proofs.Render.Unwritable
import AccessLog.Proofs.Snapshot.Footprint
import AccessLog.Proofs.Snapshot.Schema
import AccessLog.Proofs.Snapshot.Readers
import AccessLog.Proofs.Snapshot.RoundTrip
import AccessLog.Proofs.Quotation
import AccessLog.Proofs.Compile.Fault
import AccessLog.Proofs.Respelling
import AccessLog.Proofs.CommandLine.Preview
import AccessLog.Proofs.Resolution
import AccessLog.Proofs.Snapshot.Body
import AccessLog.Proofs.Snapshot.Headers
import AccessLog.Proofs.Snapshot.Fallback
import AccessLog.Proofs.ProgramText
import AccessLog.Proofs.CommandLine.Listing
import AccessLog.Proofs.Session
import AccessLog.Proofs.Snapshot.StartTime
import AccessLog.Proofs.Settings
import AccessLog.Proofs.Render.Slices
