import FlowTelemetry.Export
import FlowTelemetry.Wire.Layout
import FlowTelemetry.Proofs.Capture.Diagnosis
import FlowTelemetry.Proofs.Capture.Headers
import FlowTelemetry.Proofs.Capture.Links
import FlowTelemetry.Proofs.Collector.Delivery
import FlowTelemetry.Proofs.Collector.Flattening
import FlowTelemetry.Proofs.Collector.HeaderOnly
import FlowTelemetry.Proofs.Collector.RecordCounts
import FlowTelemetry.Proofs.Collector.Stopping
import FlowTelemetry.Proofs.Health.Changes
import FlowTelemetry.Proofs.Health.Losses
import FlowTelemetry.Proofs.Health.Reconciliation
import FlowTelemetry.Proofs.Health.Summaries
import FlowTelemetry.Proofs.Health.Tracking
import FlowTelemetry.Proofs.Health.Words
import FlowTelemetry.Proofs.Health.Wraparound
import FlowTelemetry.Proofs.Octets.Digits
import FlowTelemetry.Proofs.Wire.Atomicity
import FlowTelemetry.Proofs.Wire.BrokenNames
import FlowTelemetry.Proofs.Wire.Extension
import FlowTelemetry.Proofs.Wire.HeaderOnly
import FlowTelemetry.Proofs.Wire.Leftover
import FlowTelemetry.Proofs.Wire.Limit
import FlowTelemetry.Proofs.Wire.Location
import FlowTelemetry.Proofs.Wire.NameCount
import FlowTelemetry.Proofs.Wire.NameSize
import FlowTelemetry.Proofs.Wire.Recoding
import FlowTelemetry.Proofs.Wire.RecordText
import FlowTelemetry.Proofs.Wire.Rewriting
import FlowTelemetry.Proofs.Wire.RoundTrip
import FlowTelemetry.Proofs.Wire.Writable
