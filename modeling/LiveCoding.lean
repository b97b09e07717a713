import LiveCoding.Flash
import LiveCoding.Main
import LiveCoding.Proofs.Frame.Segment
import LiveCoding.Proofs.Osc.RoundTrip
import LiveCoding.Proofs.Target
import LiveCoding.Proofs.Osc.Reading
import LiveCoding.Proofs.Frame.Buffer
import LiveCoding.Proofs.Osc.Client
import LiveCoding.Proofs.Osc.Exchange
import LiveCoding.Proofs.Session.Reachable
import LiveCoding.Proofs.Session.Evaluate
import LiveCoding.Proofs.Settings.Flags
import LiveCoding.Proofs.Settings.Token
import LiveCoding.Proofs.Settings.Store
import LiveCoding.Proofs.Files.Tree
import LiveCoding.Proofs.Settings.Confined
import LiveCoding.Proofs.CommandLine.Arguments
import LiveCoding.Proofs.CommandLine.Locate
import LiveCoding.Proofs.Frame.Relay
import LiveCoding.Proofs.Document.Source
import LiveCoding.Proofs.Document.RoundTrip
import LiveCoding.Proofs.Document.Partition
import LiveCoding.Proofs.Document.Word
import LiveCoding.Proofs.Block.Context
import LiveCoding.Proofs.Block.Nesting
import LiveCoding.Proofs.Block.Characters
import LiveCoding.Proofs.Osc.Delimited
import LiveCoding.Proofs.Osc.Limit
import LiveCoding.Proofs.Frame.Quiescent
import LiveCoding.Proofs.Frame.Oversized
import LiveCoding.Proofs.Frame.Spelling
import LiveCoding.Proofs.Settings.Switch
import LiveCoding.Proofs.Settings.Layers
import LiveCoding.Proofs.Frame.Envelope
import LiveCoding.Proofs.Session.Apply
import LiveCoding.Proofs.Session.Status
import LiveCoding.Proofs.Settings.Spacing
import LiveCoding.Proofs.Watch
