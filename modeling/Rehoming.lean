import Rehoming.Disk
import Rehoming.Export
import Rehoming.Main
import Rehoming.Proofs.Placement.Addresses
import Rehoming.Proofs.Placement.Plans
import Rehoming.Proofs.Placement.Sequential
import Rehoming.Proofs.Placement.Mirrored
import Rehoming.Proofs.Placement.DistinctSlots
import Rehoming.Proofs.Placement.Contents
import Rehoming.Proofs.Placement.AcrossNodes
import Rehoming.Proofs.Json.Numerals
import Rehoming.Proofs.Text.Utf8
import Rehoming.Proofs.Json.Scanning
import Rehoming.Proofs.Json.Parsing
import Rehoming.Proofs.Json.Reading
import Rehoming.Proofs.Text.Ipv4
import Rehoming.Proofs.Json.Records
import Rehoming.Proofs.Documents.Brigades
import Rehoming.Proofs.Base64
import Rehoming.Proofs.Zstd.Stored
import Rehoming.Proofs.Restore.Bundles
import Rehoming.Proofs.Restore.Resealing
import Rehoming.Proofs.Restore.Runs
import Rehoming.Proofs.Crypto.ChaCha20
import Rehoming.Proofs.Placement.Accounting
import Rehoming.Proofs.Placement.Interleaved
import Rehoming.Proofs.Restore.Refusals
import Rehoming.Proofs.Restore.Capacity
import Rehoming.Proofs.Restore.Objections
import Rehoming.Proofs.Placement.Pinned
import Rehoming.Proofs.Documents.Identity
import Rehoming.Proofs.Restore.Binding
import Rehoming.Proofs.Restore.Randomness
import Rehoming.Proofs.Zstd.Limits
import Rehoming.Proofs.Documents.Mappings
import Rehoming.Proofs.Placement.Settled
import Rehoming.Proofs.Restore.Mapped
import Rehoming.Proofs.Json.Integers
import Rehoming.Proofs.Documents.Survival
import Rehoming.Proofs.Json.Members
import Rehoming.Proofs.Documents.Passage
import Rehoming.Proofs.Json.Rearranged
import Rehoming.Proofs.Restore.Relabelling
import Rehoming.Proofs.Restore.Skipping
import Rehoming.Proofs.Restore.Misfits
import Rehoming.Proofs.Restore.Completion
import Rehoming.Proofs.Bytes
import Rehoming.Proofs.Keys.Ssh
import Rehoming.Proofs.Keys.Realms
import Rehoming.Proofs.Json.Pretty
import Rehoming.Proofs.Documents.Plans
import Rehoming.Proofs.Files.Disk
import Rehoming.Proofs.Files.Hosts
import Rehoming.Proofs.Files.Loading
import Rehoming.Proofs.Files.Output
import Rehoming.Proofs.Placement.LeftOut
import Rehoming.Proofs.Restore.Walks
import Rehoming.Proofs.Json.Rounding
import Rehoming.Proofs.Restore.Ceilings
import Rehoming.Proofs.Text.Order
import Rehoming.Proofs.Placement.Screening
import Rehoming.Proofs.Base64.Canonical
import Rehoming.Proofs.Base64.Fields
import Rehoming.Proofs.Times.Texts
import Rehoming.Proofs.Documents.HandedOn
