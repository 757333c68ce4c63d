import VgiDisasm.Library.Loop
import VgiDisasm.Library.Capped
import VgiDisasm.Library.Extents
import VgiDisasm.Library.Decoder
import VgiDisasm.Library.Chains
import VgiDisasm.Library.Dedup
import VgiDisasm.Library.Resync
import VgiDisasm.Library.Json
import VgiDisasm.Library.Panics
import VgiDisasm.Library.Columnar
import VgiDisasm.Groups
import VgiDisasm.Limits
import VgiDisasm.Sweep
import VgiDisasm.Entrypoint
import VgiDisasm.SweepReference
import VgiDisasm.SweepTiling
import VgiDisasm.SweepBounds
import VgiDisasm.RowCap
import VgiDisasm.SectionRows
import VgiDisasm.SectionRanges
import VgiDisasm.Provenance
import VgiDisasm.AddressOrder
import VgiDisasm.Relocation
import VgiDisasm.NamedSweeps
import VgiDisasm.Resolution
import VgiDisasm.Overflow
import VgiDisasm.FatMach
import VgiDisasm.StringsExact
import VgiDisasm.Detection
import VgiDisasm.Evidence
import VgiDisasm.PeImports
import VgiDisasm.Worker
import VgiDisasm.BuildsAgree
import VgiDisasm.Widths
import VgiDisasm.EntryMapped
import VgiDisasm.DecodeCalls
import VgiDisasm.BatchBounds
import VgiDisasm.Windows
import VgiDisasm.Coverage
import VgiDisasm.StringsCompose
import VgiDisasm.MetaParse
import VgiDisasm.Scalars
import VgiDisasm.PanicFree
import VgiDisasm.TableBatches
import VgiDisasm.Noninterference
import VgiDisasm.RawTriage
import VgiDisasm.Vocabulary
