import DescriptorTables.Image
import DescriptorTables.Output
import DescriptorTables.Proofs.AccessColumns
import DescriptorTables.Proofs.ArgumentWords
import DescriptorTables.Proofs.Canonical
import DescriptorTables.Proofs.EntryWidths
import DescriptorTables.Proofs.FieldOverflow
import DescriptorTables.Proofs.LimitedText
import DescriptorTables.Proofs.ListingOptions
import DescriptorTables.Proofs.LongerRegions
import DescriptorTables.Proofs.PairedLog
import DescriptorTables.Proofs.RecordLimits
import DescriptorTables.Proofs.SlotLocality
import DescriptorTables.Proofs.SlotWrites
import DescriptorTables.Proofs.SplitFields
import DescriptorTables.Proofs.TableRoundTrip
import DescriptorTables.Proofs.Transcoding
