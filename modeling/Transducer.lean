import Transducer.Main
import Transducer.Weight.Laws
import Transducer.Proofs.SearchInvariant
import Transducer.Proofs.DepartureOrder
import Transducer.Proofs.Renumbering
import Transducer.Proofs.Sorting
import Transducer.Proofs.Recording
import Transducer.Proofs.EventOrder
import Transducer.Proofs.DepthFirst
import Transducer.Proofs.Declining
import Transducer.Proofs.LostNumbers
import Transducer.Proofs.TopologicalRanks
import Transducer.Proofs.SearchForest
import Transducer.Proofs.Drafting
import Transducer.Proofs.TextFields
import Transducer.Proofs.SymbolTables
import Transducer.Proofs.WeightText
import Transducer.Proofs.Printing
import Transducer.Proofs.ListingRoundTrip
import Transducer.Proofs.Obtaining
import Transducer.Proofs.OrderComposition
import Transducer.Proofs.Cargo
import Transducer.Proofs.Calls
import Transducer.Proofs.Compaction
import Transducer.Proofs.Refusals
import Transducer.Proofs.ForwardArcs
import Transducer.Proofs.Ledger
import Transducer.Proofs.LedgerAgreement
import Transducer.Proofs.LedgerRefinement
import Transducer.Proofs.Deletions
import Transducer.Proofs.Parsing
import Transducer.Proofs.Spelling
import Transducer.Proofs.WeightSpelling
import Transducer.Proofs.GraphSpelling
import Transducer.Proofs.ContainerReading
import Transducer.Proofs.RoundTrip
import Transducer.Proofs.CheckedReading
import Transducer.Proofs.ReadingErrors
import Transducer.Proofs.Canonicity
import Transducer.Proofs.PrefixFreedom
import Transducer.Proofs.SymbolBindings
import Transducer.Proofs.ToolRuns
import Transducer.Proofs.SortingTool
import Transducer.Proofs.AllOrNothing
import Transducer.Proofs.Rounding
import Transducer.Proofs.WeightLaws
import Transducer.Proofs.OrderLaws
import Transducer.Proofs.CompositeText
import Transducer.Proofs.StringLaws
import Transducer.Proofs.StringDuality
import Transducer.Proofs.StringOrder
import Transducer.Proofs.Quotients
import Transducer.Proofs.Splitting
import Transducer.Proofs.WeightBlocks
import Transducer.Proofs.NonMembers
import Transducer.Proofs.ElementaryBounds
import Transducer.Proofs.LogSums
import Transducer.Proofs.Closure
import Transducer.Proofs.LogEmbedding
import Transducer.Proofs.LikeNumbers
import Transducer.Proofs.SignedPairs
import Transducer.Proofs.Subtraction
import Transducer.Proofs.NumberLattices
import Transducer.Proofs.UnorderedSums
import Transducer.Proofs.DecimalText
import Transducer.Proofs.NumberText
import Transducer.Proofs.NestedText
import Transducer.Proofs.LegibleWeights
import Transducer.Proofs.Recompiling
import Transducer.Proofs.ListingGrammar
import Transducer.Proofs.SymbolTexts
import Transducer.Proofs.LabelTexts
import Transducer.Proofs.OptionValues
import Transducer.Proofs.LawTests
