import GraphLowering.CommandLine
import GraphLowering.Main
import GraphLowering.Proofs.SourceGraph
import GraphLowering.Proofs.SearchOrder
import GraphLowering.Proofs.Simulation
import GraphLowering.Proofs.RuleReads
import GraphLowering.Proofs.RuleSimulation
import GraphLowering.Proofs.Prepared
import GraphLowering.Proofs.Filling
import GraphLowering.Proofs.Inputs
import GraphLowering.Proofs.Run
import GraphLowering.Proofs.Failure
import GraphLowering.Proofs.Signature
import GraphLowering.Proofs.DataFlow
import GraphLowering.Proofs.Arena
import GraphLowering.Proofs.Independence
import GraphLowering.Proofs.StaticReads
import GraphLowering.Proofs.InputCounts
import GraphLowering.Proofs.Representation
import GraphLowering.Proofs.Acceptance
import GraphLowering.Proofs.Renaming
import GraphLowering.Proofs.References
import GraphLowering.Proofs.Loading
import GraphLowering.Proofs.SearchTurns
import GraphLowering.Proofs.Outcome
import GraphLowering.Proofs.RuleOutcome
import GraphLowering.Proofs.OutputSlots
import GraphLowering.Proofs.Ranges
import GraphLowering.Proofs.Postorder
import GraphLowering.Proofs.Stretching
import GraphLowering.Proofs.Layouts
import GraphLowering.Proofs.WindowRuns
import GraphLowering.Proofs.WindowSizes
import GraphLowering.Proofs.FormatAgreement
import GraphLowering.Proofs.SamePadding
import GraphLowering.Proofs.MeanDivisor
import GraphLowering.Proofs.WindowCoverage
import GraphLowering.Proofs.ReshapeTargets
import GraphLowering.Proofs.WholeNumbers
import GraphLowering.Proofs.CommonShapes
import GraphLowering.Proofs.AxisNumbers
import GraphLowering.Proofs.Transposition
import GraphLowering.Proofs.EqualPieces
import GraphLowering.Proofs.ReducedAxes
import GraphLowering.Proofs.PairedOperands
import GraphLowering.Proofs.ChannelBias
import GraphLowering.Proofs.FlaggedArguments
import GraphLowering.Proofs.CountedPositions
import GraphLowering.Proofs.Numerals
import GraphLowering.Proofs.ReferenceGrammar
import GraphLowering.Proofs.TensorLiterals
import GraphLowering.Proofs.OptionValues
import GraphLowering.Proofs.OptionOrder
