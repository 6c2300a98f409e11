import ProtoPrep.Main
import ProtoPrep.Proofs.Text.Cuts
import ProtoPrep.Proofs.Text.Literal
import ProtoPrep.Proofs.Text.Division
import ProtoPrep.Proofs.Schema.GatewayOption
import ProtoPrep.Proofs.Schema.ImportStatement
import ProtoPrep.Proofs.Schema.OptionTrigger
import ProtoPrep.Proofs.Schema.OptionValue
import ProtoPrep.Proofs.Schema.HttpOption
import ProtoPrep.Proofs.Schema.Reduction
import ProtoPrep.Proofs.Schema.CodeBraces
import ProtoPrep.Proofs.Schema.OptionExtents
import ProtoPrep.Proofs.Schema.OptionCursors
import ProtoPrep.Proofs.Schema.CommentBodies
import ProtoPrep.Proofs.Text.Insertion
import ProtoPrep.Proofs.Schema.WellKnownImport
import ProtoPrep.Proofs.Config.Loading
import ProtoPrep.Proofs.Files.FileSystem
import ProtoPrep.Proofs.Script.Orderly
import ProtoPrep.Proofs.Command.Course
import ProtoPrep.Proofs.Command.Atomicity
import ProtoPrep.Proofs.Command.Success
import ProtoPrep.Proofs.Command.Override
import ProtoPrep.Proofs.Command.Verbosity
import ProtoPrep.Proofs.Schema.ValueGrammar
import ProtoPrep.Proofs.Text.Leftmost
import ProtoPrep.Proofs.Schema.OptionBorder
import ProtoPrep.Proofs.Schema.ImportRemoval
import ProtoPrep.Proofs.Text.Completion
import ProtoPrep.Proofs.Text.Exchange
import ProtoPrep.Proofs.Schema.RuleExchange
import ProtoPrep.Proofs.Schema.TypeName
import ProtoPrep.Proofs.Text.Quotation
import ProtoPrep.Proofs.Generated.WrapperInclude
import ProtoPrep.Proofs.Generated.PragmaBlock
import ProtoPrep.Proofs.Generated.PatchOrder
import ProtoPrep.Proofs.Config.WrittenLines
import ProtoPrep.Proofs.Generated.LiteralSteps
