import FlexWidth.Buffer
import FlexWidth.Lowering
import FlexWidth.Main
import FlexWidth.Proofs.Grammar.EarliestError
import FlexWidth.Proofs.Grammar.StmtWriting
import FlexWidth.Proofs.Grammar.Termination
import FlexWidth.Proofs.Renaming.Checking
import FlexWidth.Proofs.Scope.Fidelity
import FlexWidth.Proofs.Structural.Refinement
import FlexWidth.Proofs.Token.Joining
import FlexWidth.Proofs.Token.Scan
import FlexWidth.Proofs.Tree.Dump
import FlexWidth.Proofs.Types.Requests
import FlexWidth.Proofs.Types.Widths
import FlexWidth.Proofs.Typing.Buffers
import FlexWidth.Proofs.Typing.CallSites
import FlexWidth.Proofs.Typing.Calls
import FlexWidth.Proofs.Typing.Conversion
import FlexWidth.Proofs.Typing.ConversionLog
import FlexWidth.Proofs.Typing.Declarative
import FlexWidth.Proofs.Typing.Demand
import FlexWidth.Proofs.Typing.FieldAccess
import FlexWidth.Proofs.Typing.FirstBinding
import FlexWidth.Proofs.Typing.Frame
import FlexWidth.Proofs.Typing.Idempotence
import FlexWidth.Proofs.Typing.Join
import FlexWidth.Proofs.Typing.Literals
import FlexWidth.Proofs.Typing.LoopVariable
import FlexWidth.Proofs.Typing.Promotion
import FlexWidth.Proofs.Typing.Reachable
import FlexWidth.Proofs.Typing.SoundStates
import FlexWidth.Proofs.Typing.Termination
import FlexWidth.Proofs.Typing.TypeIdentity
import FlexWidth.Session
import FlexWidth.Text.Cursor
