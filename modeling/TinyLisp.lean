import TinyLisp.Binary64.Numeral
import TinyLisp.Environment.Naming
import TinyLisp.Main
import TinyLisp.Proofs.CallBudget
import TinyLisp.Proofs.Termination
import TinyLisp.Proofs.SessionValues
import TinyLisp.Proofs.OnePass
import TinyLisp.Proofs.PrintedTexts
import TinyLisp.Proofs.Splitting
import TinyLisp.Proofs.Origins
import TinyLisp.Proofs.Showing
import TinyLisp.Proofs.LanguageFaults
import TinyLisp.Proofs.ReplRuns
import TinyLisp.Proofs.DepthScan
import TinyLisp.Proofs.CallFrames
import TinyLisp.Proofs.Mirror
import TinyLisp.Proofs.Repetition
import TinyLisp.Proofs.Interference
import TinyLisp.Proofs.Scoping
import TinyLisp.Proofs.Sequencing
import TinyLisp.Proofs.EmptyScopes
import TinyLisp.Proofs.ParameterNames
import TinyLisp.Proofs.EnvironmentTree
import TinyLisp.Proofs.LogLevels
import TinyLisp.Proofs.Transcripts
import TinyLisp.Proofs.WriteHistory
import TinyLisp.Proofs.RoomToStart
import TinyLisp.Proofs.LayoutFreedom
import TinyLisp.Proofs.OneForm
import TinyLisp.Proofs.DepthSettings
import TinyLisp.Proofs.ChangingLimits
import TinyLisp.Proofs.PlainData
import TinyLisp.Proofs.StreamCursor
import TinyLisp.Proofs.TruncatedDivision
