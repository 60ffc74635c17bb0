import Defender.CredentialProxy.AccessTokens
import Defender.CredentialProxy.ReplyExact
import Defender.CredentialProxy.RequestToken
import Defender.Execution.Connectors
import Defender.Execution.QuotedWords
import Defender.Filesystem.NestingBound
import Defender.Identity.Announced
import Defender.Investigation.LessonRecall
import Defender.Investigation.LiveParams
import Defender.Investigation.QueryCapture
import Defender.Investigation.RepairFrame
import Defender.Investigation.RunClock
import Defender.Investigation.SpendCeiling
import Defender.Investigation.SqueezeLadder
import Defender.Invlang.AppendOnlyExact
import Defender.Invlang.AuthorizationGates
import Defender.Invlang.BlankRefinement
import Defender.Invlang.CellSplit
import Defender.Invlang.ClaimText
import Defender.Invlang.LinePartition
import Defender.Invlang.SettledAppend
import Defender.Invlang.SettledPredictions
import Defender.Learning.Consumption
import Defender.Learning.CutRows
import Defender.Learning.DraftReset
import Defender.Learning.DraftSynthesis
import Defender.Learning.GradedOnce
import Defender.Learning.LeadJoin
import Defender.Learning.OraclePrompt
import Defender.Learning.OracleTrace
import Defender.Learning.PitfallsGate
import Defender.Learning.PointerPaths
import Defender.Learning.QueryTable
import Defender.Learning.RequestAttempts
import Defender.Learning.RequestPass
import Defender.Learning.RevertRuns
import Defender.Learning.Staging
import Defender.Learning.UnkeyableRetired
import Defender.Lifecycle.SweptRuns
import Defender.Records.RenderedHistory
import Defender.Tenancy.CommitsAlike
import Defender.Tenancy.HostTeardown
import Defender.Worker.RowLife
