import ZcashVoting.Voting.AuthorityHistory
import ZcashVoting.Voting.ConfirmationBallot
import ZcashVoting.RoundPlanning.Completion
import ZcashVoting.NoteBundling.StableBundles
import ZcashVoting.SharePolicy.InitialPlacement
import ZcashVoting.Voting.EventConfirmation
import ZcashVoting.Generation.Derivation
import ZcashVoting.ChainSubmission.RowHistory
import ZcashVoting.Voting.CastAuthorization
import ZcashVoting.ChainSubmission.IdentityKey
import ZcashVoting.CommitmentTree.SyncBounds
import ZcashVoting.CommitmentTree.Restart
import ZcashVoting.SharePolicy.SubmissionTimes
import ZcashVoting.ChainSubmission.RowColumns
import ZcashVoting.ShareDelivery.StatusPolls
import ZcashVoting.ShareDelivery.Retry
import ZcashVoting.RoundPlanning.Tally
import ZcashVoting.ChainSubmission.PageCount
