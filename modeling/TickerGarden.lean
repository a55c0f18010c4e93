import TickerGarden.Lib.Checked
import TickerGarden.Lib.Transition
import TickerGarden.Curve.Solvency
import TickerGarden.Curve.Completion
import TickerGarden.Graduation.Admission
import TickerGarden.Staking.RageQuit
import TickerGarden.Fees.Conservation
import TickerGarden.Locker.Isolation
import TickerGarden.Holders.Accounting
import TickerGarden.Backend.BurnReads
import TickerGarden.Backend.CurveDecoding
import TickerGarden.Backend.PrincipalReplay
import TickerGarden.Backend.LedgerReplay
import TickerGarden.Backend.SnapshotClaims
import TickerGarden.Backend.TreePaging
import TickerGarden.Backend.JobFencing
import TickerGarden.Backend.FeeRoles
import TickerGarden.Backend.TransactionTrades
import TickerGarden.Backend.MarketRuns
import TickerGarden.Backend.PublicationRuns
import TickerGarden.Backend.HolderAdvance
import TickerGarden.Backend.LedgerRuns
import TickerGarden.Backend.LaneExclusion
import TickerGarden.Launch.CreatorTerms
import TickerGarden.Registry.MarketKeys
import TickerGarden.Staking.ClaimsShown
import TickerGarden.Staking.ManagerCalls
import TickerGarden.Registry.Lifecycles
import TickerGarden.Fees.Treasury
import TickerGarden.Curve.ReferenceModel
import TickerGarden.Fees.Attribution
import TickerGarden.Backend.TreasuryAllocation
import TickerGarden.Fees.FundingBatch
import TickerGarden.Staking.ActivationWheels
import TickerGarden.Lib.Sweep
import TickerGarden.Backend.AnchorCoverage
import TickerGarden.Backend.HolderCounts
import TickerGarden.Backend.StatsDisplay
import TickerGarden.Backend.ReorgRecovery
import TickerGarden.Backend.ScanReuse
import TickerGarden.Backend.PublishedPages
import TickerGarden.Graduation.LaunchPrice
import TickerGarden.Staking.IndexIncrease
import TickerGarden.Backend.RelayDelivery
import TickerGarden.Web.PagerRuns
import TickerGarden.Backend.ProjectionReplay
import TickerGarden.Backend.SweepRuns
import TickerGarden.Backend.FlowWindows
import TickerGarden.Backend.MaintenanceSafety
import TickerGarden.Lib.Restart
