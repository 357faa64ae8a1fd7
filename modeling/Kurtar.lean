import Kurtar.PayoutExecution
import Kurtar.LiveOffers
import Kurtar.RefundOnce
import Kurtar.GuessBudget
import Kurtar.OtpSingleUse
import Kurtar.OutboxOwnership
import Kurtar.SessionRevocation
import Kurtar.HonestClient
import Kurtar.InvoiceDocuments
import Kurtar.MembershipDebt
import Kurtar.RecomputeFixpoint
import Kurtar.SettlementBalance
import Kurtar.RefusedRecompute
import Kurtar.PriceHistory
import Kurtar.MembershipPeriods
import Kurtar.RatingAggregates
import Kurtar.SweepClaims
import Kurtar.ReservationDeadlocks
import Kurtar.RecomputeDeadlocks
import Kurtar.DeviceLogout
import Kurtar.ClawbackAttribution
import Kurtar.MembershipVat
import Kurtar.PickupDays
import Kurtar.ManualHolds
import Kurtar.ApprovedAmounts
import Kurtar.MembershipFlags
import Kurtar.RefundMarkers
import Kurtar.ReportDecisions
import Kurtar.RescuedBags
import Kurtar.DiscoveryPages
import Kurtar.SelectedSteps
import Kurtar.BusinessDays
import Kurtar.LikePatterns
import Kurtar.CharacterReplacement
import Kurtar.SearchText
import Kurtar.IbanChecks
import Kurtar.WorkQueue
import Kurtar.PushBatches
import Kurtar.Bisection
import Kurtar.Geohash
import Kurtar.KeyedGroups
import Kurtar.StreetList
import Kurtar.CommaSeparated
import Kurtar.CsvExport
import Kurtar.KeysetPaging
import Kurtar.OfferFanout
import Kurtar.RedeemQueue
import Kurtar.VerificationTrails
import Kurtar.ReconciledSwipes
import Kurtar.SeparateActors
import Kurtar.CachedAnswers
import Kurtar.PublicImpact
import Kurtar.DispatchedPushes
import Kurtar.ClaimedReminders
import Kurtar.RequestTargets
import Kurtar.CompleteExports
