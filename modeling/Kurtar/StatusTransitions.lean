import Kurtar.GuardedRuns

/-!
# Status machines

The status enumerations of settlement batches, reservations, payments,
refunds and offers, with the transition maps that drive every guarded
update. The statuses from which a target may be entered are computed from
the map and never listed a second time.
-/

namespace Kurtar.StatusTransitions

section TransitionMaps

variable {σ : Type*} [DecidableEq σ] (transitions : σ → List σ) (all : List σ)

/-- Is `target` listed among the successors of `source`? -/
def isTransitionAllowed (source target : σ) : Bool := decide (target ∈ transitions source)

/-- The statuses from which `target` may be entered, in declaration order. -/
def allowedFrom (target : σ) : List σ :=
  all.filter fun source => isTransitionAllowed transitions source target

variable {transitions all}

end TransitionMaps

/-- Life cycle of a settlement batch. -/
inductive SettlementStatus where
  | pending | calculated | approved | held | sent | settled | failed
  deriving DecidableEq

/-- The stored spelling of a settlement status. -/
def SettlementStatus.text : SettlementStatus → String
  | .pending => "PENDING"
  | .calculated => "CALCULATED"
  | .approved => "APPROVED"
  | .held => "HELD"
  | .sent => "SENT"
  | .settled => "SETTLED"
  | .failed => "FAILED"

def settlementTransitions : SettlementStatus → List SettlementStatus
  | .pending => [.calculated]
  | .calculated => [.approved, .held]
  | .approved => [.sent, .held]
  | .held => [.calculated]
  | .sent => [.settled, .failed]
  | .settled => []
  | .failed => []

/-- Every settlement status, in the order of the transition map. -/
def settlementStatuses : List SettlementStatus :=
  [.pending, .calculated, .approved, .held, .sent, .settled, .failed]

def allowedSettlementFrom : SettlementStatus → List SettlementStatus :=
  allowedFrom settlementTransitions settlementStatuses

/-- The statuses whose amounts a recompute may still change. -/
def recomputableSettlementStatuses : List SettlementStatus := [.calculated, .held]

theorem allowedSettlementFrom_approved : allowedSettlementFrom .approved = [.calculated] := rfl
theorem allowedSettlementFrom_held : allowedSettlementFrom .held = [.calculated, .approved] := rfl
theorem allowedSettlementFrom_sent : allowedSettlementFrom .sent = [.approved] := rfl
theorem allowedSettlementFrom_settled : allowedSettlementFrom .settled = [.sent] := rfl

/-- Life cycle of a reservation. -/
inductive ReservationStatus where
  | pendingPayment | confirmed | redeemed | cancelledByUser | cancelledByMerchant | noShow | expired
  deriving DecidableEq

def reservationTransitions : ReservationStatus → List ReservationStatus
  | .pendingPayment => [.confirmed, .expired, .cancelledByUser]
  | .confirmed => [.redeemed, .cancelledByUser, .cancelledByMerchant, .noShow]
  | .redeemed => []
  | .cancelledByUser => []
  | .cancelledByMerchant => []
  | .noShow => []
  | .expired => []

/-- Every reservation status, in the order of the transition map. -/
def reservationStatuses : List ReservationStatus :=
  [.pendingPayment, .confirmed, .redeemed, .cancelledByUser, .cancelledByMerchant, .noShow,
    .expired]

def allowedReservationFrom : ReservationStatus → List ReservationStatus :=
  allowedFrom reservationTransitions reservationStatuses

theorem allowedReservationFrom_confirmed :
    allowedReservationFrom .confirmed = [.pendingPayment] := rfl
theorem allowedReservationFrom_expired :
    allowedReservationFrom .expired = [.pendingPayment] := rfl
theorem allowedReservationFrom_cancelledByUser :
    allowedReservationFrom .cancelledByUser = [.pendingPayment, .confirmed] := rfl
theorem allowedReservationFrom_cancelledByMerchant :
    allowedReservationFrom .cancelledByMerchant = [.confirmed] := rfl
theorem allowedReservationFrom_redeemed :
    allowedReservationFrom .redeemed = [.confirmed] := rfl
theorem allowedReservationFrom_noShow :
    allowedReservationFrom .noShow = [.confirmed] := rfl

/-- Life cycle of a payment. -/
inductive PaymentStatus where
  | intent | processing | paid | failed | refundPending | refunded | partiallyRefunded
  deriving DecidableEq

/-- Life cycle of a refund. -/
inductive RefundStatus where
  | pending | sent | failed | done
  deriving DecidableEq

/-- Life cycle of an offer. -/
inductive OfferStatus where
  | draft | scheduled | published | soldOut | closed | cancelled
  deriving DecidableEq

def offerTransitions : OfferStatus → List OfferStatus
  | .draft => [.scheduled, .published, .cancelled]
  | .scheduled => [.published, .cancelled]
  | .published => [.closed, .cancelled]
  | .soldOut => [.closed, .cancelled]
  | .closed => []
  | .cancelled => []

/-- Every offer status, in the order of the transition map. -/
def offerStatuses : List OfferStatus :=
  [.draft, .scheduled, .published, .soldOut, .closed, .cancelled]

def allowedOfferFrom : OfferStatus → List OfferStatus :=
  allowedFrom offerTransitions offerStatuses

/-- The stored spelling of an offer status. -/
def OfferStatus.text : OfferStatus → String
  | .draft => "DRAFT"
  | .scheduled => "SCHEDULED"
  | .published => "PUBLISHED"
  | .soldOut => "SOLD_OUT"
  | .closed => "CLOSED"
  | .cancelled => "CANCELLED"

theorem allowedOfferFrom_published : allowedOfferFrom .published = [.draft, .scheduled] := rfl
theorem allowedOfferFrom_scheduled : allowedOfferFrom .scheduled = [.draft] := rfl
theorem allowedOfferFrom_closed : allowedOfferFrom .closed = [.published, .soldOut] := rfl

/-- Verification of a merchant. -/
inductive MerchantVerificationStatus where
  | draft | submitted | underReview | approved | rejected | suspended
  deriving DecidableEq

def merchantVerificationTransitions :
    MerchantVerificationStatus → List MerchantVerificationStatus
  | .draft => [.submitted]
  | .submitted => [.underReview, .approved, .rejected]
  | .underReview => [.approved, .rejected]
  | .approved => [.suspended]
  | .rejected => []
  | .suspended => []

/-- Every verification status, in the order of the transition map. -/
def merchantVerificationStatuses : List MerchantVerificationStatus :=
  [.draft, .submitted, .underReview, .approved, .rejected, .suspended]

def allowedMerchantVerificationFrom :
    MerchantVerificationStatus → List MerchantVerificationStatus :=
  allowedFrom merchantVerificationTransitions merchantVerificationStatuses

end Kurtar.StatusTransitions
