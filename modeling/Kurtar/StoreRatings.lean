import Mathlib.Data.Rat.Defs
import Mathlib.Algebra.BigOperators.Group.List.Basic
import Mathlib.Algebra.Order.Field.Rat
import Kurtar.LockedTransactions
import Kurtar.StatusTransitions

/-!
# Ratings and the aggregate of their store

Creating, moderating and deleting a rating run as transactions under the row
locks of the database. Each one that may change which ratings of a store are
approved recomputes the store's count and average while it holds the store's
row, so every committed state shows the aggregate of its own ratings.
-/

namespace Kurtar.StoreRatings

open GuardedRuns KeyedTable LockedTransactions StatusTransitions

inductive ModerationStatus where
  | pending
  | approved
  | rejected
deriving DecidableEq, Repr

structure Reservation where
  id : ℕ
  userId : ℕ
  storeId : ℕ
  status : ReservationStatus
deriving DecidableEq

structure Rating where
  id : ℕ
  reservationId : ℕ
  userId : ℕ
  storeId : ℕ
  overallStars : ℕ
  foodQuality : Option ℕ
  service : Option ℕ
  comment : Option String
  moderationStatus : ModerationStatus
deriving DecidableEq, Repr

structure Store where
  id : ℕ
  avgStars : ℚ
  ratingCount : ℕ
deriving DecidableEq, Repr

structure AuditLog where
  actorId : ℕ
  action : String
  entityId : ℕ
  /-- The statuses in `diffJson`; a deletion has no second one. -/
  fromStatus : ModerationStatus
  toStatus : Option ModerationStatus
deriving DecidableEq, Repr

structure Db where
  reservations : Table Reservation.id
  ratings : Table Rating.id
  /-- The rating ids given out so far; `cuid()` gives none of them out again. -/
  ratingIds : List ℕ
  stores : Table Store.id
  auditLogs : List AuditLog

/-- What the transactions lock. -/
inductive Row where
  | store (id : ℕ)
  | rating (id : ℕ)
  /-- The entry of `reservationId` in its unique index. -/
  | ratedReservation (reservationId : ℕ)
deriving DecidableEq, Repr

structure CreateRatingDto where
  overallStars : ℕ
  foodQuality : Option ℕ
  service : Option ℕ
  comment : Option String
deriving DecidableEq, Repr

/-- The characters that JavaScript's `trim` removes. -/
def isTrimmed (c : Char) : Bool :=
  let n := c.toNat
  decide (9 ≤ n ∧ n ≤ 13 ∨ n = 32 ∨ n = 160 ∨ n = 5760 ∨ 8192 ≤ n ∧ n ≤ 8202 ∨ n = 8232 ∨
    n = 8233 ∨ n = 8239 ∨ n = 8287 ∨ n = 12288 ∨ n = 65279)

def trim (s : String) : String :=
  String.ofList (((s.toList.dropWhile isTrimmed).reverse.dropWhile isTrimmed).reverse)

/-- The trimmed comment, unless nothing is left of it. -/
def trimmedComment (dto : CreateRatingDto) : Option String :=
  (dto.comment.map trim).filter fun s => s ≠ ""

structure Aggregate where
  /-- The average, none of no rows. -/
  avg : Option ℚ
  count : ℕ
deriving DecidableEq, Repr

/-- The approved ratings of a store. -/
def approvedOf (d : Db) (storeId : ℕ) : List Rating :=
  d.ratings.rows.filter fun r => r.storeId = storeId ∧ r.moderationStatus = .approved

/-- SQL's average and count of some ratings. -/
def aggregateOf (ratings : List Rating) : Aggregate where
  avg :=
    if ratings.length = 0 then none
    else some ((ratings.map fun r => (r.overallStars : ℚ)).sum/ratings.length)
  count := ratings.length

def aggregate (d : Db) (storeId : ℕ) : Aggregate := aggregateOf (approvedOf d storeId)

/-- A change of one rating. -/
inductive Change where
  | create (rating : Rating)
  | update (id : ℕ) (status : ModerationStatus)
  | delete (id : ℕ)

def Change.id : Change → ℕ
  | .create rating => rating.id
  | .update id _ => id
  | .delete id => id

def Change.apply : Change → Db → Db
  | .create rating, d =>
    { d with ratings := d.ratings.insertNew rating, ratingIds := rating.id :: d.ratingIds }
  | .update id status, d =>
    { d with
      ratings := d.ratings.updateMany (fun r => r.id = id)
        (fun r => { r with moderationStatus := status }) fun _ => rfl }
  | .delete id, d => { d with ratings := d.ratings.deleteMany fun r => r.id = id }

def setAggregate (storeId : ℕ) (agg : Aggregate) (d : Db) : Db :=
  { d with
    stores := d.stores.updateMany (fun s => s.id = storeId)
      (fun s => { s with avgStars := agg.avg.getD 0, ratingCount := agg.count }) fun _ => rfl }

def addAuditLog (log : AuditLog) (d : Db) : Db := { d with auditLogs := d.auditLogs ++ [log] }

/-- Store the aggregate read before. -/
def storeAggregate (storeId : ℕ) (agg : Aggregate) (next : Program Db Row) : Program Db Row :=
  .update (.store storeId) .noKeyUpdate (fun d => (d.stores.find? storeId).isSome)
    (setAggregate storeId agg) fun updated => if updated then next else .rollback

/-- Read the aggregate under the store's lock. -/
def readAggregate (storeId : ℕ) (next : Program Db Row) : Program Db Row :=
  .select fun d => storeAggregate storeId (aggregate d storeId) next

def recomputeStoreAggregate (storeId : ℕ) (next : Program Db Row) : Program Db Row :=
  .acquire (.store storeId) .forUpdate (readAggregate storeId next)

/-- Write the row; the foreign-key check locks the store. -/
def insertRating (rating : Rating) (next : Program Db Row) : Program Db Row :=
  .insert (Change.apply (.create rating)) (.acquire (.store rating.storeId) .keyShare next)

/-- A taken id or reservation is a unique violation. -/
def checkRating (rating : Rating) (next : Program Db Row) : Program Db Row :=
  .select fun d =>
    if rating.id ∈ d.ratingIds ∨
        ∃ r ∈ d.ratings.rows, r.reservationId = rating.reservationId then .rollback
    else insertRating rating next

/-- Insert the rating, with its entries in both unique indexes. -/
def createRating (rating : Rating) (next : Program Db Row) : Program Db Row :=
  .acquire (.rating rating.id) .forUpdate <|
    .acquire (.ratedReservation rating.reservationId) .forUpdate (checkRating rating next)

def create (userId reservationId : ℕ) (dto : CreateRatingDto) (ratingId : ℕ) : Program Db Row :=
  .select fun d =>
    match d.reservations.find? reservationId with
    | none => .rollback
    | some reservation =>
      if reservation.userId ≠ userId then .rollback
      else if reservation.status ≠ .redeemed then .rollback
      else
        let rating : Rating :=
          ⟨ratingId, reservationId, userId, reservation.storeId, dto.overallStars, dto.foodQuality,
            dto.service, trimmedComment dto,
            if (trimmedComment dto).isSome then .pending else .approved⟩
        if rating.moderationStatus = .approved then
          -- The store is locked before the insert, whose foreign-key check locks it too.
          .acquire (.store reservation.storeId) .forUpdate <|
            createRating rating (recomputeStoreAggregate reservation.storeId .commit)
        else createRating rating .commit

def moderate (adminId ratingId : ℕ) (toStatus : ModerationStatus) (action : String) :
    Program Db Row :=
  .select fun d =>
    match d.ratings.find? ratingId with
    | none => .rollback
    | some rating =>
      if rating.moderationStatus = toStatus then .commit
      else
        .update (.rating ratingId) .noKeyUpdate (fun d => (d.ratings.find? ratingId).isSome)
          (Change.apply (.update ratingId toStatus)) fun updated =>
            if updated then
              recomputeStoreAggregate rating.storeId <|
                .insert (addAuditLog ⟨adminId, action, ratingId, rating.moderationStatus, some toStatus⟩)
                  .commit
            else .rollback

def adminApprove (adminId ratingId : ℕ) : Program Db Row :=
  moderate adminId ratingId .approved "rating.approve"

def rejectRating (adminId ratingId : ℕ) : Program Db Row :=
  moderate adminId ratingId .rejected "rating.reject"

def adminDelete (adminId ratingId : ℕ) : Program Db Row :=
  .select fun d =>
    match d.ratings.find? ratingId with
    | none => .rollback
    | some rating =>
      .update (.rating ratingId) .forUpdate (fun d => (d.ratings.find? ratingId).isSome)
        (Change.apply (.delete ratingId)) fun deleted =>
          if deleted then
            recomputeStoreAggregate rating.storeId <|
              .insert (addAuditLog ⟨adminId, "rating.delete", ratingId, rating.moderationStatus, none⟩)
                .commit
          else .rollback

/-- The calls of the service. -/
inductive Request where
  | create (userId reservationId : ℕ) (dto : CreateRatingDto) (ratingId : ℕ)
  | adminApprove (adminId ratingId : ℕ)
  | rejectRating (adminId ratingId : ℕ)
  | adminDelete (adminId ratingId : ℕ)

def program : Request → Program Db Row
  | .create userId reservationId dto ratingId => create userId reservationId dto ratingId
  | .adminApprove adminId ratingId => adminApprove adminId ratingId
  | .rejectRating adminId ratingId => rejectRating adminId ratingId
  | .adminDelete adminId ratingId => adminDelete adminId ratingId

end Kurtar.StoreRatings
