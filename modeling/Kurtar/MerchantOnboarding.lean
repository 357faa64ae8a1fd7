import Kurtar.AlertSweeps
import Kurtar.CommissionInvoices
import Kurtar.IbanChecks
import Kurtar.StatusTransitions
import Kurtar.UniqueInserts

/-!
# Merchant onboarding

Signup, submission for review, and the decisions of an admin. Every change of
`verificationStatus` is a transaction of its own: it reads the merchant,
updates the row under a guard computed from the transition map, records a
verification event with the status it had read, and publishes what the
notification and membership handlers are waiting for.
-/

namespace Kurtar.MerchantOnboarding

open KeyedTable LockedTransactions StatusTransitions UniqueInserts
open AlertSweeps (Instant)

abbrev Id := String

structure Merchant where
  id : Id
  legalName : String
  tradeName : String
  taxId : String
  iban : String
  verificationStatus : MerchantVerificationStatus
  verifiedAt : Option Instant
  nextReverifyAt : Option Instant
  sttAttestationAcceptedAt : Option Instant
  intermediationAcceptedAt : Option Instant
  intermediationContractVersion : Option String
deriving DecidableEq

structure MerchantUser where
  merchantId : Id
  email : String
  name : String
  passwordHash : String
  role : String
deriving DecidableEq

structure MerchantVerificationEvent where
  id : Id
  merchantId : Id
  fromStatus : MerchantVerificationStatus
  toStatus : MerchantVerificationStatus
  actorAdminId : Option Id
  note : Option String
  docsJson : Option String
deriving DecidableEq

structure OutboxEvent where
  type : String
  merchantId : Id
  note : Option String
  idempotencyKey : String
deriving DecidableEq

structure AuditLog where
  actorId : Id
  action : String
  entityId : Id
  verificationStatus : MerchantVerificationStatus
deriving DecidableEq

structure Db where
  merchants : Table Merchant.id
  merchantUsers : Table MerchantUser.email
  verificationEvents : Table MerchantVerificationEvent.id
  outbox : Table OutboxEvent.idempotencyKey
  auditLogs : List AuditLog

/-- What can be locked: a merchant, and the entries of the unique indexes. -/
inductive Row where
  | merchant (id : Id)
  | email (email : String)
  | verificationEvent (id : Id)
  | idempotencyKey (key : String)
deriving DecidableEq

def Db.stores (d : Db) : Row → Bool
  | .merchant id => (d.merchants.find? id).isSome
  | .email email => (d.merchantUsers.find? email).isSome
  | .verificationEvent id => (d.verificationEvents.find? id).isSome
  | .idempotencyKey key => (d.outbox.find? key).isSome

/-- `MERCHANT_STATUS_EVENT_TYPE` -/
def merchantStatusEventType : MerchantVerificationStatus → Option String
  | .approved => some "merchant.approved.v1"
  | .rejected => some "merchant.rejected.v1"
  | .suspended => some "merchant.suspended.v1"
  | _ => none

def MERCHANT_APPROVED_MEMBERSHIP_V1 : String := "merchant.approved.membership.v1"

/-- What is published with a verification event. -/
def announcements (e : MerchantVerificationEvent) : List OutboxEvent :=
  (match merchantStatusEventType e.toStatus with
    | some eventType => [⟨eventType, e.merchantId, e.note, "merchant-status:" ++ e.id⟩]
    | none => []) ++
  if e.toStatus = .approved then
    [⟨MERCHANT_APPROVED_MEMBERSHIP_V1, e.merchantId, none,
      "merchant-approved-membership:" ++ e.id⟩]
  else []

section Writes

def addMerchant (m : Merchant) (d : Db) : Db := { d with merchants := d.merchants.insertNew m }

def addMerchantUser (u : MerchantUser) (d : Db) : Db :=
  { d with merchantUsers := d.merchantUsers.insertNew u }

def addVerificationEvent (e : MerchantVerificationEvent) (d : Db) : Db :=
  { d with verificationEvents := d.verificationEvents.insertNew e }

def addOutboxEvent (e : OutboxEvent) (d : Db) : Db := { d with outbox := d.outbox.insertNew e }

def setMerchant (id : Id) (set : Merchant → Merchant) (hset : ∀ m, (set m).id = m.id) (d : Db) :
    Db := { d with merchants := d.merchants.updateMany (fun m => m.id = id) set hset }

def newMerchant (m : Merchant) : Creation Db Row := ⟨.merchant m.id, addMerchant m, none⟩

def newMerchantUser (u : MerchantUser) : Creation Db Row :=
  ⟨.email u.email, addMerchantUser u, some (.merchant u.merchantId)⟩

def newVerificationEvent (e : MerchantVerificationEvent) : Creation Db Row :=
  ⟨.verificationEvent e.id, addVerificationEvent e, some (.merchant e.merchantId)⟩

/-- `publish` of the outbox. A taken key is a unique violation of the whole transaction. -/
def publish (e : OutboxEvent) : Creation Db Row :=
  ⟨.idempotencyKey e.idempotencyKey, addOutboxEvent e, none⟩

end Writes

structure MerchantSignupDto where
  legalName : String
  tradeName : String
  taxId : String
  iban : String
  email : String
  ownerName : String

structure MerchantSubmitDto where
  docsJson : Option String
  sttAttestationAccepted : Bool
  intermediationAccepted : Bool
  intermediationContractVersion : String

def signedUp (dto : MerchantSignupDto) (merchantId : Id) : Merchant :=
  ⟨merchantId, dto.legalName, dto.tradeName, dto.taxId, dto.iban, .draft, none, none, none, none,
    none⟩

def signup (t : IbanChecks.CaseTable) (dto : MerchantSignupDto) (passwordHash : String)
    (merchantId : Id) : Program Db Row :=
  if ¬ CommissionInvoices.isValidTaxId dto.taxId then .rollback
  else if ¬ IbanChecks.isValidIban t (some dto.iban.toList) then .rollback
  else createAll Db.stores [newMerchant (signedUp dto merchantId),
    newMerchantUser ⟨merchantId, dto.email, dto.ownerName, passwordHash, "OWNER"⟩]

/-- The guarded `WHERE` of a status change. -/
def mayBecome (merchantId : Id) (target : MerchantVerificationStatus) (d : Db) : Bool :=
  (d.merchants.find? merchantId).any fun m =>
    decide (m.verificationStatus ∈ allowedMerchantVerificationFrom target)

/-- `merchants.submit`. -/
def submit (merchantId : Id) (dto : MerchantSubmitDto) (now : Instant) (eventId : Id) :
    Program Db Row :=
  if !dto.sttAttestationAccepted || !dto.intermediationAccepted then .rollback
  else
    .select fun d =>
      match d.merchants.find? merchantId with
      | none => .rollback
      | some current =>
        .update (.merchant merchantId) .noKeyUpdate (mayBecome merchantId .submitted)
          (setMerchant merchantId (fun m =>
            { m with
              verificationStatus := .submitted
              sttAttestationAcceptedAt := some now
              intermediationAcceptedAt := some now
              intermediationContractVersion := some dto.intermediationContractVersion })
            fun _ => rfl)
          fun updated =>
            if updated then
              createAll Db.stores [newVerificationEvent
                ⟨eventId, merchantId, current.verificationStatus, .submitted, none, none,
                  dto.docsJson⟩]
            else .rollback

/-- `extraData` of a transition. -/
inductive ExtraData where
  | nothing
  | verification (verifiedAt nextReverifyAt : Instant)

def ExtraData.set : ExtraData → Merchant → Merchant
  | .nothing, m => m
  | .verification verifiedAt nextReverifyAt, m =>
    { m with verifiedAt := some verifiedAt, nextReverifyAt := some nextReverifyAt }

theorem ExtraData.set_id (extraData : ExtraData) (m : Merchant) : (extraData.set m).id = m.id := by
  cases extraData <;> rfl

def transition (merchantId : Id) (target : MerchantVerificationStatus) (adminId : Id)
    (note : Option String) (extraData : ExtraData) (eventId : Id) : Program Db Row :=
  .select fun d =>
    match d.merchants.find? merchantId with
    | none => .rollback
    | some current =>
      .update (.merchant merchantId) .noKeyUpdate (mayBecome merchantId target)
        (setMerchant merchantId (fun m => { extraData.set m with verificationStatus := target })
          extraData.set_id)
        fun updated =>
          if updated then
            let verificationEvent : MerchantVerificationEvent :=
              ⟨eventId, merchantId, current.verificationStatus, target, some adminId, note, none⟩
            createAll Db.stores <|
              newVerificationEvent verificationEvent :: (announcements verificationEvent).map publish
          else .rollback

def adminApprove (adminId merchantId : Id) (note : Option String)
    (verifiedAt nextReverifyAt : Instant) (eventId : Id) : Program Db Row :=
  transition merchantId .approved adminId note (.verification verifiedAt nextReverifyAt) eventId

def adminReject (adminId merchantId : Id) (note : Option String) (eventId : Id) :
    Program Db Row := transition merchantId .rejected adminId note .nothing eventId

/-- The transaction of `adminSuspend`; the offers are cancelled after it. -/
def adminSuspend (adminId merchantId : Id) (note : Option String) (eventId : Id) :
    Program Db Row := transition merchantId .suspended adminId note .nothing eventId

/-- Reading the documents of a merchant leaves an audit row. -/
def adminGetDetail (adminId merchantId : Id) : Program Db Row :=
  .select fun d =>
    match d.merchants.find? merchantId with
    | none => .rollback
    | some merchant =>
      .insert (fun d => { d with auditLogs := d.auditLogs ++
        [⟨adminId, "merchant.kyc.viewed", merchantId, merchant.verificationStatus⟩] }) .commit

/-- The verification events of a merchant, the first one first. -/
def trail (d : Db) (merchantId : Id) : List MerchantVerificationEvent :=
  d.verificationEvents.rows.filter fun e => e.merchantId = merchantId

/-- The documents shown to an admin: the last ones submitted. -/
def latestDocsJson (d : Db) (merchantId : Id) : Option String :=
  ((trail d merchantId).reverse.find? fun e => e.docsJson.isSome).bind (·.docsJson)

/-- The calls of the service. -/
inductive Request where
  | signup (dto : MerchantSignupDto) (passwordHash : String) (merchantId : Id)
  | submit (merchantId : Id) (dto : MerchantSubmitDto) (now : Instant) (eventId : Id)
  | adminApprove (adminId merchantId : Id) (note : Option String)
    (verifiedAt nextReverifyAt : Instant) (eventId : Id)
  | adminReject (adminId merchantId : Id) (note : Option String) (eventId : Id)
  | adminSuspend (adminId merchantId : Id) (note : Option String) (eventId : Id)
  | adminGetDetail (adminId merchantId : Id)

def program (t : IbanChecks.CaseTable) : Request → Program Db Row
  | .signup dto passwordHash merchantId => signup t dto passwordHash merchantId
  | .submit merchantId dto now eventId => submit merchantId dto now eventId
  | .adminApprove adminId merchantId note verifiedAt nextReverifyAt eventId =>
    adminApprove adminId merchantId note verifiedAt nextReverifyAt eventId
  | .adminReject adminId merchantId note eventId => adminReject adminId merchantId note eventId
  | .adminSuspend adminId merchantId note eventId => adminSuspend adminId merchantId note eventId
  | .adminGetDetail adminId merchantId => adminGetDetail adminId merchantId

end Kurtar.MerchantOnboarding
