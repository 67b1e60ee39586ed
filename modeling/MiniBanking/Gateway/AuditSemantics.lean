import MiniBanking.Js.Text
import Mathlib.Tactic.Common

/-!
# The meaning of an audit event

What the gateway derives from the texts of an audit event: category, severity, outcome, actor and
a description.

## Main definitions

* `AuditSource`, `AuditCategory`, `AuditSeverity`, `AuditOutcome`: what events are sorted by
* `categoryByAction`, `isDenied`, `severityOf`, `actorOf`, `describe`: the parts of the meaning
* `enrichAudit`: the meaning of an event
-/

namespace Gateway

open Js

inductive AuditSource where
  | ca
  | kdc
  | bank
  deriving DecidableEq

def AuditSource.text : AuditSource → String
  | ca => "ca"
  | kdc => "kdc"
  | bank => "bank"

inductive AuditCategory where
  | keyIssuance
  | certLifecycle
  | authentication
  | resourceAccess
  | adminAction
  deriving DecidableEq

def AuditCategory.text : AuditCategory → String
  | keyIssuance => "key_issuance"
  | certLifecycle => "cert_lifecycle"
  | authentication => "authentication"
  | resourceAccess => "resource_access"
  | adminAction => "admin_action"

inductive AuditSeverity where
  | info
  | warning
  | critical
  deriving DecidableEq

def AuditSeverity.text : AuditSeverity → String
  | info => "info"
  | warning => "warning"
  | critical => "critical"

inductive AuditOutcome where
  | success
  | denied
  deriving DecidableEq

def AuditOutcome.text : AuditOutcome → String
  | success => "success"
  | denied => "denied"

inductive ActorType where
  | user
  | admin
  | ra
  | service
  | system
  deriving DecidableEq

def ActorType.text : ActorType → String
  | user => "user"
  | admin => "admin"
  | ra => "ra"
  | service => "service"
  | system => "system"

structure RawAuditFields where
  source : AuditSource
  action : String
  actor : String := ""
  reason : String := ""
  target : String := ""

structure AuditActor where
  type : ActorType
  id : String
  display : String
  deriving DecidableEq

structure AuditSemantics where
  category : AuditCategory
  severity : AuditSeverity
  outcome : AuditOutcome
  actor : AuditActor
  description : String
  deriving DecidableEq

/-- `CATEGORY_BY_ACTION` -/
def categoryByAction : List (String × AuditCategory) :=
  [("issued", .certLifecycle), ("verify_certificate", .certLifecycle),
    ("issuer_provisioned", .certLifecycle), ("chain_verified", .certLifecycle),
    ("ra_registration_approved", .certLifecycle), ("ra_registration_rejected", .certLifecycle),
    ("looked_up", .adminAction), ("revoked", .adminAction),
    ("ra_otp_requested", .authentication), ("ra_otp_verified", .authentication),
    ("ra_otp_failed", .authentication), ("admin_ca_login_success", .authentication),
    ("admin_ca_login_failed", .authentication),
    ("as_ticket_issued", .keyIssuance), ("as_rejected", .keyIssuance),
    ("tgs_ticket_issued", .keyIssuance), ("tgs_rejected", .keyIssuance),
    ("transfer_completed", .resourceAccess), ("transfer_rejected", .resourceAccess),
    ("replay_detected", .resourceAccess), ("invalid_signature", .resourceAccess),
    ("certificate_rejected", .resourceAccess), ("forbidden_ownership", .resourceAccess),
    ("insufficient_funds", .resourceAccess)]

/-- `FALLBACK_CATEGORY` -/
def fallbackCategory : AuditSource → AuditCategory
  | .ca => .certLifecycle
  | .kdc => .keyIssuance
  | .bank => .resourceAccess

/-- `CRITICAL` -/
def critical : List String :=
  ["revoked", "certificate_rejected", "replay_detected", "invalid_signature"]

/-- `endsWith` -/
def endsWith (s suffix : String) : Bool := suffix.toList.isSuffixOf s.toList

/-- `isDenied`. A revocation succeeded, so it is not counted as denied. -/
def isDenied (action : String) : Bool :=
  if action = "revoked" then false
  else if endsWith action "_rejected" || endsWith action "_failed" then true
  else ["forbidden_ownership", "insufficient_funds", "replay_detected", "invalid_signature",
    "certificate_rejected"].contains action

/-- `severityOf` -/
def severityOf (action : String) : AuditSeverity :=
  if critical.contains action then .critical
  else if isDenied action then .warning
  else .info

/-- `actorOf` -/
def actorOf (source : AuditSource) (actor : String) : AuditActor :=
  let a := trim actor
  if a = "" then
    match source with
    | .kdc => ⟨.user, "", "unknown client"⟩
    | .bank => ⟨.user, "", "unknown user"⟩
    | .ca => ⟨.system, "", "system"⟩
  else
    let head := String.ofList (a.toList.takeWhile (· ≠ ':'))
    match a.toList.dropWhile (· ≠ ':') with
    | [] => ⟨.user, a, a⟩
    | _ :: rest =>
      let suffix := String.ofList rest
      if head = "ra" then ⟨.ra, a, "RA (" ++ orElse suffix "gateway" ++ ")"⟩
      else if ["admin-ca", "admin", "bank_admin"].contains head then
        ⟨.admin, a, orElse suffix a⟩
      else if ["system", "service", "legacy"].contains head then ⟨.service, a, orElse suffix a⟩
      else ⟨.user, a, a⟩

/-- `describe` -/
def describe (raw : RawAuditFields) (actor : AuditActor) : String :=
  let who := actor.display
  let target := if raw.target = "" then "" else " " ++ raw.target
  let reason := if raw.reason = "" then "" else " (" ++ raw.reason ++ ")"
  match raw.action with
  | "issued" => who ++ " issued certificate" ++ target
  | "revoked" => who ++ " revoked certificate" ++ target ++ reason
  | "looked_up" => who ++ " viewed certificate" ++ target
  | "verify_certificate" => "certificate" ++ target ++ " was verified"
  | "chain_verified" => "certificate chain" ++ target ++ " was verified"
  | "issuer_provisioned" => "issuer" ++ target ++ " was provisioned"
  | "ra_otp_requested" => "OTP challenge issued for registration"
  | "ra_otp_verified" => "email ownership verified for registration"
  | "ra_otp_failed" => "OTP verification failed" ++ reason
  | "ra_registration_approved" => "registration approved, certificate" ++ target ++ " issued"
  | "ra_registration_rejected" => "registration rejected" ++ reason
  | "admin_ca_login_success" => who ++ " signed in to Admin CA"
  | "admin_ca_login_failed" => "Admin CA sign-in failed" ++ reason
  | "as_ticket_issued" => who ++ " was granted a TGT (AS exchange)"
  | "as_rejected" => "AS exchange denied" ++ reason
  | "tgs_ticket_issued" => who ++ " was granted a service ticket" ++ target
  | "tgs_rejected" => "TGS exchange denied" ++ reason
  | "transfer_completed" => who ++ " completed a transfer" ++ target
  | "transfer_rejected" => "transfer rejected" ++ reason
  | "replay_detected" => "replay attack detected" ++ reason
  | "invalid_signature" => "invalid payload signature" ++ reason
  | "certificate_rejected" => "certificate rejected" ++ reason
  | "forbidden_ownership" => "ownership check failed" ++ reason
  | "insufficient_funds" => "transfer failed: insufficient funds"
  | action => action ++ reason

/-- `enrichAudit` -/
def enrichAudit (raw : RawAuditFields) : AuditSemantics :=
  let action := toLowerCase raw.action
  let actor := actorOf raw.source raw.actor
  { category := (categoryByAction.lookup action).getD (fallbackCategory raw.source)
    severity := severityOf action
    outcome := if isDenied action then .denied else .success
    actor
    description := describe { raw with action } actor }

end Gateway
