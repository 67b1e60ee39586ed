import MiniBanking.Bank.Audit
import MiniBanking.Ca.Audit
import MiniBanking.Gateway.AuditSemantics
import MiniBanking.Kdc.Audit

/-!
# Reading the audit logs of the services

The gateway walks the pages of every log within a time window, brings the events into one shape
and adds their meaning. Each service filters its rows by time and sends a page of them.

## Main definitions

* `Dated`, `Logs`: the rows of the three logs with their times
* `Bank.auditAction`, `bankAuditActionToJSON`: the encodings of the bank's actions on the way
* `NormalizedEvent`, `EnrichedEvent`: the shape of an event
* `fetchWindow`, `collect`: the walk over the pages, as a program over the requests for them
* `Logs.reply`: what the services reply from logs that nobody writes to

## Main results

* `answer_fetchWindow`: the walk finds the first events, as many as it may
* `answer_collect`: what is collected of logs that nobody writes to
-/

/-! ## The actions of the bank on the way -/

namespace Bank

/-- The actions of the bank's messages. -/
inductive BankAuditAction where
  | unknown
  | transferCompleted
  | transferRejected
  | replayDetected
  | invalidSignature
  | certificateRejected
  | forbiddenOwnership
  | insufficientFunds
  | unrecognized
  deriving DecidableEq

/-- `auditAction`: the action of a message for a stored one. -/
def auditAction : String → BankAuditAction
  | "transfer_completed" => .transferCompleted
  | "transfer_rejected" => .transferRejected
  | "replay_detected" => .replayDetected
  | "invalid_signature" => .invalidSignature
  | "certificate_rejected" => .certificateRejected
  | "forbidden_ownership" => .forbiddenOwnership
  | "insufficient_funds" => .insufficientFunds
  | _ => .unknown

end Bank

namespace Gateway

open Bank Concurrency Js Postgres

/-- `bankAuditActionToJSON` -/
def bankAuditActionToJSON : BankAuditAction → String
  | .unknown => "BANK_AUDIT_ACTION_UNKNOWN"
  | .transferCompleted => "BANK_AUDIT_ACTION_TRANSFER_COMPLETED"
  | .transferRejected => "BANK_AUDIT_ACTION_TRANSFER_REJECTED"
  | .replayDetected => "BANK_AUDIT_ACTION_REPLAY_DETECTED"
  | .invalidSignature => "BANK_AUDIT_ACTION_INVALID_SIGNATURE"
  | .certificateRejected => "BANK_AUDIT_ACTION_CERTIFICATE_REJECTED"
  | .forbiddenOwnership => "BANK_AUDIT_ACTION_FORBIDDEN_OWNERSHIP"
  | .insufficientFunds => "BANK_AUDIT_ACTION_INSUFFICIENT_FUNDS"
  | .unrecognized => "UNRECOGNIZED"

/-! ## Messages -/

/-- An event in a message of the CA. -/
structure CaMessage where
  serialNumber : String
  action : String
  performedBy : String
  reason : String
  performedAtUnix : ℤ
  metadata : List (String × String)

/-- An event in a message of the KDC. -/
structure KdcMessage where
  action : String
  clientID : String
  certSerial : String
  scope : String
  reason : String
  requestID : String
  ip : String
  metadataJson : String
  createdAtUnix : ℤ

/-- An event in a message of the bank. -/
structure BankMessage where
  action : BankAuditAction
  userID : String
  accountID : String
  transactionID : String
  certSerial : String
  requestID : String
  reason : String
  metadataJson : String
  createdAtUnix : ℤ

/-- The metadata of an event: texts of the CA, the JSON text of another service. -/
inductive Metadata where
  | texts (values : List (String × String))
  | json (text : String)
  deriving DecidableEq

structure NormalizedEvent where
  source : AuditSource
  action : String
  actor : String
  target : String
  reason : String
  requestID : String
  ip : String := ""
  scope : String := ""
  /-- The time in seconds, of which the timestamp is the text. -/
  ts : ℤ
  metadata : Metadata
  deriving DecidableEq

/-- `metaRequestId` -/
def metaRequestId (metadata : List (String × String)) : String :=
  (metadata.lookup "request_id").getD ""

/-- An event of the CA in the common shape. -/
def caEvent (e : CaMessage) : NormalizedEvent where
  source := .ca
  action := e.action
  actor := e.performedBy
  target := e.serialNumber
  reason := e.reason
  requestID := metaRequestId e.metadata
  ts := e.performedAtUnix
  metadata := .texts e.metadata

/-- An event of the KDC in the common shape. -/
def kdcEvent (e : KdcMessage) : NormalizedEvent where
  source := .kdc
  action := e.action
  actor := e.clientID
  target := e.certSerial
  reason := e.reason
  requestID := e.requestID
  ip := e.ip
  scope := e.scope
  ts := e.createdAtUnix
  metadata := .json e.metadataJson

/-- An event of the bank in the common shape. -/
def bankEvent (e : BankMessage) : NormalizedEvent where
  source := .bank
  action := toLowerCase (bankAuditActionToJSON e.action)
  actor := e.userID
  target := orElse e.transactionID (orElse e.accountID e.certSerial)
  reason := e.reason
  requestID := e.requestID
  ts := e.createdAtUnix
  metadata := .json e.metadataJson

/-! ## The walk over the pages -/

/-- A time window in seconds, where 0 stands for no bound. -/
structure WindowFilter where
  fromUnix : ℤ
  toUnix : ℤ

/-- A request for a page of 100 events. -/
inductive PageRequest where
  | ca (filter : WindowFilter) (offset : ℕ)
  | kdc (filter : WindowFilter) (offset : ℕ)
  | bank (filter : WindowFilter) (adminSessionToken : String) (offset : ℕ)

/-- The replies to the requests: the events of the page, unless the call fails. -/
abbrev PageReply : PageRequest → Type
  | .ca _ _ => Except Unit (List CaMessage)
  | .kdc _ _ => Except Unit (List KdcMessage)
  | .bank _ _ _ => Except Unit (List BankMessage)

/-- The requests with their replies. -/
abbrev pages : Signature := ⟨PageRequest, PageReply⟩

def pageSize : ℕ := 100

section Fetch

variable {S : Signature} {E : Type}

/-- The loop of a walk. Every round but the last one finds a full page, so that `cap` rounds are
enough. -/
def fetchFrom (ask : (offset : ℕ) → Program S (Except Unit (List E)))
    (event : E → NormalizedEvent) (cap : ℕ) : (rounds offset : ℕ) → List NormalizedEvent →
    Program S (Except Unit (List NormalizedEvent))
  | 0, _, out => return .ok out
  | rounds + 1, offset, out =>
    if out.length < cap then do
      match ← ask offset with
      | .error e => return .error e
      | .ok page =>
        if page.length < pageSize then return .ok (out ++ page.map event)
        else fetchFrom ask event cap rounds (offset + pageSize) (out ++ page.map event)
    else return .ok out

/-- `fetchCaWindow`, `fetchKdcWindow`, `fetchBankWindow`: the first events of the pages, `cap` of
them at most. -/
def fetchWindow (ask : (offset : ℕ) → Program S (Except Unit (List E)))
    (event : E → NormalizedEvent) (cap : ℕ) : Program S (Except Unit (List NormalizedEvent)) := do
  let out ← fetchFrom ask event cap cap 0 []
  return out.map (·.take cap)

end Fetch

/-- `fetchCaWindow` -/
def fetchCaWindow (filter : WindowFilter) (cap : ℕ) :
    Program pages (Except Unit (List NormalizedEvent)) :=
  fetchWindow (fun offset => issue (S := pages) (.ca filter offset)) caEvent cap

/-- `fetchKdcWindow` -/
def fetchKdcWindow (filter : WindowFilter) (cap : ℕ) :
    Program pages (Except Unit (List NormalizedEvent)) :=
  fetchWindow (fun offset => issue (S := pages) (.kdc filter offset)) kdcEvent cap

/-- `fetchBankWindow` -/
def fetchBankWindow (filter : WindowFilter) (cap : ℕ) (adminSessionToken : String) :
    Program pages (Except Unit (List NormalizedEvent)) :=
  fetchWindow (fun offset => issue (S := pages) (.bank filter adminSessionToken offset)) bankEvent
    cap

/-! ## Collecting -/

structure EnrichedEvent extends NormalizedEvent where
  category : AuditCategory
  severity : AuditSeverity
  outcome : AuditOutcome
  actorType : ActorType
  actorDisplay : String
  description : String
  deriving DecidableEq

/-- `enrich` -/
def enrich (e : NormalizedEvent) : EnrichedEvent :=
  let s := enrichAudit {
    source := e.source, action := e.action, actor := e.actor, reason := e.reason,
    target := e.target }
  { e with
    category := s.category
    severity := s.severity
    outcome := s.outcome
    actorType := s.actor.type
    actorDisplay := s.actor.display
    description := s.description }

/-- The source that an export asks for: one of them, or all. -/
abbrev SourceFilter := Option AuditSource

/-- The filter takes the source in. -/
def SourceFilter.includes (source : SourceFilter) (s : AuditSource) : Bool :=
  source = none || source = some s

/-- The events of a source that is asked for, and whether it answered. -/
def fetched (included : Bool) (fetch : Program pages (Except Unit (List NormalizedEvent))) :
    Program pages (List NormalizedEvent × Option Bool) :=
  if included then do
    match ← fetch with
    | .ok events => return (events, some true)
    | .error _ => return ([], some false)
  else return ([], none)

/-- The events in the order of their seconds. -/
def sortEvents (events : List NormalizedEvent) : List NormalizedEvent :=
  events.mergeSort fun a b => a.ts ≤ b.ts

/-- What is collected: the events, and which sources answered. -/
structure Collected where
  events : List EnrichedEvent
  ca : Option Bool
  kdc : Option Bool
  bank : Option Bool

/-- The events of the bank. Without a session of a bank administrator it is not asked. -/
def fetchedBank (included : Bool) (bankToken : String) (filter : WindowFilter) (cap : ℕ) :
    Program pages (List NormalizedEvent × Option Bool) :=
  if included && bankToken = "" then return ([], some false)
  else fetched included (fetchBankWindow filter cap bankToken)

/-- `collect`: the events of the sources within a window, with their meaning. -/
def collect (bankToken : String) (filter : WindowFilter) (cap : ℕ) (source : SourceFilter) :
    Program pages Collected := do
  let (ca, caAnswered) ← fetched (source.includes .ca) (fetchCaWindow filter cap)
  let (kdc, kdcAnswered) ← fetched (source.includes .kdc) (fetchKdcWindow filter cap)
  let (bank, bankAnswered) ← fetchedBank (source.includes .bank) bankToken filter cap
  return {
    events := ((sortEvents (ca ++ kdc ++ bank)).take cap).map enrich
    ca := caAnswered
    kdc := kdcAnswered
    bank := bankAnswered }

/-! ## Logs that nobody writes to -/

/-- A row of an audit log with its time in microseconds and its metadata. -/
structure Dated (R M : Type) where
  row : R
  micros : ℤ
  metadata : M

/-- The time of a row in seconds. -/
def Dated.unix {R M : Type} (r : Dated R M) : ℤ := r.micros / 1000000

abbrev CaRow := Dated Ca.AuditRow (Option (List (String × String)))
abbrev KdcRow := Dated Kdc.AuditRow (Option String)
abbrev BankRow := Dated Bank.AuditRow (Option String)

/-- The event that the CA sends for a row. -/
def CaRow.message (r : CaRow) : CaMessage where
  serialNumber := r.row.serialNumber.1
  action := r.row.action.1
  performedBy := r.row.performedBy.1
  reason := coalesce (·.1) r.row.reason
  performedAtUnix := r.unix
  metadata := r.metadata.getD []

/-- The event that the KDC sends for a row. -/
def KdcRow.message (r : KdcRow) : KdcMessage where
  action := r.row.action.1
  clientID := coalesce (·.1) r.row.clientID
  certSerial := coalesce (·.1) r.row.certSerial
  scope := coalesce (·.1) r.row.scope
  reason := coalesce (·.1) r.row.reason
  requestID := coalesce (·.1) r.row.requestID
  ip := coalesce (·.1) r.row.ip
  metadataJson := r.metadata.getD "\x7b\x7d"
  createdAtUnix := r.unix

/-- The event that the bank sends for a row. -/
def BankRow.message (r : BankRow) : BankMessage where
  action := auditAction r.row.action.1
  userID := coalesce Uuid.text r.row.userID
  accountID := coalesce Uuid.text r.row.accountID
  transactionID := coalesce Uuid.text r.row.transactionID
  certSerial := coalesce (·.1) r.row.certSerial
  requestID := coalesce (·.1) r.row.requestID
  reason := coalesce (·.1) r.row.reason
  metadataJson := r.metadata.getD "\x7b\x7d"
  createdAtUnix := r.unix

/-- `ORDER BY … DESC`: newest first, in an order of the database's among rows of one time. -/
structure NewestFirst (R M : Type) where
  order : List (Dated R M) → List (Dated R M)
  perm : ∀ rows, (order rows).Perm rows
  sorted : ∀ rows, (order rows).Pairwise fun r r' => r'.micros ≤ r.micros

/-- The rows of the three logs, and how the databases order them. -/
structure Logs where
  ca : List CaRow
  kdc : List KdcRow
  bank : List BankRow
  caOrder : NewestFirst Ca.AuditRow (Option (List (String × String)))
  kdcOrder : NewestFirst Kdc.AuditRow (Option String)
  bankOrder : NewestFirst Bank.AuditRow (Option String)
  /-- The tokens of the sessions of bank administrators. -/
  session : String → Bool

namespace WindowFilter

variable (f : WindowFilter)

/-- The window begins at or before the time. -/
def since (micros : ℤ) : Bool := f.fromUnix ≤ 0 || f.fromUnix * 1000000 ≤ micros

/-- The window of the CA and of the KDC: it ends after the time. -/
def holds (micros : ℤ) : Bool :=
  f.since micros && (f.toUnix ≤ 0 || micros < f.toUnix * 1000000)

/-- The window of the bank: it ends at or after the time. -/
def bankHolds (micros : ℤ) : Bool :=
  f.since micros && (f.toUnix ≤ 0 || micros ≤ f.toUnix * 1000000)

/-- The window ends before it begins. -/
def reversed : Bool := 0 < f.fromUnix && 0 < f.toUnix && f.toUnix < f.fromUnix

/-- `validateAdminDateRange` -/
def bankRefuses : Bool := f.fromUnix < 0 || f.toUnix < 0 || f.reversed

end WindowFilter

namespace Logs

variable (logs : Logs)

/-- The rows of the CA's log in a window, in the order they are sent. -/
def caRows (f : WindowFilter) : List CaRow :=
  logs.caOrder.order (logs.ca.filter (f.holds ·.micros))

/-- The rows of the KDC's log in a window, in the order they are sent. -/
def kdcRows (f : WindowFilter) : List KdcRow :=
  logs.kdcOrder.order (logs.kdc.filter (f.holds ·.micros))

/-- The rows of the bank's log in a window, in the order they are sent. -/
def bankRows (f : WindowFilter) : List BankRow :=
  logs.bankOrder.order (logs.bank.filter (f.bankHolds ·.micros))

/-- What the services reply. -/
def reply : (q : PageRequest) → PageReply q
  | .ca f offset =>
    if f.reversed then .error ()
    else .ok (((logs.caRows f).drop offset).take pageSize |>.map CaRow.message)
  | .kdc f offset =>
    if f.reversed then .error ()
    else .ok (((logs.kdcRows f).drop offset).take pageSize |>.map KdcRow.message)
  | .bank f token offset =>
    if !logs.session token || f.bankRefuses then .error ()
    else .ok (((logs.bankRows f).drop offset).take pageSize |>.map BankRow.message)

end Logs

section Answer

variable {S : Signature} {E : Type} {reply : ∀ s, S.Reply s}

/-- The loop of a walk over the pages of a list finds its first elements, `cap` of them or all. -/
theorem answer_fetchFrom {ask : ℕ → Program S (Except Unit (List E))} {event : E → NormalizedEvent}
    {rows : List E} (hask : ∀ offset, (ask offset).answer reply =
      .ok ((rows.drop offset).take pageSize)) {cap rounds offset : ℕ}
    (hoffset : offset ≤ rows.length) (hrounds : cap ≤ offset + rounds) :
    ∃ n, min cap rows.length ≤ n ∧
      (fetchFrom ask event cap rounds offset ((rows.take offset).map event)).answer reply =
        .ok ((rows.take n).map event) := by
  induction rounds generalizing offset with
  | zero => exact ⟨offset, by omega, rfl⟩
  | succ rounds ih =>
    rw [fetchFrom, List.length_map, List.length_take, Nat.min_eq_left hoffset]
    by_cases hcap : offset < cap
    swap
    · rw [if_neg hcap]
      exact ⟨offset, by omega, rfl⟩
    rw [if_pos hcap, Program.answer_bind, hask]
    -- the page continues what was found
    have hout : (rows.take offset).map event ++ ((rows.drop offset).take pageSize).map event =
        (rows.take (offset + pageSize)).map event := by
      rw [← List.map_append, List.take_add]
    have hlen : ((rows.drop offset).take pageSize).length =
        min pageSize (rows.length - offset) := by
      rw [List.length_take, List.length_drop]
    dsimp only
    rw [hout, hlen]
    by_cases hlast : min pageSize (rows.length - offset) < pageSize
    · rw [if_pos hlast]
      exact ⟨offset + pageSize, by omega, rfl⟩
    · rw [if_neg hlast]
      refine ih (by omega) ?_
      have : 0 < pageSize := by decide
      omega

/-- **The walk finds the first elements**, `cap` of them or all. -/
theorem answer_fetchWindow {ask : ℕ → Program S (Except Unit (List E))}
    {event : E → NormalizedEvent} {rows : List E} (hask : ∀ offset, (ask offset).answer reply =
      .ok ((rows.drop offset).take pageSize)) (cap : ℕ) :
    (fetchWindow ask event cap).answer reply = .ok ((rows.map event).take cap) := by
  have hfrom : ∃ n, min cap rows.length ≤ n ∧
      (fetchFrom ask event cap cap 0 ((rows.take 0).map event)).answer reply =
        .ok ((rows.take n).map event) := answer_fetchFrom hask (Nat.zero_le _) (by omega)
  rw [List.take_zero, List.map_nil] at hfrom
  obtain ⟨n, hn, hfetch⟩ := hfrom
  rw [fetchWindow, Program.answer_bind, hfetch]
  show Except.ok (((rows.take n).map event).take cap) = _
  rw [List.map_take, List.take_take]
  refine congrArg Except.ok (List.take_eq_take_iff.mpr ?_)
  rw [List.length_map]
  omega

/-- A walk whose requests fail finds nothing. -/
theorem answer_fetchWindow_error {ask : ℕ → Program S (Except Unit (List E))}
    {event : E → NormalizedEvent} (hask : ∀ offset, (ask offset).answer reply = .error ())
    {cap : ℕ} (hcap : 0 < cap) : (fetchWindow ask event cap).answer reply = .error () := by
  obtain ⟨n, rfl⟩ : ∃ n, cap = n + 1 := ⟨cap - 1, by omega⟩
  rw [fetchWindow, Program.answer_bind, fetchFrom, if_pos (by simp), Program.answer_bind, hask]
  rfl

end Answer

namespace Logs

variable (logs : Logs) (f : WindowFilter)

/-- The events of the CA in a window, as the gateway reads them. -/
def caEvents : List NormalizedEvent := (logs.caRows f).map fun r => caEvent r.message

/-- The events of the KDC in a window, as the gateway reads them. -/
def kdcEvents : List NormalizedEvent := (logs.kdcRows f).map fun r => kdcEvent r.message

/-- The events of the bank in a window, as the gateway reads them. -/
def bankEvents : List NormalizedEvent := (logs.bankRows f).map fun r => bankEvent r.message

variable {logs f}

theorem answer_fetchCaWindow (hf : f.reversed = false) (cap : ℕ) :
    (fetchCaWindow f cap).answer logs.reply = .ok ((logs.caEvents f).take cap) := by
  have hask : ∀ offset, (issue (S := pages) (.ca f offset)).answer logs.reply =
      .ok ((((logs.caRows f).map CaRow.message).drop offset).take pageSize) := by
    intro offset
    show logs.reply (.ca f offset) = _
    simp only [reply, hf, Bool.false_eq_true, if_false, List.map_take, List.map_drop]
  rw [fetchCaWindow, answer_fetchWindow hask, caEvents, List.map_map]
  rfl

theorem answer_fetchKdcWindow (hf : f.reversed = false) (cap : ℕ) :
    (fetchKdcWindow f cap).answer logs.reply = .ok ((logs.kdcEvents f).take cap) := by
  have hask : ∀ offset, (issue (S := pages) (.kdc f offset)).answer logs.reply =
      .ok ((((logs.kdcRows f).map KdcRow.message).drop offset).take pageSize) := by
    intro offset
    show logs.reply (.kdc f offset) = _
    simp only [reply, hf, Bool.false_eq_true, if_false, List.map_take, List.map_drop]
  rw [fetchKdcWindow, answer_fetchWindow hask, kdcEvents, List.map_map]
  rfl

theorem answer_fetchBankWindow (hf : f.bankRefuses = false) {token : String}
    (htoken : logs.session token = true) (cap : ℕ) :
    (fetchBankWindow f cap token).answer logs.reply = .ok ((logs.bankEvents f).take cap) := by
  have hask : ∀ offset, (issue (S := pages) (.bank f token offset)).answer logs.reply =
      .ok ((((logs.bankRows f).map BankRow.message).drop offset).take pageSize) := by
    intro offset
    show logs.reply (.bank f token offset) = _
    simp only [reply, hf, htoken, Bool.not_true, Bool.or_false, Bool.false_eq_true, if_false,
      List.map_take, List.map_drop]
  rw [fetchBankWindow, answer_fetchWindow hask, bankEvents, List.map_map]
  rfl

/-- The first events of a source that is asked for. -/
def taken (included : Bool) (cap : ℕ) (events : List NormalizedEvent) : List NormalizedEvent :=
  if included then events.take cap else []

theorem answer_fetched {fetch : Program pages (Except Unit (List NormalizedEvent))}
    {events : List NormalizedEvent} {cap : ℕ}
    (h : fetch.answer logs.reply = .ok (events.take cap)) (included : Bool) :
    ((fetched included fetch).answer logs.reply).1 = taken included cap events := by
  cases included with
  | false => rfl
  | true =>
    simp only [fetched, if_true, Program.answer_bind, h]
    rfl

/-- The bank is not asked, or it answers. -/
def BankAnswers (logs : Logs) (f : WindowFilter) (source : SourceFilter) (token : String) : Prop :=
  source.includes .bank = true →
    token ≠ "" ∧ logs.session token = true ∧ f.bankRefuses = false

/-- The bank is asked, and it answers. -/
def bankReached (logs : Logs) (f : WindowFilter) (source : SourceFilter) (token : String) : Bool :=
  source.includes .bank && token ≠ "" && logs.session token && !f.bankRefuses

theorem BankAnswers.reached {source : SourceFilter} {token : String}
    (h : logs.BankAnswers f source token) (hsource : source.includes .bank = true) :
    logs.bankReached f source token = true := by
  obtain ⟨hne, htoken, hrange⟩ := h hsource
  simp [bankReached, hsource, hne, htoken, hrange]

theorem answer_fetchedBank {source : SourceFilter} {token : String} {cap : ℕ} (hcap : 0 < cap) :
    ((fetchedBank (source.includes .bank) token f cap).answer logs.reply).1 =
      taken (logs.bankReached f source token) cap (logs.bankEvents f) := by
  unfold fetchedBank bankReached
  cases source.includes .bank with
  | false => rfl
  | true =>
    by_cases hne : token = ""
    · simp only [hne, decide_true, Bool.and_self, if_true, ne_eq, not_true_eq_false, decide_false,
        Bool.and_false, Bool.false_and]
      rfl
    rw [if_neg (by simpa using hne)]
    cases htoken : logs.session token with
    | false =>
      have hask : ∀ offset, (issue (S := pages) (.bank f token offset)).answer logs.reply =
          .error () := by
        intro offset
        show logs.reply (.bank f token offset) = _
        simp only [reply, htoken, Bool.not_false, Bool.true_or, if_true]
      simp only [fetched, if_true, Program.answer_bind, fetchBankWindow,
        answer_fetchWindow_error hask hcap, Bool.and_false, Bool.false_and]
      rfl
    | true =>
      cases hrange : f.bankRefuses with
      | true =>
        have hask : ∀ offset, (issue (S := pages) (.bank f token offset)).answer logs.reply =
            .error () := by
          intro offset
          show logs.reply (.bank f token offset) = _
          simp only [reply, hrange, Bool.or_true, if_true]
        simp only [fetched, if_true, Program.answer_bind, fetchBankWindow,
          answer_fetchWindow_error hask hcap, Bool.not_true, Bool.and_false]
        rfl
      | false =>
        rw [show (true && decide (token ≠ "") && true && !false) = true by simpa using hne]
        exact answer_fetched (answer_fetchBankWindow hrange htoken cap) true

/-- **What is collected** of logs that nobody writes to. -/
theorem answer_collect (logs : Logs) (source : SourceFilter) (token : String)
    (hf : f.reversed = false) {cap : ℕ} (hcap : 0 < cap) :
    ((collect token f cap source).answer logs.reply).events =
      ((sortEvents (taken (source.includes .ca) cap (logs.caEvents f) ++
        taken (source.includes .kdc) cap (logs.kdcEvents f) ++
        taken (logs.bankReached f source token) cap (logs.bankEvents f))).take cap).map enrich := by
  have hca : ((fetched (source.includes .ca) (fetchCaWindow f cap)).answer logs.reply).1 =
      taken (source.includes .ca) cap (logs.caEvents f) :=
    answer_fetched (answer_fetchCaWindow hf cap) _
  have hkdc : ((fetched (source.includes .kdc) (fetchKdcWindow f cap)).answer logs.reply).1 =
      taken (source.includes .kdc) cap (logs.kdcEvents f) :=
    answer_fetched (answer_fetchKdcWindow hf cap) _
  simp only [collect, Program.answer_bind]
  rw [← hca, ← hkdc, ← answer_fetchedBank hcap]
  rfl

/-- A source with no more events than the cap is read to its end. -/
theorem taken_eq {included : Bool} {cap : ℕ} {events : List NormalizedEvent}
    (h : (if included then events else []).length ≤ cap) :
    taken included cap events = if included then events else [] := by
  cases included with
  | false => rfl
  | true => exact List.take_of_length_le h

end Logs

end Gateway
