import MiniBanking.Gateway.AuditFetch

/-!
# The security summary

The gateway counts the events of a window by severity, category and outcome, and the reasons and
the actors of those that were denied. The bank's actions have other names when they are
classified than when they are stored.

## Main definitions

* `increment`, `entries`: objects that count
* `tally`: what is counted of some events
* `handleAuditSummary`: the summary of a window
* `Logs.storedEvents`: the events with the actions that are stored
* `misread`: the bank's actions that are classified otherwise under their other name

## Main results

* `summary_correct_iff`: the summary counts what is stored exactly if no row has such an action
-/

namespace Js

/-! ## Objects that count -/

/-- A property of an object that counts: a number, or a text if the object inherited something
under the name. -/
inductive Count where
  | number (n : ℕ)
  | text (s : String)
  deriving DecidableEq

/-- An object that counts: its own properties as they were added. -/
abbrev Counts := List (String × Count)

/-- What objects inherit under some names, as text. -/
def inherited : List (String × String) :=
  ("__proto__", "[object Object]") :: ("constructor", "function Object() \x7b [native code] \x7d") ::
    ["__defineGetter__", "__defineSetter__", "hasOwnProperty", "__lookupGetter__",
      "__lookupSetter__", "isPrototypeOf", "propertyIsEnumerable", "toString", "valueOf",
      "toLocaleString"].map fun name => (name, "function " ++ name ++ "() \x7b [native code] \x7d")

/-- `m[key] = (m[key] ?? 0) + 1` -/
def increment (m : Counts) (key : String) : Counts :=
  match m.lookup key with
  | some (.number n) => m.map fun p => if p.1 = key then (key, .number (n + 1)) else p
  | some (.text s) => m.map fun p => if p.1 = key then (key, .text (s ++ "1")) else p
  | none =>
    match inherited.lookup key with
    | none => m ++ [(key, .number 1)]
    -- a text is no prototype, so that the assignment does nothing
    | some s => if key = "__proto__" then m else m ++ [(key, .text (s ++ "1"))]

/-- The number that digits write. -/
def ofDigits (digits : List Char) : Option ℕ :=
  if digits = [] || !digits.all Char.isDigit then none
  else some (digits.foldl (fun n c => 10 * n + (c.toNat - 48)) 0)

/-- The number of a name that is an array index. -/
def arrayIndex (name : String) : Option ℕ := do
  let n ← ofDigits name.toList
  if toString n = name ∧ n < 4294967295 then return n else none

/-- `Object.entries`: array indices in their order, then the other names as they were added. -/
def entries (m : Counts) : Counts :=
  let (indices, names) := m.partition fun p => (arrayIndex p.1).isSome
  indices.mergeSort (fun p q => (arrayIndex p.1).getD 0 ≤ (arrayIndex q.1).getD 0) ++ names

/-- `a - b > 0` -/
def Count.above : Count → Count → Bool
  | .number m, .number n => n < m
  | _, _ => false

/-- `sort((a, b) => b[1] - a[1])` -/
def sortByCount (m : Counts) : Counts := m.mergeSort fun p q => !q.2.above p.2

end Js

namespace Gateway

open Bank Concurrency Js Postgres

/-! ## The summary -/

def summaryCap : ℕ := 2000

/-- The number of denied events that makes an actor an anomaly. -/
def anomalyThreshold : ℕ := 5

/-- What is counted of some events. -/
structure Tally where
  bySeverity : Counts
  byCategory : Counts
  byOutcome : Counts
  topReasons : Counts
  anomalies : Counts
  deriving DecidableEq

/-- The name under which the actor of a denied event is counted. -/
def actorKey (e : EnrichedEvent) : String :=
  e.source.text ++ ":" ++ orElse e.actor "unknown"

/-- What is counted of some events. -/
def tally (events : List EnrichedEvent) : Tally :=
  let denied := events.filter (·.outcome = .denied)
  let reasons := (denied.map (·.reason)).filter (· ≠ "")
  let deniedByActor := (denied.map actorKey).foldl increment []
  { bySeverity := (events.map (·.severity.text)).foldl increment
      [("info", .number 0), ("warning", .number 0), ("critical", .number 0)]
    byCategory := (events.map (·.category.text)).foldl increment []
    byOutcome := (events.map (·.outcome.text)).foldl increment
      [("success", .number 0), ("denied", .number 0)]
    topReasons := (sortByCount (entries (reasons.foldl increment []))).take 10
    anomalies := sortByCount ((entries deniedByActor).filter fun p =>
      !(Count.number anomalyThreshold).above p.2) }

/-- `parseWindowSeconds`: the seconds of a text like `24h`, a day if it is not one. -/
def parseWindowSeconds (value : String) : ℕ :=
  let cs := (trim value).toList
  match ofDigits (cs.takeWhile Char.isDigit), cs.dropWhile Char.isDigit with
  | some n, ['s'] => n
  | some n, ['m'] => n * 60
  | some n, ['h'] => n * 3600
  | some n, ['d'] => n * 86400
  | _, _ => 24 * 3600

/-- The data of a summary. -/
structure Summary extends Tally where
  windowSeconds : ℕ
  window : WindowFilter
  ca : Option Bool
  kdc : Option Bool
  bank : Option Bool
  total : ℕ
  capped : Bool

/-- The window of a summary: it ends now. -/
def summaryWindow (window : String) (now : ℤ) : WindowFilter :=
  ⟨now - parseWindowSeconds window, now⟩

/-- `handleAuditSummary` at a time in seconds. -/
def handleAuditSummary (window bankToken : String) (now : ℤ) : Program pages Summary := do
  let collected ← collect bankToken (summaryWindow window now) summaryCap none
  return {
    tally collected.events with
    windowSeconds := parseWindowSeconds window
    window := summaryWindow window now
    ca := collected.ca
    kdc := collected.kdc
    bank := collected.bank
    total := collected.events.length
    capped := summaryCap ≤ collected.events.length }

/-! ## What is stored -/

/-- An event of the bank with the action that is stored. -/
def BankRow.event (r : BankRow) : NormalizedEvent :=
  { bankEvent r.message with action := r.row.action.1 }

/-- The events of a window with the actions that are stored. -/
def Logs.storedEvents (logs : Logs) (f : WindowFilter) : List NormalizedEvent :=
  sortEvents (logs.caEvents f ++ logs.kdcEvents f ++ (logs.bankRows f).map BankRow.event)

/-- The bank's actions that are classified otherwise under the name they are read with. -/
def misread : List String :=
  ["replay_detected", "invalid_signature", "certificate_rejected", "forbidden_ownership",
    "insufficient_funds"]

/-- The name that an action of the bank is read with. -/
def readName (action : String) : String := toLowerCase (bankAuditActionToJSON (auditAction action))

/-- The event as the gateway reads it. -/
def renamed (e : NormalizedEvent) : NormalizedEvent :=
  if e.source = .bank then { e with action := readName e.action } else e

theorem renamed_event (r : BankRow) : renamed r.event = bankEvent r.message := rfl

theorem ts_renamed (e : NormalizedEvent) : (renamed e).ts = e.ts := by
  unfold renamed
  split <;> rfl

/-- Reading the events under other names keeps their order. -/
theorem sortEvents_renamed (events : List NormalizedEvent) :
    sortEvents (events.map renamed) = (sortEvents events).map renamed := by
  unfold sortEvents
  rw [List.map_mergeSort]
  intro a _ b _
  rw [ts_renamed, ts_renamed]

/-- What is read is what is stored, under other names. -/
theorem sortEvents_read (logs : Logs) (f : WindowFilter) :
    sortEvents (logs.caEvents f ++ logs.kdcEvents f ++ logs.bankEvents f) =
      (logs.storedEvents f).map renamed := by
  rw [Logs.storedEvents, ← sortEvents_renamed, List.map_append, List.map_append, List.map_map]
  have hca : (logs.caEvents f).map renamed = logs.caEvents f := by
    rw [Logs.caEvents, List.map_map]
    rfl
  have hkdc : (logs.kdcEvents f).map renamed = logs.kdcEvents f := by
    rw [Logs.kdcEvents, List.map_map]
    rfl
  rw [hca, hkdc]
  rfl

/-! ## What a tally depends on -/

/-- The event without what is not counted. -/
def counted (e : EnrichedEvent) : EnrichedEvent := { e with action := "", description := "" }

theorem tally_counted (events : List EnrichedEvent) : tally (events.map counted) = tally events := by
  simp only [tally, List.map_map, List.filter_map]
  rfl

theorem tally_congr {events events' : List EnrichedEvent}
    (h : events.map counted = events'.map counted) : tally events = tally events' := by
  rw [← tally_counted, h, tally_counted]

/-- The classification of an action of the bank. -/
def bankClass (action : String) : AuditCategory × AuditSeverity × Bool :=
  ((categoryByAction.lookup action).getD .resourceAccess, severityOf action, isDenied action)

theorem renamed_bank {e : NormalizedEvent} (hsource : e.source = .bank) :
    renamed e = { e with action := readName e.action } := if_pos hsource

theorem renamed_other {e : NormalizedEvent} (hsource : e.source ≠ .bank) : renamed e = e :=
  if_neg hsource

/-- The other actions of the bank are classified alike under both names. -/
theorem bankClass_readName {action : String} (haction : action ∈ Bank.auditActions)
    (h : action ∉ misread) :
    bankClass (toLowerCase (readName action)) = bankClass (toLowerCase action) := by
  have hall : ∀ a ∈ Bank.auditActions, a ∉ misread →
      bankClass (toLowerCase (readName a)) = bankClass (toLowerCase a) := by decide +kernel
  exact hall action haction h

/-- What is counted of an event of the bank, by its classification. -/
theorem counted_enrich_congr {e e' : NormalizedEvent} (hsource : e.source = .bank)
    (heq : { e' with action := "" } = { e with action := "" })
    (hclass : bankClass (toLowerCase e'.action) = bankClass (toLowerCase e.action)) :
    counted (enrich e') = counted (enrich e) := by
  obtain ⟨source, action, actor, target, reason, requestID, ip, scope, ts, metadata⟩ := e
  obtain ⟨source', action', actor', target', reason', requestID', ip', scope', ts', metadata'⟩ := e'
  simp only [NormalizedEvent.mk.injEq, true_and] at heq
  obtain ⟨rfl, rfl, rfl, rfl, rfl, rfl, rfl, rfl, rfl⟩ := heq
  subst hsource
  simp only [bankClass, Prod.mk.injEq] at hclass
  obtain ⟨hcategory, hseverity, hdenied⟩ := hclass
  simp only [counted, enrich, enrichAudit, fallbackCategory, hcategory, hseverity, hdenied]

/-- The events of the bank that are classified alike under both names. -/
theorem counted_renamed {e : NormalizedEvent}
    (h : e.source = .bank → e.action ∈ Bank.auditActions ∧ e.action ∉ misread) :
    counted (enrich (renamed e)) = counted (enrich e) := by
  by_cases hsource : e.source = .bank
  · obtain ⟨haction, hread⟩ := h hsource
    rw [renamed_bank hsource]
    exact counted_enrich_congr hsource rfl (bankClass_readName haction hread)
  · rw [renamed_other hsource]

/-! ## What the counts show -/

/-- The severities are counted. -/
theorem foldl_increment_severity (l : List AuditSeverity) (i w c : ℕ) :
    (l.map AuditSeverity.text).foldl increment
        [("info", .number i), ("warning", .number w), ("critical", .number c)] =
      [("info", .number (i + l.count .info)), ("warning", .number (w + l.count .warning)),
        ("critical", .number (c + l.count .critical))] := by
  induction l generalizing i w c with
  | nil => rfl
  | cons a l ih =>
    rw [List.map_cons, List.foldl_cons]
    cases a with
    | info =>
      show List.foldl increment [("info", .number (i + 1)), ("warning", .number w),
        ("critical", .number c)] (l.map AuditSeverity.text) = _
      rw [ih]
      simp [Nat.add_comm, Nat.add_left_comm]
    | warning =>
      show List.foldl increment [("info", .number i), ("warning", .number (w + 1)),
        ("critical", .number c)] (l.map AuditSeverity.text) = _
      rw [ih]
      simp [Nat.add_comm, Nat.add_left_comm]
    | critical =>
      show List.foldl increment [("info", .number i), ("warning", .number w),
        ("critical", .number (c + 1))] (l.map AuditSeverity.text) = _
      rw [ih]
      simp [Nat.add_comm, Nat.add_left_comm]

/-- Equal tallies have as many events of each severity. -/
theorem count_severity_eq {events events' : List EnrichedEvent} (h : tally events = tally events')
    (s : AuditSeverity) :
    (events.map (·.severity)).count s = (events'.map (·.severity)).count s := by
  have hsev : (tally events).bySeverity = (tally events').bySeverity := by rw [h]
  have htext : ∀ es : List EnrichedEvent,
      (es.map (·.severity.text)) = (es.map (·.severity)).map AuditSeverity.text := by
    intro es
    rw [List.map_map]
    rfl
  simp only [tally, htext, foldl_increment_severity, List.cons.injEq, Prod.mk.injEq,
    Count.number.injEq, true_and, and_true, Nat.zero_add] at hsev
  obtain ⟨hinfo, hwarning, hcritical⟩ := hsev
  cases s with
  | info => exact hinfo
  | warning => exact hwarning
  | critical => exact hcritical

/-- Of two properties that hold equally often, one of which implies the other, the other implies
it too. -/
theorem imp_of_countP_eq {A : Type} {p q : A → Bool} {l : List A}
    (himp : ∀ a ∈ l, p a = true → q a = true) (hcount : l.countP p = l.countP q) :
    ∀ a ∈ l, q a = true → p a = true := by
  induction l with
  | nil => simp
  | cons a l ih =>
    have htail : l.countP p ≤ l.countP q :=
      List.countP_mono_left fun b hb => himp b (List.mem_cons_of_mem a hb)
    have hhead := himp a List.mem_cons_self
    rw [List.countP_cons, List.countP_cons] at hcount
    intro b hb hq
    rcases List.mem_cons.mp hb with rfl | hb
    · by_contra hp
      rw [if_neg hp, if_pos hq] at hcount
      omega
    · refine ih (fun c hc => himp c (List.mem_cons_of_mem a hc)) ?_ b hb hq
      cases hpa : p a with
      | false =>
        cases hqa : q a with
        | false => simpa [hpa, hqa] using hcount
        | true =>
          simp only [hpa, hqa, Bool.false_eq_true, if_false, if_true] at hcount
          omega
      | true =>
        have hqa : q a = true := hhead hpa
        simpa [hpa, hqa] using hcount

/-- Read events are no more severe than stored ones. -/
theorem severity_readName {action : String} (haction : action ∈ Bank.auditActions) :
    (severityOf (toLowerCase (readName action)) = .critical →
      severityOf (toLowerCase action) = .critical) ∧
    (severityOf (toLowerCase action) = .info →
      severityOf (toLowerCase (readName action)) = .info) := by
  have hall : ∀ a ∈ Bank.auditActions,
      (severityOf (toLowerCase (readName a)) = .critical →
        severityOf (toLowerCase a) = .critical) ∧
      (severityOf (toLowerCase a) = .info →
        severityOf (toLowerCase (readName a)) = .info) := by decide +kernel
  exact hall action haction

/-- An action that is classified otherwise is less severe under its other name. -/
theorem severity_misread {action : String} (h : action ∈ misread) :
    (severityOf (toLowerCase action) = .critical ∧
      severityOf (toLowerCase (readName action)) ≠ .critical) ∨
    (severityOf (toLowerCase action) ≠ .info ∧
      severityOf (toLowerCase (readName action)) = .info) := by
  have hall : ∀ a ∈ misread,
      (severityOf (toLowerCase a) = .critical ∧
        severityOf (toLowerCase (readName a)) ≠ .critical) ∨
      (severityOf (toLowerCase a) ≠ .info ∧
        severityOf (toLowerCase (readName a)) = .info) := by decide +kernel
  exact hall action h

theorem severity_enrich (e : NormalizedEvent) :
    (enrich e).severity = severityOf (toLowerCase e.action) := rfl

theorem severity_renamed {e : NormalizedEvent}
    (h : e.source = .bank → e.action ∈ Bank.auditActions) :
    ((enrich (renamed e)).severity = .critical → (enrich e).severity = .critical) ∧
    ((enrich e).severity = .info → (enrich (renamed e)).severity = .info) := by
  by_cases hsource : e.source = .bank
  · rw [renamed_bank hsource, severity_enrich, severity_enrich]
    exact severity_readName (h hsource)
  · rw [renamed_other hsource]
    exact ⟨id, id⟩

/-- If what is read is counted as what is stored, no event of the bank is classified otherwise. -/
theorem not_misread_of_tally_eq {events : List NormalizedEvent}
    (hactions : ∀ e ∈ events, e.source = .bank → e.action ∈ Bank.auditActions)
    (h : tally ((events.map renamed).map enrich) = tally (events.map enrich)) :
    ∀ e ∈ events, e.source = .bank → e.action ∉ misread := by
  have hcount : ∀ s, events.countP (fun e => (enrich (renamed e)).severity == s) =
      events.countP (fun e => (enrich e).severity == s) := by
    intro s
    have hs := count_severity_eq h s
    simp only [List.count_eq_countP, List.map_map, List.countP_map] at hs
    exact hs
  have hcritical : ∀ e ∈ events, ((enrich e).severity == .critical) = true →
      ((enrich (renamed e)).severity == .critical) = true := by
    refine imp_of_countP_eq (fun e he => ?_) (hcount .critical)
    rw [beq_iff_eq, beq_iff_eq]
    exact (severity_renamed (hactions e he)).1
  have hinfo : ∀ e ∈ events, ((enrich (renamed e)).severity == .info) = true →
      ((enrich e).severity == .info) = true := by
    refine imp_of_countP_eq (fun e he => ?_) (hcount .info).symm
    rw [beq_iff_eq, beq_iff_eq]
    exact (severity_renamed (hactions e he)).2
  intro e he hsource hmis
  have hcrit := hcritical e he
  have hinf := hinfo e he
  simp only [beq_iff_eq, renamed_bank hsource, severity_enrich] at hcrit hinf
  rcases severity_misread hmis with ⟨hstored, hread⟩ | ⟨hstored, hread⟩
  · exact hread (hcrit hstored)
  · exact hstored (hinf hread)

/-! ## The summary of what is stored -/

namespace Logs

variable {logs : Logs} {f : WindowFilter}

theorem mem_storedEvents {e : NormalizedEvent} :
    e ∈ logs.storedEvents f ↔
      e ∈ logs.caEvents f ∨ e ∈ logs.kdcEvents f ∨ ∃ r ∈ logs.bankRows f, r.event = e := by
  rw [storedEvents, sortEvents, List.mem_mergeSort, List.mem_append, List.mem_append,
    List.mem_map, or_assoc]

/-- The stored events of the bank have actions of the bank. -/
theorem action_of_mem_storedEvents {e : NormalizedEvent} (he : e ∈ logs.storedEvents f)
    (hsource : e.source = .bank) : ∃ r ∈ logs.bankRows f, r.row.action.1 = e.action := by
  rcases mem_storedEvents.mp he with hca | hkdc | ⟨r, hr, rfl⟩
  · obtain ⟨r, -, rfl⟩ := List.mem_map.mp hca
    cases hsource
  · obtain ⟨r, -, rfl⟩ := List.mem_map.mp hkdc
    cases hsource
  · exact ⟨r, hr, rfl⟩

theorem length_storedEvents (logs : Logs) (f : WindowFilter) :
    (logs.storedEvents f).length =
      (logs.caEvents f).length + (logs.kdcEvents f).length + (logs.bankEvents f).length := by
  rw [storedEvents, sortEvents, List.length_mergeSort, List.length_append, List.length_append,
    List.length_map, bankEvents, List.length_map]

end Logs

/-- The window of a summary does not end before it begins. -/
theorem summaryWindow_reversed (window : String) (now : ℤ) :
    (summaryWindow window now).reversed = false := by
  rw [WindowFilter.reversed, Bool.and_eq_false_iff, decide_eq_false_iff_not]
  right
  show ¬ now < now - parseWindowSeconds window
  omega

/-- What the summary is about, if no source has more events than the cap. -/
theorem tally_handleAuditSummary {logs : Logs} {window token : String} {now : ℤ}
    (hbank : logs.BankAnswers (summaryWindow window now) none token)
    (hcap : (logs.storedEvents (summaryWindow window now)).length < summaryCap) :
    ((handleAuditSummary window token now).answer logs.reply).toTally =
      tally (((logs.storedEvents (summaryWindow window now)).map renamed).map enrich) := by
  have hcollect := Logs.answer_collect logs none token (summaryWindow_reversed window now)
    (show 0 < summaryCap by decide)
  have hlength := Logs.length_storedEvents logs (summaryWindow window now)
  rw [hbank.reached rfl, Logs.taken_eq (by show (logs.caEvents _).length ≤ _; omega),
    Logs.taken_eq (by show (logs.kdcEvents _).length ≤ _; omega),
    Logs.taken_eq (by show (logs.bankEvents _).length ≤ _; omega)] at hcollect
  change _ = ((sortEvents (logs.caEvents _ ++ logs.kdcEvents _ ++ logs.bankEvents _)).take
    summaryCap).map enrich at hcollect
  rw [sortEvents_read, List.take_of_length_le (by rw [List.length_map]; omega)] at hcollect
  rw [handleAuditSummary, Program.answer_bind, ← hcollect]
  rfl

/-- **The summary counts what is stored** exactly if no row of the bank in its window has an
action that is classified otherwise under the name it is read with. -/
theorem summary_correct_iff (logs : Logs) (window token : String) (now : ℤ)
    (hbank : logs.BankAnswers (summaryWindow window now) none token)
    (hcap : (logs.storedEvents (summaryWindow window now)).length < summaryCap) :
    ((handleAuditSummary window token now).answer logs.reply).toTally =
        tally ((logs.storedEvents (summaryWindow window now)).map enrich) ↔
      ∀ r ∈ logs.bankRows (summaryWindow window now), r.row.action.1 ∉ misread := by
  rw [tally_handleAuditSummary hbank hcap]
  constructor
  · intro h r hr
    have hactions : ∀ e ∈ logs.storedEvents (summaryWindow window now), e.source = .bank →
        e.action ∈ Bank.auditActions := by
      intro e he hsource
      obtain ⟨r, -, hr⟩ := Logs.action_of_mem_storedEvents he hsource
      rw [← hr]
      exact r.row.action.2.2
    have hmem : r.event ∈ logs.storedEvents (summaryWindow window now) :=
      Logs.mem_storedEvents.mpr (.inr (.inr ⟨r, hr, rfl⟩))
    exact not_misread_of_tally_eq hactions h r.event hmem rfl
  · intro h
    refine tally_congr ?_
    rw [List.map_map, List.map_map, List.map_map]
    refine List.map_congr_left fun e he => counted_renamed fun hsource => ?_
    obtain ⟨r, hr, haction⟩ := Logs.action_of_mem_storedEvents he hsource
    rw [← haction]
    exact ⟨r.row.action.2.2, h r hr⟩

/-- Rows in the order of their times, those of one time as they were inserted. -/
def NewestFirst.asInserted {R M : Type} : NewestFirst R M where
  order := List.insertionSort fun r r' => r'.micros ≤ r.micros
  perm rows := List.perm_insertionSort _ rows
  sorted rows := List.pairwise_insertionSort _ rows

/-- A row of the bank with an action, and a log that has only this row. -/
def sampleBankRow (action : Checked 40 Bank.auditActions) : BankRow where
  row := {
    id := Vector.replicate 16 1, action, userID := none, accountID := none, transactionID := none,
    certSerial := none, requestID := none, reason := none, seq := 1, prevHash := none,
    hash := none }
  micros := 999999000000
  metadata := none

/-- A log whose only row is one of the bank with an action. -/
def sampleLogs (action : String) : Logs where
  ca := []
  kdc := []
  bank := ((Checked.of 40 Bank.auditActions action).map sampleBankRow).toList
  caOrder := .asInserted
  kdcOrder := .asInserted
  bankOrder := .asInserted
  session token := token = "admin"

theorem summary_of_transfer :
    ((handleAuditSummary "24h" "admin" 1000000).answer
        (sampleLogs "transfer_completed").reply).toTally =
      tally (((sampleLogs "transfer_completed").storedEvents
        (summaryWindow "24h" 1000000)).map enrich) :=
  (summary_correct_iff (sampleLogs "transfer_completed") "24h" "admin" 1000000
    (fun _ => by decide +kernel) (by decide +kernel)).mpr (by decide +kernel)

/-- A replay that the bank detected is counted as a success that is neither critical nor denied. -/
theorem replay_not_critical :
    (sampleLogs "replay_detected").BankAnswers (summaryWindow "24h" 1000000) none "admin" ∧
      ((sampleLogs "replay_detected").storedEvents (summaryWindow "24h" 1000000)).length <
        summaryCap ∧
      ((handleAuditSummary "24h" "admin" 1000000).answer
        (sampleLogs "replay_detected").reply).toTally ≠
      tally (((sampleLogs "replay_detected").storedEvents
        (summaryWindow "24h" 1000000)).map enrich) ∧
      ((handleAuditSummary "24h" "admin" 1000000).answer
        (sampleLogs "replay_detected").reply).bySeverity =
          [("info", .number 1), ("warning", .number 0), ("critical", .number 0)] ∧
      ((handleAuditSummary "24h" "admin" 1000000).answer
        (sampleLogs "replay_detected").reply).byOutcome =
          [("success", .number 1), ("denied", .number 0)] := by
  refine ⟨fun _ => by decide +kernel, by decide +kernel, by decide +kernel, by decide +kernel,
    by decide +kernel⟩

end Gateway
