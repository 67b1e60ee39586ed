import MiniBanking.Csv.Rfc4180
import MiniBanking.Gateway.AuditExport

/-!
# The audit logs as a file of comma-separated values

An export writes one line for each event. A field is put in quotes if there is a double quote, a
comma or an LF in it, but not for a CR alone, at which a reader ends the record.

## Main definitions

* `Js.toISOString`: the text of a time
* `CsvColumn`, `EnrichedEvent.column`: the columns of an event
* `csvCell`, `exportCsv`: the file

## Main results

* `written_csvCell_iff`: which fields are written correctly
* `export_csv_lossless_iff`: the events are read back exactly if no field needs quotes for a CR
  alone
-/

namespace Js

open Go

/-- `new Date(ms).toISOString()`, which throws for a time that is too far away. -/
def toISOString (ms : ℤ) : Option String :=
  if 8640000000000000 < ms.natAbs then none
  else
    let (year, month, dayOfMonth) := civil (ms / 86400000)
    let t := (ms % 86400000).toNat
    let yearText :=
      if 0 ≤ year ∧ year ≤ 9999 then padded 4 year.toNat
      else (if year < 0 then "-" else "+") ++ padded 6 year.natAbs
    some (yearText ++ "-" ++ padded 2 month.toNat ++ "-" ++ padded 2 dayOfMonth.toNat ++ "T" ++
      padded 2 (t / 3600000) ++ ":" ++ padded 2 (t / 60000 % 60) ++ ":" ++
      padded 2 (t / 1000 % 60) ++ "." ++ padded 3 (t % 1000) ++ "Z")

example : toISOString 1709210096120 = some "2024-02-29T12:34:56.120Z" := by decide

end Js

namespace Gateway

open Bank Js

/-! ## Columns -/

/-- The columns of an export. -/
inductive CsvColumn where
  | timestamp
  | source
  | category
  | severity
  | outcome
  | action
  | actorType
  | actorDisplay
  | actor
  | target
  | reason
  | requestID
  | ip
  deriving DecidableEq

/-- The name of a column. -/
def CsvColumn.name : CsvColumn → String
  | timestamp => "timestamp"
  | source => "source"
  | category => "category"
  | severity => "severity"
  | outcome => "outcome"
  | action => "action"
  | actorType => "actor_type"
  | actorDisplay => "actor_display"
  | actor => "actor"
  | target => "target"
  | reason => "reason"
  | requestID => "request_id"
  | ip => "ip"

/-- `CSV_COLUMNS` -/
def csvColumns : List CsvColumn :=
  [.timestamp, .source, .category, .severity, .outcome, .action, .actorType, .actorDisplay,
    .actor, .target, .reason, .requestID, .ip]

theorem mem_csvColumns (c : CsvColumn) : c ∈ csvColumns := by cases c <;> decide

/-- The value of a column, `undefined` as `none`. -/
def EnrichedEvent.column (e : EnrichedEvent) : CsvColumn → Option String
  | .timestamp => toISOString (1000 * e.ts)
  | .source => some e.source.text
  | .category => some e.category.text
  | .severity => some e.severity.text
  | .outcome => some e.outcome.text
  | .action => some e.action
  | .actorType => some e.actorType.text
  | .actorDisplay => some e.actorDisplay
  | .actor => some e.actor
  | .target => some e.target
  | .reason => some e.reason
  | .requestID => some e.requestID
  | .ip => some e.ip

/-! ## The file -/

/-- `/[",\n]/.test(s)` -/
def needsQuotes (s : String) : Bool := s.toList.any fun c => c = '"' || c = ',' || c = '\n'

/-- `s.replace(/"/g, '""')` -/
def doubleQuotes (s : String) : String :=
  String.ofList (s.toList.flatMap fun c => if c = '"' then ['"', '"'] else [c])

/-- `csvCell` -/
def csvCell (value : Option String) : String :=
  let s := value.getD ""
  if needsQuotes s then "\"" ++ doubleQuotes s ++ "\"" else s

/-- What `handleAuditExport` sends of some events as a file of comma-separated values. -/
def exportCsv (events : List (CsvColumn → Option String)) : String :=
  let header := ",".intercalate (csvColumns.map CsvColumn.name)
  let rows := events.map fun e => ",".intercalate (csvColumns.map fun c => csvCell (e c))
  "\n".intercalate (header :: rows)

/-- The names of the columns. -/
def csvHeader : Csv.Record := csvColumns.map CsvColumn.name

/-- The strings of an event. -/
def csvRecord (e : CsvColumn → Option String) : Csv.Record := csvColumns.map fun c => (e c).getD ""

/-! ## Reading it back -/

theorem csvCell_of_needsQuotes {s : String} (h : needsQuotes s = true) :
    csvCell (some s) = Csv.quoted s := by
  refine String.toList_inj.mp ?_
  simp only [csvCell, Option.getD_some, h, if_true, String.toList_append, Csv.quoted,
    String.toList_ofList, doubleQuotes, Csv.doubled]
  rfl

theorem csvCell_of_not_needsQuotes {s : String} (h : needsQuotes s = false) :
    csvCell (some s) = s := by
  simp [csvCell, h]

theorem csvCell_getD (value : Option String) : csvCell (some (value.getD "")) = csvCell value := rfl

theorem needsQuotes_eq_false {s : String} :
    needsQuotes s = false ↔ ∀ c ∈ s.toList, c ≠ '"' ∧ c ≠ ',' ∧ c ≠ '\n' := by
  simp [needsQuotes, not_or, and_assoc]

/-- A field that is left as it is has no character that must be quoted, but for a CR. -/
theorem isSpecial_eq_false {s : String} (h : needsQuotes s = false) {c : Char} (hc : c ∈ s.toList)
    (hreturn : c ≠ '\r') : Csv.isSpecial c = false := by
  obtain ⟨hquote, hcomma, hnewline⟩ := needsQuotes_eq_false.mp h c hc
  simp [Csv.isSpecial, hquote, hcomma, hnewline, hreturn]

/-- A field is written correctly, or it is left as it is with a CR in it. -/
theorem written_or_cut (s : String) :
    Csv.Written s (csvCell (some s)) ∨ Csv.Cut s (csvCell (some s)) := by
  cases h : needsQuotes s with
  | true => exact .inl (.inl (csvCell_of_needsQuotes h))
  | false =>
    rw [csvCell_of_not_needsQuotes h]
    by_cases hreturn : '\r' ∈ s.toList
    · obtain ⟨u, v, hsplit, hu⟩ := List.eq_append_cons_of_mem hreturn
      refine .inr ⟨rfl, u, v, hsplit, fun c hc => ?_⟩
      exact isSpecial_eq_false h (hsplit ▸ List.mem_append_left _ hc) fun heq => hu (heq ▸ hc)
    · exact .inl (.inr ⟨rfl, fun c hc => isSpecial_eq_false h hc fun heq => hreturn (heq ▸ hc)⟩)

/-- **A field is written correctly** unless a CR is all that would need quotes. -/
theorem written_csvCell_iff (s : String) :
    Csv.Written s (csvCell (some s)) ↔ ('\r' ∈ s.toList → needsQuotes s = true) := by
  cases h : needsQuotes s with
  | true => simp [Csv.Written, csvCell_of_needsQuotes h]
  | false =>
    rw [csvCell_of_not_needsQuotes h]
    constructor
    · rintro (hquoted | ⟨-, hbare⟩) hreturn
      · have hmem : '"' ∈ s.toList := by
          rw [hquoted, Csv.quoted, String.toList_ofList]
          exact List.mem_cons_self
        exact absurd rfl (needsQuotes_eq_false.mp h _ hmem).1
      · exact absurd (hbare _ hreturn) (by decide)
    · intro hreturn
      refine .inr ⟨rfl, fun c hc => isSpecial_eq_false h hc ?_⟩
      rintro rfl
      exact absurd (hreturn hc) Bool.false_ne_true

/-- The name of a column is written as it is. -/
theorem csvCell_name (c : CsvColumn) : csvCell (some c.name) = c.name := by cases c <;> decide

theorem name_written (c : CsvColumn) : '\r' ∈ c.name.toList → needsQuotes c.name = true := by
  cases c <;> decide

/-- The file as records that are written field by field. -/
theorem exportCsv_eq (events : List (CsvColumn → Option String)) :
    exportCsv events =
      Csv.text ((csvHeader :: events.map csvRecord).map (·.map fun s => csvCell (some s))) := by
  have hheader : csvHeader.map (fun s => csvCell (some s)) = csvColumns.map CsvColumn.name := by
    rw [csvHeader, List.map_map]
    exact List.map_congr_left fun c _ => csvCell_name c
  have hrecord : ∀ e, (csvRecord e).map (fun s => csvCell (some s)) =
      csvColumns.map fun c => csvCell (e c) := fun e => by
    rw [csvRecord, List.map_map]
    rfl
  rw [Csv.text, exportCsv, List.map_cons, List.map_cons, List.map_map, List.map_map, hheader]
  simp only [Function.comp_def, hrecord]

/-- **An export is read back, header and events, exactly if no field has a CR without having a
double quote, a comma or an LF as well.** -/
theorem export_csv_lossless_iff (events : List (CsvColumn → Option String)) :
    Csv.read (exportCsv events) = some (csvHeader :: events.map csvRecord) ↔
      ∀ e ∈ events, ∀ c, '\r' ∈ ((e c).getD "").toList → needsQuotes ((e c).getD "") = true := by
  have hlength : ∀ row ∈ csvHeader :: events.map csvRecord, 2 ≤ row.length := by
    intro row hrow
    rcases List.mem_cons.mp hrow with rfl | hrow
    · decide
    · obtain ⟨e, -, rfl⟩ := List.mem_map.mp hrow
      simp [csvRecord, csvColumns]
  rw [exportCsv_eq, Csv.read_text_iff hlength fun row _ s _ => written_or_cut s]
  simp only [written_csvCell_iff]
  constructor
  · intro h e he c
    exact h (csvRecord e) (List.mem_cons_of_mem _ (List.mem_map_of_mem he)) _
      (List.mem_map_of_mem (mem_csvColumns c))
  · intro h row hrow s hs
    rcases List.mem_cons.mp hrow with rfl | hrow
    · obtain ⟨c, -, rfl⟩ := List.mem_map.mp hs
      exact name_written c
    · obtain ⟨e, he, rfl⟩ := List.mem_map.mp hrow
      obtain ⟨c, -, rfl⟩ := List.mem_map.mp hs
      exact h e he c

/-- The event of a revocation whose reason an administrator sent with a CR in it. -/
def sampleRevoked : EnrichedEvent :=
  enrich (caEvent ⟨"01", "revoked", "root", "lost\rstolen", 1700000000, []⟩)

/-- **A revocation's reason with a CR in it is read as the end of its record.** -/
theorem revocation_reason_cut :
    ¬ ∀ items : List EnrichedEvent,
      Csv.read (exportCsv (items.map EnrichedEvent.column)) =
        some (csvHeader :: items.map fun e => csvRecord e.column) := by
  intro h
  have hread := h [sampleRevoked]
  have hlengths : (Csv.read (exportCsv [sampleRevoked.column])).map List.length = some 3 := by
    decide +kernel
  rw [List.map_singleton] at hread
  rw [hread] at hlengths
  exact absurd hlengths (by decide)

end Gateway
