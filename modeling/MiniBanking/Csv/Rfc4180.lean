import Mathlib.Data.List.Basic
import Mathlib.Data.List.Forall2

/-!
# Comma-separated values

Records are lines of fields that are separated by commas. A field may stand in double quotes, and
must if a comma, a double quote or a line break is in it; within the quotes a double quote is
written twice. A record ends with LF, CR or CRLF.

## Main definitions

* `scan`, `read`: the reader of RFC 4180, one character at a time
* `quoted`, `Bare`: the two correct ways to write a field
* `text`: the records of a file, one a line

## Main results

* `scan_written`: a field that is written correctly is read back
* `read_text`: so are the records of a file
* `read_text_iff`: if a writer leaves fields with CR as they are, these are the ones it loses
-/

namespace Csv

/-! ## Reading -/

/-- Where the reader is. -/
inductive Mode where
  /-- At the start of a record. -/
  | start
  /-- At the start of another field of the record. -/
  | field
  /-- In a field without quotes. -/
  | bare
  /-- In a field with quotes. -/
  | quoted
  /-- After a quote in such a field. -/
  | quote
  /-- After the CR that ended a record. -/
  | carriage
  deriving DecidableEq

abbrev Record := List String

/-- The records of the characters that are left, after the fields `record` and the characters
`field` of the one that is being read. -/
def scan (mode : Mode) (record : Record) (field : List Char) : List Char → Option (List Record)
  | [] => match mode with
    | .start | .carriage => some []
    | .quoted => none
    | _ => some [record ++ [String.ofList field]]
  | c :: cs =>
    if mode = .quoted then
      if c = '"' then scan .quote record field cs else scan .quoted record (field ++ [c]) cs
    else if mode = .carriage ∧ c = '\n' then scan .start [] [] cs
    else if c = '"' then
      match mode with
      | .bare => none
      | .quote => scan .quoted record (field ++ [c]) cs
      | _ => scan .quoted record field cs
    else if c = ',' then scan .field (record ++ [String.ofList field]) [] cs
    else if c = '\n' then (scan .start [] [] cs).map ((record ++ [String.ofList field]) :: ·)
    else if c = '\r' then (scan .carriage [] [] cs).map ((record ++ [String.ofList field]) :: ·)
    else if mode = .quote then none
    else scan .bare record (field ++ [c]) cs

/-- The records of a file. -/
def read (s : String) : Option (List Record) := scan .start [] [] s.toList

example : read "a,\"b,\"\"c\r\n\"\r\n,\n" = some [["a", "b,\"c\r\n"], ["", ""]] := by decide +kernel

/-! ## Writing -/

/-- A character that must stand in quotes. -/
def isSpecial (c : Char) : Bool := c = '"' || c = ',' || c = '\n' || c = '\r'

/-- A field that may be written without quotes. -/
def Bare (s : String) : Prop := ∀ c ∈ s.toList, isSpecial c = false

/-- The characters within quotes: every quote is written twice. -/
def doubled (cs : List Char) : List Char := cs.flatMap fun c => if c = '"' then ['"', '"'] else [c]

/-- A field in quotes. -/
def quoted (s : String) : String := String.ofList ('"' :: doubled s.toList ++ ['"'])

/-- The field is written correctly. -/
def Written (s w : String) : Prop := w = quoted s ∨ w = s ∧ Bare s

/-- A file of records that are written already. -/
def text (rows : List Record) : String := "\n".intercalate (rows.map (",".intercalate ·))

/-! ## Fields -/

-- the equations of the reader are derived here, once for all proofs that rewrite with them
section Equations

attribute [local simp] scan

end Equations

section Fields

variable {mode : Mode} {record : Record} {field rest : List Char}

theorem scan_doubled (cs field rest : List Char) :
    scan .quoted record field (doubled cs ++ '"' :: rest) =
      scan .quote record (field ++ cs) rest := by
  induction cs generalizing field with
  | nil => simp [doubled, scan]
  | cons c cs ih =>
    by_cases hc : c = '"'
    · subst hc
      have := ih (field ++ ['"'])
      simpa [doubled, scan] using this
    · have := ih (field ++ [c])
      simpa [doubled, scan, hc] using this

/-- Characters that need no quotes are read as they are. -/
theorem scan_bare {cs : List Char} (hcs : ∀ c ∈ cs, isSpecial c = false) (hne : cs ≠ [])
    (hmode : mode = .start ∨ mode = .field ∨ mode = .bare) :
    scan mode record field (cs ++ rest) = scan .bare record (field ++ cs) rest := by
  induction cs generalizing mode field with
  | nil => exact absurd rfl hne
  | cons c cs ih =>
    have hc := hcs c List.mem_cons_self
    simp only [isSpecial, Bool.or_eq_false_iff, decide_eq_false_iff_not] at hc
    have hstep : scan mode record field (c :: (cs ++ rest)) =
        scan .bare record (field ++ [c]) (cs ++ rest) := by
      rcases hmode with rfl | rfl | rfl <;> simp [scan, hc]
    rw [List.cons_append, hstep]
    cases cs with
    | nil => rfl
    | cons d ds =>
      have htail := fun c hc => hcs c (List.mem_cons_of_mem _ hc)
      rw [ih htail (List.cons_ne_nil _ _) (.inr (.inr rfl)), List.append_assoc,
        List.singleton_append]

/-- A comma ends a field. -/
theorem scan_comma (h : mode ≠ .quoted) (field cs : List Char) :
    scan mode record field (',' :: cs) = scan .field (record ++ [String.ofList field]) [] cs := by
  simp [scan, h]

/-- LF ends a record. -/
theorem scan_newline (h : mode ≠ .quoted) (h' : mode ≠ .carriage) (field cs : List Char) :
    scan mode record field ('\n' :: cs) =
      (scan .start [] [] cs).map ((record ++ [String.ofList field]) :: ·) := by
  simp [scan, h, h']

/-- CR ends a record. -/
theorem scan_return (h : mode ≠ .quoted) (field cs : List Char) :
    scan mode record field ('\r' :: cs) =
      (scan .carriage [] [] cs).map ((record ++ [String.ofList field]) :: ·) := by
  simp [scan, h]

/-- **A field that is written correctly is read back.** What the reader does next depends on what
follows. -/
theorem scan_written {s w : String} (h : Written s w) (hmode : mode = .start ∨ mode = .field) :
    ∃ after : Mode, after ≠ .quoted ∧ after ≠ .carriage ∧ (mode = .field → after ≠ .start) ∧
      ∀ rest, scan mode record [] (w.toList ++ rest) = scan after record s.toList rest := by
  obtain rfl | ⟨rfl, hbare⟩ := h
  · refine ⟨.quote, by decide, by decide, fun _ => by decide, fun rest => ?_⟩
    have hopen : scan mode record [] ('"' :: (doubled s.toList ++ '"' :: rest)) =
        scan .quoted record [] (doubled s.toList ++ '"' :: rest) := by
      rcases hmode with rfl | rfl <;> simp [scan]
    rw [quoted, String.toList_ofList, List.cons_append, List.cons_append, List.append_assoc,
      List.singleton_append, hopen, scan_doubled, List.nil_append]
  · by_cases hempty : w.toList = []
    · rw [hempty]
      refine ⟨mode, ?_, ?_, ?_, fun rest => rfl⟩ <;> rcases hmode with rfl | rfl <;> decide
    · refine ⟨.bare, by decide, by decide, fun _ => by decide, fun rest => ?_⟩
      rw [scan_bare hbare hempty (hmode.imp_right .inl), List.nil_append]

end Fields

/-! ## Records -/

section Records

variable {cell : String → String}

theorem line_cons (w w' : String) (ws : List String) :
    (",".intercalate (w :: w' :: ws)).toList =
      w.toList ++ ',' :: (",".intercalate (w' :: ws)).toList := by
  rw [String.intercalate_cons_cons, String.toList_append, String.toList_append, List.append_assoc]
  rfl

theorem text_cons (row row' : Record) (rows : List Record) :
    (text (row :: row' :: rows)).toList =
      (",".intercalate row).toList ++ '\n' :: (text (row' :: rows)).toList := by
  rw [text, List.map_cons, List.map_cons, String.intercalate_cons_cons, String.toList_append,
    String.toList_append, List.append_assoc]
  rfl

/-- The fields in front of another one are read back. -/
theorem scan_fields {front : List String} (h : ∀ s ∈ front, Written s (cell s)) {mode : Mode}
    (hmode : mode = .start ∨ mode = .field) (record : Record) (t : String) (back : List String) :
    ∃ mode', (mode' = .start ∨ mode' = .field) ∧ (front ≠ [] ∨ mode = .field → mode' = .field) ∧
      ∀ rest,
        scan mode record [] ((",".intercalate ((front ++ t :: back).map cell)).toList ++ rest) =
          scan mode' (record ++ front) []
            ((",".intercalate ((t :: back).map cell)).toList ++ rest) := by
  induction front generalizing mode record with
  | nil =>
    refine ⟨mode, hmode, fun hfront => hfront.resolve_left (· rfl), fun rest => ?_⟩
    rw [List.append_nil, List.nil_append]
  | cons s front ih =>
    obtain ⟨after, hquoted, -, -, hscan⟩ :=
      @scan_written mode record s (cell s) (h s List.mem_cons_self) hmode
    obtain ⟨mode', hmode', hfield, hrest⟩ :=
      ih (fun u hu => h u (List.mem_cons_of_mem _ hu)) (.inr rfl) (record ++ [s])
    refine ⟨mode', hmode', fun _ => hfield (.inr rfl), fun rest => ?_⟩
    obtain ⟨u, us, hus⟩ : ∃ u us, front ++ t :: back = u :: us :=
      List.exists_cons_of_ne_nil (by simp)
    have hrest := hrest rest
    rw [hus] at hrest
    rw [List.cons_append, hus, List.map_cons, List.map_cons, line_cons, List.append_assoc, hscan,
      List.cons_append, scan_comma hquoted, String.ofList_toList, ← List.map_cons, hrest,
      List.append_assoc, List.singleton_append]

/-- A record that is written correctly is read back but for the end of its last field. -/
theorem scan_line {ss : List String} (hne : ss ≠ []) (h : ∀ s ∈ ss, Written s (cell s))
    {mode : Mode} (hmode : mode = .start ∨ mode = .field) (record : Record) :
    ∃ after front last, ss = front ++ [last] ∧ after ≠ .quoted ∧ after ≠ .carriage ∧
      (2 ≤ ss.length → after ≠ .start) ∧
      ∀ rest, scan mode record [] ((",".intercalate (ss.map cell)).toList ++ rest) =
        scan after (record ++ front) last.toList rest := by
  obtain ⟨front, last, rfl⟩ : ∃ front last, ss = front ++ [last] :=
    ⟨ss.dropLast, ss.getLast hne, (List.dropLast_append_getLast hne).symm⟩
  obtain ⟨mode', hmode', hfield, hfront⟩ :=
    scan_fields (fun s hs => h s (List.mem_append_left _ hs)) hmode record last []
  obtain ⟨after, hquoted, hcarriage, hstart, hlast⟩ :=
    @scan_written mode' (record ++ front) last (cell last) (h last (by simp)) hmode'
  refine ⟨after, front, last, rfl, hquoted, hcarriage, fun hlength => hstart (hfield (.inl ?_)),
    fun rest => ?_⟩
  · rintro rfl
    simp at hlength
  · rw [hfront, List.map_singleton, String.intercalate_singleton, hlast]

/-- **The records of a file whose fields are written correctly are read back.** -/
theorem read_text {rows : List Record} (hlength : ∀ row ∈ rows, 2 ≤ row.length)
    (h : ∀ row ∈ rows, ∀ s ∈ row, Written s (cell s)) :
    read (text (rows.map (·.map cell))) = some rows := by
  show scan .start [] [] _ = _
  induction rows with
  | nil => rfl
  | cons row rows ih =>
    have hrow := hlength row List.mem_cons_self
    have hne : row ≠ [] := by
      rintro rfl
      cases hrow
    obtain ⟨after, front, last, heq, hquoted, hcarriage, hstart, hscan⟩ :=
      scan_line hne (h row List.mem_cons_self) (.inl rfl) []
    have ih := ih (fun row' hr => hlength row' (List.mem_cons_of_mem _ hr))
      fun row' hr => h row' (List.mem_cons_of_mem _ hr)
    cases rows with
    | nil =>
      have hline : (text [row.map cell]).toList =
          (",".intercalate (row.map cell)).toList ++ [] := by
        rw [text, List.map_singleton, String.intercalate_singleton, List.append_nil]
      rw [List.map_singleton, hline, hscan, heq]
      have hstart := hstart hrow
      cases after <;> simp_all [scan]
    | cons row' rows =>
      rw [List.map_cons, List.map_cons, text_cons, hscan, scan_newline hquoted hcarriage,
        ← List.map_cons, ih, String.ofList_toList, heq]
      rfl

end Records

/-! ## Fields that are cut -/

section Cut

variable {cell : String → String}

/-- A field that is written as it is, although there is a CR in it. -/
structure Cut (s w : String) : Prop where
  same : w = s
  split : ∃ u v, s.toList = u ++ '\r' :: v ∧ ∀ c ∈ u, isSpecial c = false

/-- The record of such a field ends at its CR. -/
theorem scan_cut {s w : String} (h : Cut s w) {mode : Mode}
    (hmode : mode = .start ∨ mode = .field) (record : Record) (rest : List Char) :
    ∃ field records, field ≠ s ∧
      scan mode record [] (w.toList ++ rest) = Option.map ((record ++ [field]) :: ·) records := by
  obtain ⟨rfl, u, v, hsplit, hu⟩ := h
  refine ⟨String.ofList u, scan .carriage [] [] (v ++ rest), ?_, ?_⟩
  · rintro rfl
    rw [String.toList_ofList] at hsplit
    have := congrArg List.length hsplit
    simp at this
  · rw [hsplit, List.append_assoc, List.cons_append]
    by_cases hempty : u = []
    · subst hempty
      rw [List.nil_append, scan_return (by rcases hmode with rfl | rfl <;> decide)]
    · rw [scan_bare hu hempty (hmode.imp_right .inl), scan_return (by decide), List.nil_append]

/-- **A record with a field that is cut is not read back.** -/
theorem scan_line_cut {ss : List String} (h : ∀ s ∈ ss, Written s (cell s) ∨ Cut s (cell s))
    (hcut : ¬ ∀ s ∈ ss, Written s (cell s)) {mode : Mode} (hmode : mode = .start ∨ mode = .field)
    (record : Record) (rest : List Char) :
    ∃ row records, row ≠ record ++ ss ∧
      scan mode record [] ((",".intercalate (ss.map cell)).toList ++ rest) =
        Option.map (row :: ·) records := by
  induction ss generalizing mode record with
  | nil => exact absurd (fun s hs => absurd hs List.not_mem_nil) hcut
  | cons s ss ih =>
    have hline : ∃ tail,
        (",".intercalate ((s :: ss).map cell)).toList = (cell s).toList ++ tail := by
      cases ss with
      | nil => exact ⟨[], by rw [List.map_singleton, String.intercalate_singleton, List.append_nil]⟩
      | cons s' ss => exact ⟨_, line_cons _ _ _⟩
    rcases h s List.mem_cons_self with hs | hs
    · -- the field that is cut comes later
      obtain ⟨after, hquoted, -, -, hscan⟩ := @scan_written mode record s (cell s) hs hmode
      have hlater : ¬ ∀ s ∈ ss, Written s (cell s) := fun hall =>
        hcut (List.forall_mem_cons.mpr ⟨hs, hall⟩)
      obtain ⟨row, records, hrow, hrest⟩ :=
        ih (fun t ht => h t (List.mem_cons_of_mem _ ht)) hlater (.inr rfl) (record ++ [s])
      refine ⟨row, records, ?_, ?_⟩
      · rwa [List.append_assoc, List.singleton_append] at hrow
      cases ss with
      | nil => exact absurd (fun s hs => absurd hs List.not_mem_nil) hlater
      | cons s' ss =>
        rw [List.map_cons, List.map_cons, line_cons, List.append_assoc, hscan, List.cons_append,
          scan_comma hquoted, String.ofList_toList, ← List.map_cons, hrest]
    · obtain ⟨tail, htail⟩ := hline
      obtain ⟨field, records, hfield, hscan⟩ := scan_cut hs hmode record (tail ++ rest)
      refine ⟨record ++ [field], records, ?_, ?_⟩
      · intro heq
        exact hfield (List.cons.inj (List.append_cancel_left heq)).1
      · rw [htail, List.append_assoc, hscan]

/-- **A writer that writes correctly, or leaves a field with CR as it is, loses nothing exactly if
it writes all fields correctly.** -/
theorem read_text_iff {rows : List Record} (hlength : ∀ row ∈ rows, 2 ≤ row.length)
    (h : ∀ row ∈ rows, ∀ s ∈ row, Written s (cell s) ∨ Cut s (cell s)) :
    read (text (rows.map (·.map cell))) = some rows ↔
      ∀ row ∈ rows, ∀ s ∈ row, Written s (cell s) := by
  refine ⟨fun hread => ?_, read_text hlength⟩
  replace hread : scan .start [] [] _ = _ := hread
  induction rows with
  | nil => exact fun row hrow => absurd hrow List.not_mem_nil
  | cons row rows ih =>
    have hline : ∃ tail, (text ((row :: rows).map (·.map cell))).toList =
        (",".intercalate (row.map cell)).toList ++ tail := by
      cases rows with
      | nil =>
        refine ⟨[], ?_⟩
        rw [List.map_singleton, text, List.map_singleton, String.intercalate_singleton,
          List.append_nil]
      | cons row' rows => exact ⟨_, text_cons _ _ _⟩
    have hrow : ∀ s ∈ row, Written s (cell s) := by
      by_contra hcut
      obtain ⟨tail, htail⟩ := hline
      obtain ⟨row', records, hne, hscan⟩ :=
        scan_line_cut (h row List.mem_cons_self) hcut (.inl rfl) [] tail
      rw [htail, hscan] at hread
      cases records with
      | none => cases hread
      | some records => exact hne (List.cons.inj (Option.some.inj hread)).1
    refine List.forall_mem_cons.mpr ⟨hrow, ?_⟩
    refine ih (fun row' hr => hlength row' (List.mem_cons_of_mem _ hr))
      (fun row' hr => h row' (List.mem_cons_of_mem _ hr)) ?_
    -- what is left of the file is read on its own
    have hne : row ≠ [] := by
      rintro rfl
      cases hlength [] List.mem_cons_self
    obtain ⟨after, front, last, heq, hquoted, hcarriage, -, hscan⟩ :=
      scan_line hne hrow (.inl rfl) []
    cases rows with
    | nil => rfl
    | cons row' rows =>
      rw [List.map_cons, List.map_cons, text_cons, hscan, scan_newline hquoted hcarriage,
        ← List.map_cons] at hread
      obtain ⟨records, hrecords, hcons⟩ := Option.map_eq_some_iff.mp hread
      rw [hrecords, (List.cons.inj hcons).2]

end Cut

end Csv
