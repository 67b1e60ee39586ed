import MiniBanking.Audit.Chain
import MiniBanking.Go.Text
import Mathlib.Data.List.FinRange
import Mathlib.Data.List.Induction

/-!
# What a hash chain shows of later changes

The replay of a chained log sees a change of a row only through the text that the hash of the row
covers. The text is the hash before it and the fields, with a separator before each field; a field
that has the separator in it can be cut elsewhere without a change of the text.

## Main definitions

* `Edit`: a row before and after its fields were changed
* `joined`, `covered`, `chainHash`: the text of the fields, the bytes a hash covers, the hash
* `Collides`: two texts with one hash

## Main results

* `joined_eq_joined`: without separators in the fields the text has the fields
* `verify_edits`: an edit is found exactly if the text of a chained row changes
* `verify_kept`: the deletion of rows is found exactly if a row before a deleted one is left
* `verify_permuted`: any other order of the contents is found
-/

namespace Audit

open Go

/-! ## The hash of a row -/

/-- The separator of the fields. -/
def separator : Char := '\x1f'

/-- The text of some fields: the separator stands before each of them. -/
def joined (fields : List String) : List Char := fields.flatMap fun f => separator :: f.toList

/-- The bytes that the hash of a row covers. -/
def covered (prev : String) (fields : List String) : List UInt8 :=
  utf8 prev ++ fields.flatMap fun f => 0x1f :: utf8 f

/-- The hash of a row. -/
def chainHash (sha256 : List UInt8 → Vector UInt8 32) (prev : String) (fields : List String) :
    String :=
  hex (sha256 (covered prev fields)).toList

@[simp] theorem joined_nil : joined [] = [] := rfl

@[simp] theorem joined_cons (f : String) (fields : List String) :
    joined (f :: fields) = separator :: (f.toList ++ joined fields) := rfl

theorem covered_eq (prev : String) (fields : List String) :
    covered prev fields = encode (prev.toList ++ joined fields) := by
  have hprev : utf8 prev = encode prev.toList := by
    rw [← utf8_ofList, String.ofList_toList]
  have hfields : (fields.flatMap fun f => 0x1f :: utf8 f) = encode (joined fields) := by
    induction fields with
    | nil => rfl
    | cons f fields ih =>
      have hf : utf8 f = encode f.toList := by rw [← utf8_ofList, String.ofList_toList]
      have hsep : String.utf8EncodeChar separator = [0x1f] := by decide
      rw [List.flatMap_cons, ih, joined_cons, encode_cons, hsep, encode_append, hf]
      rfl
  rw [covered, hprev, hfields, encode_append]

/-- After the same hash, the bytes are those of the same text. -/
theorem covered_eq_covered {prev : String} {fields fields' : List String} :
    covered prev fields = covered prev fields' ↔ joined fields = joined fields' := by
  rw [covered_eq, covered_eq, encode_injective.eq_iff, List.append_right_inj]

/-- The separators in the text of some fields are those before the fields and those in them. -/
theorem count_joined (fields : List String) :
    (joined fields).count separator =
      fields.length + (fields.map fun f => f.toList.count separator).sum := by
  induction fields with
  | nil => rfl
  | cons f fields ih =>
    rw [joined_cons, List.count_cons_self, List.count_append, ih, List.map_cons, List.sum_cons,
      List.length_cons]
    omega

/-- The rest of a text starts with a separator, if there is one. -/
theorem takeWhile_joined {cs : List Char} (h : separator ∉ cs) (fields : List String) :
    (cs ++ joined fields).takeWhile (· ≠ separator) = cs := by
  have hcs : ∀ c ∈ cs, (decide (c ≠ separator)) = true := fun c hc =>
    decide_eq_true fun heq => h (heq ▸ hc)
  rw [List.takeWhile_append_of_pos hcs]
  cases fields with
  | nil => simp
  | cons f fields => simp

/-- **Without separators in the fields the text has the fields**: as many fields with the same
text are the same. -/
theorem joined_eq_joined {fields fields' : List String} (hlen : fields'.length = fields.length)
    (hsep : ∀ f ∈ fields, separator ∉ f.toList) (h : joined fields = joined fields') :
    fields = fields' := by
  -- as many separators are left over for the fields on the right, namely none
  have hcount := congrArg (List.count separator) h
  rw [count_joined, count_joined, hlen, Nat.add_left_cancel_iff] at hcount
  have hzero : (fields.map fun f => f.toList.count separator).sum = 0 := by
    rw [List.sum_eq_zero_iff_forall_eq_nat]
    simp only [List.mem_map]
    rintro n ⟨f, hf, rfl⟩
    exact List.count_eq_zero.mpr (hsep f hf)
  have hsep' : ∀ f ∈ fields', separator ∉ f.toList := by
    intro f hf
    rw [hzero] at hcount
    exact List.count_eq_zero.mp (List.sum_eq_zero_iff_forall_eq_nat.mp hcount.symm _
      (List.mem_map.mpr ⟨f, hf, rfl⟩))
  clear hcount hzero
  induction fields generalizing fields' with
  | nil => exact (List.length_eq_zero_iff.mp hlen).symm
  | cons f fields ih =>
    cases fields' with
    | nil => simp at hlen
    | cons f' fields' =>
      obtain ⟨hf, hfields⟩ := List.forall_mem_cons.mp hsep
      obtain ⟨hf', hfields'⟩ := List.forall_mem_cons.mp hsep'
      have htext : f.toList ++ joined fields = f'.toList ++ joined fields' := by
        simpa using h
      have hhead : f.toList = f'.toList := by
        rw [← takeWhile_joined hf fields, htext, takeWhile_joined hf']
      rw [hhead, List.append_right_inj] at htext
      rw [String.toList_injective hhead,
        ih (by simpa using hlen) hfields htext hfields']

/-! ## Tables -/

/-- A table that holds a chained log: how its rows are read back and numbered. -/
structure Table (R : Type) where
  read : R → Row
  renumber : ℤ → R → R
  read_renumber : ∀ n r, read (renumber n r) = { read r with seq := n }

variable {R : Type}

namespace Table

variable (T : Table R)

/-- The rows of a table, as a replay reads them. -/
def rows (rs : List R) : List Row := rs.map T.read

/-- The same row before and after an edit, which leaves its number and its two hashes. -/
structure Edit where
  before : R
  after : R
  seq : (T.read after).seq = (T.read before).seq
  prevHash : (T.read after).prevHash = (T.read before).prevHash
  hash : (T.read after).hash = (T.read before).hash

/-- The table before some edits. -/
def before (es : List T.Edit) : List R := es.map (·.before)

/-- The table after them. -/
def after (es : List T.Edit) : List R := es.map (·.after)

/-- The rows that are left when those with other numbers are deleted. -/
def kept (rs : List R) (keep : ℤ → Bool) : List R := rs.filter fun r => keep (T.read r).seq

/-- The contents of the rows, in another order over the same numbers. -/
def permuted (rs : List R) (σ : Equiv.Perm (Fin rs.length)) : List R :=
  List.ofFn fun i => T.renumber (T.read (rs.get i)).seq (rs.get (σ i))

end Table

/-! ## Edits -/

section Edits

variable {T : Table R} {H : String → List String → String}

/-- Links are about the two hashes of a row only. -/
theorem linked_congr {α : Type} {f g : α → Row} {l : List α}
    (h : ∀ x ∈ l, (g x).prevHash = (f x).prevHash ∧ (g x).hash = (f x).hash) (prev : String) :
    Linked prev (l.map g) ↔ Linked prev (l.map f) := by
  induction l generalizing prev with
  | nil => exact Iff.rfl
  | cons x l ih =>
    obtain ⟨⟨hprev, hhash⟩, hl⟩ := List.forall_mem_cons.mp h
    simp only [List.map_cons, Linked, hprev, hhash, ih hl]

/-- An edit leaves the order of the rows. -/
theorem bySeq_map {α : Type} {f : α → Row} {l : List α} {key : α → ℤ}
    (h : ∀ x, (f x).seq = key x) :
    bySeq (l.map f) = (l.insertionSort fun x y => key x ≤ key y).map f := by
  refine (List.map_insertionSort _ _ f l fun x _ y _ => ?_).symm
  rw [h, h]

/-- **An edit is found** exactly if the hash of a chained row is no longer the one of what is
read. -/
theorem verify_edits {es : List T.Edit} (h : (verify H (T.rows (T.before es))).ok = true) :
    (verify H (T.rows (T.after es))).ok = false ↔ ∃ e ∈ es, (T.read e.before).hash ≠ "" ∧
      H (T.read e.before).prevHash (T.read e.after).fields ≠
        H (T.read e.before).prevHash (T.read e.before).fields := by
  simp only [Table.rows, Table.before, Table.after, List.map_map] at h ⊢
  rw [← Bool.not_eq_true, verify_ok]
  rw [verify_ok] at h
  -- both tables are read in the same order, and the same rows are chained
  generalize hsorted : es.insertionSort (fun e e' => (T.read e.before).seq ≤
    (T.read e'.before).seq) = sorted at h ⊢
  have hbefore : bySeq (es.map (T.read ∘ (·.before))) = sorted.map (T.read ∘ (·.before)) := by
    rw [← hsorted]
    exact bySeq_map fun e => rfl
  have hafter : bySeq (es.map (T.read ∘ (·.after))) = sorted.map (T.read ∘ (·.after)) := by
    rw [← hsorted]
    exact bySeq_map fun e => e.seq
  have hcb : chained (sorted.map (T.read ∘ (·.before))) =
      (sorted.filter fun e => (T.read e.before).hash ≠ "").map (T.read ∘ (·.before)) := by
    rw [chained, List.filter_map]
    rfl
  have hca : chained (sorted.map (T.read ∘ (·.after))) =
      (sorted.filter fun e => (T.read e.before).hash ≠ "").map (T.read ∘ (·.after)) := by
    rw [chained, List.filter_map]
    congr 1
    refine List.filter_congr fun e _ => ?_
    simp [e.hash]
  have hmem : ∀ e, e ∈ sorted.filter (fun e => (T.read e.before).hash ≠ "") ↔
      e ∈ es ∧ (T.read e.before).hash ≠ "" := by
    intro e
    rw [List.mem_filter, ← hsorted, List.mem_insertionSort]
    simp
  rw [hbefore, hcb] at h
  rw [hafter, hca]
  generalize sorted.filter (fun e => (T.read e.before).hash ≠ "") = cs at h hmem ⊢
  obtain ⟨⟨prev, hlinked⟩, hhashed⟩ := h
  have hlinked' : Linked prev (cs.map (T.read ∘ (·.after))) :=
    (linked_congr (fun e _ => ⟨e.prevHash, e.hash⟩) prev).mpr hlinked
  have hold : ∀ e ∈ cs, (T.read e.before).hash =
      H (T.read e.before).prevHash (T.read e.before).fields :=
    fun e he => hhashed _ (List.mem_map_of_mem he)
  rw [not_and]
  constructor
  · intro hbroken
    by_contra hnone
    refine hbroken ⟨prev, hlinked'⟩ (List.forall_mem_map.mpr fun e he => ?_)
    have hsame := not_not.mp fun hne => hnone ⟨e, ((hmem e).mp he).1, ((hmem e).mp he).2, hne⟩
    show (T.read e.after).hash = H (T.read e.after).prevHash (T.read e.after).fields
    rw [e.hash, e.prevHash, hsame, hold e he]
  · rintro ⟨e, he, hne, hdiff⟩ - hhashed'
    have hin := (hmem e).mpr ⟨he, hne⟩
    have hnew : (T.read e.after).hash = H (T.read e.after).prevHash (T.read e.after).fields :=
      hhashed' _ (List.mem_map_of_mem hin)
    rw [e.hash, e.prevHash, hold e hin] at hnew
    exact hdiff hnew.symm

end Edits

/-! ## Hashes that tell the rows apart -/

section Distinct

variable {H : String → List String → String} {prev q : String} {rows : List Row}

/-- Rows with one hash follow the same hash. -/
def PrevFree (H : String → List String → String) (rows : List Row) : Prop :=
  ∀ r ∈ rows, ∀ r' ∈ rows, H r.prevHash r.fields = H r'.prevHash r'.fields →
    r.prevHash = r'.prevHash

/-- The hash that the next row of linked rows follows. -/
def endHash (prev : String) (rows : List Row) : String := (rows.getLast?.map (·.hash)).getD prev

@[simp] theorem endHash_snoc (prev : String) (rows : List Row) (row : Row) :
    endHash prev (rows ++ [row]) = row.hash := by simp [endHash]

theorem endHash_cons (prev : String) (row : Row) (rows : List Row) :
    endHash prev (row :: rows) = endHash row.hash rows := by
  cases h : rows.getLast? with
  | none =>
    rw [List.getLast?_eq_none_iff.mp h]
    rfl
  | some last => simp [endHash, List.getLast?_cons, h]

theorem endHash_append (prev : String) (rows rows' : List Row) :
    endHash prev (rows ++ rows') = endHash (endHash prev rows) rows' := by
  induction rows generalizing prev with
  | nil => rfl
  | cons row rows ih => rw [List.cons_append, endHash_cons, endHash_cons, ih]

theorem endHash_mem (prev : String) (h : rows ≠ []) : endHash prev rows ∈ rows.map (·.hash) := by
  obtain rfl | ⟨rows', row, rfl⟩ := List.eq_nil_or_concat' rows
  · exact absurd rfl h
  · rw [endHash_snoc]
    exact List.mem_map_of_mem (by simp)

theorem linked_append {rows' : List Row} :
    Linked prev (rows ++ rows') ↔ Linked prev rows ∧ Linked (endHash prev rows) rows' := by
  induction rows generalizing prev with
  | nil => simp [endHash, Linked]
  | cons row rows ih => rw [List.cons_append, Linked, ih, Linked, endHash_cons, and_assoc]

/-- **Hashes tell the rows apart** if the first row does not follow a row of the log. -/
theorem nodup_hashes (hlinked : Linked prev rows) (hhashed : Hashed H rows)
    (hfree : PrevFree H rows) (hroot : prev ∉ rows.map (·.hash)) :
    (rows.map (·.hash)).Nodup := by
  induction rows using List.reverseRecOn with
  | nil => exact List.nodup_nil
  | append_singleton rows row ih =>
    obtain ⟨hinit, hlast, -⟩ := linked_append.mp hlinked
    rw [List.map_append, List.mem_append, not_or] at hroot
    have hnodup := ih hinit (fun r hr => hhashed r (List.mem_append_left _ hr))
      (fun r hr r' hr' => hfree r (List.mem_append_left _ hr) r' (List.mem_append_left _ hr'))
      hroot.1
    rw [List.map_append, List.nodup_append]
    refine ⟨hnodup, List.nodup_singleton _, ?_⟩
    rintro h hmem _ hsingle rfl
    rw [List.map_singleton, List.mem_singleton] at hsingle
    -- an earlier row with the same hash would follow the last row, or nothing
    obtain ⟨r, hr, hhash⟩ := List.mem_map.mp hmem
    have hprev : r.prevHash = row.prevHash := by
      refine hfree r (List.mem_append_left _ hr) row (by simp) ?_
      rw [← hhashed r (List.mem_append_left _ hr), ← hhashed row (by simp), hhash, hsingle]
    obtain ⟨as, bs, rfl⟩ := List.append_of_mem hr
    obtain ⟨-, hr₁, -⟩ := linked_append.mp hinit
    rw [hlast, hr₁, endHash_append] at hprev
    have hend := endHash_mem (endHash prev as) (List.cons_ne_nil r bs)
    rw [← hprev] at hend
    obtain rfl | ⟨as, a, rfl⟩ := List.eq_nil_or_concat' as
    · exact hroot.1 hend
    · rw [endHash_snoc] at hend
      rw [List.map_append, List.nodup_append] at hnodup
      exact hnodup.2.2 a.hash (List.mem_map_of_mem (by simp)) a.hash hend rfl

end Distinct

/-! ## Deletions -/

section Deletions

variable {H : String → List String → String} {prev q : String} {rows : List Row}
  {keep : Row → Bool}

/-- Linked rows stay linked when only rows at their end are deleted. -/
theorem linked_prefix (hlinked : Linked prev rows)
    (hkeep : ∀ d b, [d, b].Sublist rows → keep b = true → keep d = true) :
    Linked prev (rows.filter keep) := by
  induction rows generalizing prev with
  | nil => trivial
  | cons row rows ih =>
    have htail : ∀ d b, [d, b].Sublist rows → keep b = true → keep d = true :=
      fun d b hsub => hkeep d b (hsub.cons row)
    cases hrow : keep row with
    | true =>
      rw [List.filter_cons_of_pos hrow]
      exact ⟨hlinked.1, ih hlinked.2 htail⟩
    | false =>
      -- nothing after a deleted row is left
      have hnil : rows.filter keep = [] := by
        refine List.filter_eq_nil_iff.mpr fun b hb hkb => ?_
        have hsub : [row, b].Sublist (row :: rows) :=
          (List.singleton_sublist.mpr hb).cons_cons row
        rw [hkeep row b hsub hkb] at hrow
        cases hrow
      rw [List.filter_cons_of_neg (by simp [hrow]), hnil]
      trivial

/-- Linked rows stay linked when no row between two others is deleted alone. -/
theorem linked_filter (hlinked : Linked prev rows)
    (hgap : ¬ ∃ a d b, [a, d, b].Sublist rows ∧ keep a = true ∧ keep d = false ∧ keep b = true) :
    ∃ q, Linked q (rows.filter keep) := by
  induction rows generalizing prev with
  | nil => exact ⟨prev, trivial⟩
  | cons row rows ih =>
    cases hrow : keep row with
    | true =>
      -- nothing is left after a row that is deleted from here on
      rw [List.filter_cons_of_pos hrow]
      refine ⟨row.prevHash, rfl, linked_prefix hlinked.2 fun d b hsub hb => ?_⟩
      by_contra hd
      exact hgap ⟨row, d, b, hsub.cons_cons row, hrow, by simpa using hd, hb⟩
    | false =>
      rw [List.filter_cons_of_neg (by simp [hrow])]
      refine ih hlinked.2 ?_
      rintro ⟨a, d, b, hsub, h⟩
      exact hgap ⟨a, d, b, hsub.cons row, h⟩

/-- A gap between two rows that are left breaks the links, if hashes tell the rows apart. -/
theorem not_linked_filter (hlinked : Linked prev rows) (hnodup : (rows.map (·.hash)).Nodup)
    (hgap : ∃ a d b, [a, d, b].Sublist rows ∧ keep a = true ∧ keep d = false ∧ keep b = true) :
    ¬ Linked q (rows.filter keep) := by
  obtain ⟨a, d, b, hsub, ha, hd, hb⟩ := hgap
  intro hkept
  -- the rows around the deleted row `d`
  obtain ⟨as, rest, rfl, haas, hsub⟩ := List.cons_sublist_iff.mp hsub
  obtain ⟨ds, bs, rfl, hdds, hsub⟩ := List.cons_sublist_iff.mp hsub
  have hbbs : b ∈ bs := List.singleton_sublist.mp hsub
  obtain ⟨ds₁, ds₂, rfl⟩ := List.append_of_mem hdds
  have hleft : (as ++ ds₁).filter keep ≠ [] := fun h =>
    List.filter_eq_nil_iff.mp h a (List.mem_append_left _ haas) ha
  -- the first row that is left after it
  obtain ⟨b', kept, hright⟩ : ∃ b' kept, (ds₂ ++ bs).filter keep = b' :: kept :=
    List.exists_cons_of_ne_nil fun h =>
      List.filter_eq_nil_iff.mp h b (List.mem_append_right _ hbbs) hb
  obtain ⟨gone, bs', hrest, hgone, hb', -⟩ := List.filter_eq_cons_iff.mp hright
  have hrows : as ++ (ds₁ ++ d :: ds₂ ++ bs) = (as ++ ds₁) ++ (d :: gone ++ b' :: bs') := by
    rw [List.cons_append, ← hrest]
    simp
  rw [hrows] at hlinked hnodup hkept
  -- what it follows in the log, and what it would have to follow
  have hfollows : b'.prevHash = endHash (endHash prev (as ++ ds₁)) (d :: gone) :=
    (linked_append.mp (linked_append.mp hlinked).2).2.1
  have hfollows' : b'.prevHash = endHash q ((as ++ ds₁).filter keep) := by
    rw [List.filter_append, List.cons_append, List.filter_cons_of_neg (by simp [hd]),
      List.filter_append gone (b' :: bs'), List.filter_eq_nil_iff.mpr hgone, List.nil_append,
      List.filter_cons_of_pos hb'] at hkept
    exact (linked_append.mp hkept).2.1
  have hmem := endHash_mem (endHash prev (as ++ ds₁)) (List.cons_ne_nil d gone)
  rw [← hfollows, hfollows'] at hmem
  obtain ⟨a', ha', hhash⟩ := List.mem_map.mp (endHash_mem q hleft)
  rw [← hhash] at hmem
  rw [List.map_append, List.nodup_append] at hnodup
  refine hnodup.2.2 a'.hash (List.mem_map_of_mem (List.mem_of_mem_filter ha')) a'.hash ?_ rfl
  rw [List.map_append]
  exact List.mem_append_left _ hmem

/-- A row is deleted between two that are left. -/
def LeavesGap (rows : List Row) (keep : ℤ → Bool) : Prop :=
  ∃ a ∈ rows, ∃ d ∈ rows, ∃ b ∈ rows, a.seq < d.seq ∧ d.seq < b.seq ∧
    keep a.seq = true ∧ keep d.seq = false ∧ keep b.seq = true

/-- In ordered rows the numbers say which row stands where. -/
theorem sublist_of_seq_lt (hordered : Ordered rows) {a d b : Row} (ha : a ∈ rows) (hd : d ∈ rows)
    (hb : b ∈ rows) (had : a.seq < d.seq) (hdb : d.seq < b.seq) : [a, d, b].Sublist rows := by
  obtain ⟨as, bs, rfl⟩ := List.append_of_mem hd
  obtain ⟨-, hcons, hcross⟩ := List.pairwise_append.mp hordered
  have hright := (List.pairwise_cons.mp hcons).1
  have haas : a ∈ as := by
    rcases List.mem_append.mp ha with h | h
    · exact h
    rcases List.mem_cons.mp h with rfl | h
    · exact absurd had (Int.lt_irrefl _)
    · exact absurd (hright a h) (Int.not_lt.mpr had.le)
  have hbbs : b ∈ bs := by
    rcases List.mem_append.mp hb with h | h
    · exact absurd (hcross b h d (List.mem_cons_self ..)) (Int.not_lt.mpr hdb.le)
    rcases List.mem_cons.mp h with rfl | h
    · exact absurd hdb (Int.lt_irrefl _)
    · exact h
  exact (List.singleton_sublist.mpr haas).append
    ((List.singleton_sublist.mpr hbbs).cons_cons d)

/-- The log begins with a row that follows none of its rows. -/
def Rooted (rows : List Row) : Prop := ∀ r ∈ rows.head?, r.prevHash ∉ rows.map (·.hash)

/-- A log of chained rows that is found in order, and in which hashes tell the rows apart. -/
structure Sound (H : String → List String → String) (rows : List Row) : Prop where
  ordered : Ordered rows
  chained : ∀ r ∈ rows, r.hash ≠ ""
  ok : (verify H rows).ok = true
  free : PrevFree H rows
  rooted : Rooted rows

theorem Sound.chained_eq (h : Sound H rows) : Audit.chained rows = rows :=
  List.filter_eq_self.mpr fun r hr => by simpa using h.chained r hr

theorem Sound.linked (h : Sound H rows) :
    ∃ prev, Linked prev rows ∧ prev ∉ rows.map (·.hash) := by
  obtain ⟨⟨prev, hlinked⟩, -⟩ := verify_ok.mp h.ok
  rw [bySeq_eq h.ordered, h.chained_eq] at hlinked
  cases rows with
  | nil => exact ⟨prev, hlinked, List.not_mem_nil⟩
  | cons row rows =>
    refine ⟨prev, hlinked, ?_⟩
    rw [← hlinked.1]
    exact h.rooted row (by simp)

theorem Sound.hashed (h : Sound H rows) : Hashed H rows := by
  have hhashed := (verify_ok.mp h.ok).2
  rwa [bySeq_eq h.ordered, h.chained_eq] at hhashed

/-- **The deletion of rows is found** exactly if a row is deleted between two that are left. -/
theorem verify_kept (h : Sound H rows) (keep : ℤ → Bool) :
    (verify H (rows.filter fun r => keep r.seq)).ok = false ↔ LeavesGap rows keep := by
  have hordered : Ordered (rows.filter fun r => keep r.seq) := h.ordered.filter _
  have hchained : chained (rows.filter fun r => keep r.seq) =
      rows.filter fun r => keep r.seq :=
    List.filter_eq_self.mpr fun r hr => by simpa using h.chained r (List.mem_of_mem_filter hr)
  obtain ⟨prev, hlinked, hroot⟩ := h.linked
  rw [← Bool.not_eq_true, verify_ok, bySeq_eq hordered, hchained]
  constructor
  · intro hbroken
    by_contra hgap
    refine hbroken ⟨linked_filter hlinked ?_, fun r hr => h.hashed r (List.mem_of_mem_filter hr)⟩
    rintro ⟨a, d, b, hsub, ha, hd, hb⟩
    have hseq := h.ordered.sublist hsub
    simp only [List.pairwise_cons, List.mem_cons, List.not_mem_nil, or_false,
      forall_eq_or_imp, forall_eq] at hseq
    exact hgap ⟨a, hsub.subset (by simp), d, hsub.subset (by simp), b, hsub.subset (by simp),
      hseq.1.1, hseq.2.1, ha, hd, hb⟩
  · rintro ⟨a, ha, d, hd, b, hb, had, hdb, hka, hkd, hkb⟩ ⟨⟨q, hkept⟩, -⟩
    exact not_linked_filter hlinked (nodup_hashes hlinked h.hashed h.free hroot)
      ⟨a, d, b, sublist_of_seq_lt h.ordered ha hd hb had hdb, hka, hkd, hkb⟩ hkept

end Deletions

/-! ## Permutations -/

section Permutations

variable {H : String → List String → String} {prev q : String} {rows rows' : List Row}

/-- Hashes that tell the rows apart leave one order in which the rows are linked. -/
theorem Linked.eq_of_perm (hlinked : Linked prev rows) (hlinked' : Linked q rows')
    (hperm : rows'.Perm rows) (hroot : prev ∉ rows.map (·.hash))
    (hnodup : (rows.map (·.hash)).Nodup) : rows' = rows := by
  induction rows generalizing prev q rows' with
  | nil => exact hperm.eq_nil
  | cons row rows ih =>
    obtain ⟨as, bs, rfl⟩ := List.append_of_mem (hperm.mem_iff.mpr (List.mem_cons_self ..))
    obtain ⟨-, hrow, hbs⟩ := linked_append.mp hlinked'
    rw [List.map_cons, List.nodup_cons] at hnodup
    -- nothing stands before the first row, which follows no row
    obtain rfl | ⟨as, a, rfl⟩ := List.eq_nil_or_concat' as
    · rw [ih hlinked.2 hbs (List.Perm.cons_inv hperm) hnodup.1 hnodup.2, List.nil_append]
    · rw [endHash_snoc, hlinked.1] at hrow
      have hmem : a ∈ row :: rows := hperm.mem_iff.mp (by simp)
      exact absurd (hrow ▸ List.mem_map_of_mem hmem) hroot

variable {R : Type} {T : Table R}

/-- **Another order of the contents is found.** -/
theorem verify_permuted {rs : List R} (h : Sound H (T.rows rs))
    {σ : Equiv.Perm (Fin rs.length)} (hσ : σ ≠ Equiv.refl _) :
    (verify H (T.rows (T.permuted rs σ))).ok = false := by
  let f : Fin rs.length → Row := fun i => T.read (rs.get i)
  let g : Fin rs.length → Row := fun i => { f (σ i) with seq := (f i).seq }
  have hrows : T.rows rs = (List.finRange rs.length).map f := by
    rw [show f = T.read ∘ rs.get from rfl, ← List.map_map, List.map_get_finRange]
    rfl
  have hpermuted : T.rows (T.permuted rs σ) = (List.finRange rs.length).map g := by
    rw [Table.rows, Table.permuted, List.map_ofFn, List.ofFn_eq_map]
    exact List.map_congr_left fun i _ => T.read_renumber _ _
  obtain ⟨prev, hlinked, hroot⟩ := h.linked
  have hnodup := nodup_hashes hlinked h.hashed h.free hroot
  have hinj : Function.Injective f := by
    have := hnodup.of_map
    rwa [hrows, ← List.ofFn_eq_map, List.nodup_ofFn] at this
  rw [← Bool.not_eq_true, verify_ok, hpermuted]
  rintro ⟨⟨q, hlinked'⟩, -⟩
  -- the numbers are those of the log, so the rows are read in the order they are given in
  have hordered : Ordered ((List.finRange rs.length).map g) := by
    have := h.ordered
    rw [hrows, Ordered, List.pairwise_map] at this
    exact List.pairwise_map.mpr this
  have hchained : chained ((List.finRange rs.length).map g) =
      (List.finRange rs.length).map g := by
    refine List.filter_eq_self.mpr (List.forall_mem_map.mpr fun i _ => ?_)
    simpa [g, f] using h.chained (f (σ i)) (List.mem_map_of_mem (List.get_mem rs (σ i)))
  rw [bySeq_eq hordered, hchained] at hlinked'
  have hcontents : Linked q ((List.finRange rs.length).map (f ∘ σ)) :=
    (linked_congr (f := f ∘ σ) (g := g) (fun i _ => ⟨rfl, rfl⟩) q).mp hlinked'
  have hperm : ((List.finRange rs.length).map (f ∘ σ)).Perm (T.rows rs) := by
    rw [hrows, ← List.ofFn_eq_map, ← List.ofFn_eq_map]
    exact Equiv.Perm.ofFn_comp_perm σ f
  have heq := hlinked.eq_of_perm hcontents hperm hroot hnodup
  rw [hrows, ← List.ofFn_eq_map, ← List.ofFn_eq_map] at heq
  exact hσ (Equiv.ext fun i => hinj (congrFun (List.ofFn_injective heq) i))

end Permutations

/-! ## Chains of SHA-256 -/

section ChainHash

variable {sha256 : List UInt8 → Vector UInt8 32}

/-- The hash has no collision among the texts of the rows. -/
def CollisionFree (sha256 : List UInt8 → Vector UInt8 32) (rows : List Row) : Prop :=
  ∀ r ∈ rows, ∀ r' ∈ rows, sha256 (covered r.prevHash r.fields) =
    sha256 (covered r'.prevHash r'.fields) →
    covered r.prevHash r.fields = covered r'.prevHash r'.fields

theorem chainHash_eq_chainHash {prev prev' : String} {fields fields' : List String} :
    chainHash sha256 prev fields = chainHash sha256 prev' fields' ↔
      sha256 (covered prev fields) = sha256 (covered prev' fields') := by
  rw [chainHash, chainHash, hex_injective.eq_iff, Vector.toList_inj]

theorem length_chainHash (prev : String) (fields : List String) :
    (chainHash sha256 prev fields).toList.length = 64 := by
  rw [chainHash, hex_length, Vector.length_toList]

theorem separator_notMem_chainHash (prev : String) (fields : List String) :
    separator ∉ (chainHash sha256 prev fields).toList := by
  intro h
  exact absurd (isHexDigit_of_mem_hex h) (by decide)

/-- A text begins with the hash before it, if that hash is as long as a hash is at most. -/
theorem prev_eq_of_covered {prev prev' : String} {fields fields' : List String}
    (hlen : prev.toList.length ≤ prev'.toList.length) (hsep : separator ∉ prev'.toList)
    (h : covered prev fields = covered prev' fields') : prev = prev' := by
  rw [covered_eq, covered_eq] at h
  rcases List.append_eq_append_iff.mp (encode_injective h) with
    ⟨rest, hrest, hjoined⟩ | ⟨rest, hrest, -⟩
  · cases rest with
    | nil => exact String.toList_injective (by simpa using hrest.symm)
    | cons c rest =>
      -- the longer hash would have the separator in it
      cases fields with
      | nil => cases hjoined
      | cons f fields =>
        rw [joined_cons, List.cons_append, List.cons.injEq] at hjoined
        rw [hrest, ← hjoined.1] at hsep
        exact absurd (List.mem_append_right _ (List.mem_cons_self ..)) hsep
  · rw [hrest, List.length_append] at hlen
    have hnil : rest = [] := List.length_eq_zero_iff.mp (by omega)
    exact String.toList_injective (by simpa [hnil] using hrest)

/-- **Without collisions, rows with one hash follow the same hash**, if no row follows anything
longer than a hash. -/
theorem prevFree_chainHash {rows : List Row} {prev : String} (hlinked : Linked prev rows)
    (hhashed : Hashed (chainHash sha256) rows) (hfree : CollisionFree sha256 rows)
    (hlen : ∀ r ∈ rows, r.prevHash.toList.length ≤ 64) : PrevFree (chainHash sha256) rows := by
  -- every row but the first one follows a hash
  have hshape : ∀ r ∈ rows, r ∈ rows.head? ∨
      (r.prevHash.toList.length = 64 ∧ separator ∉ r.prevHash.toList) := by
    intro r hr
    obtain ⟨as, bs, rfl⟩ := List.append_of_mem hr
    obtain rfl | ⟨as, a, rfl⟩ := List.eq_nil_or_concat' as
    · exact .inl rfl
    · have hprev := (linked_append.mp hlinked).2.1
      rw [endHash_snoc, hhashed a (by simp)] at hprev
      rw [hprev]
      exact .inr ⟨length_chainHash _ _, separator_notMem_chainHash _ _⟩
  intro r hr r' hr' h
  have htext := hfree r hr r' hr' (chainHash_eq_chainHash.mp h)
  rcases hshape r' hr' with hfirst' | ⟨hlen', hsep'⟩
  · rcases hshape r hr with hfirst | ⟨hlen₁, hsep₁⟩
    · rw [Option.some.inj (hfirst.symm.trans hfirst')]
    · exact (prev_eq_of_covered (by rw [hlen₁]; exact hlen r' hr') hsep₁ htext.symm).symm
  · exact prev_eq_of_covered (by rw [hlen']; exact hlen r hr) hsep' htext

end ChainHash

end Audit
