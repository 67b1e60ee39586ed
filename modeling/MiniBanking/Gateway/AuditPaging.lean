import MiniBanking.Bank.Repository
import MiniBanking.Concurrency.Trace
import MiniBanking.Gateway.AuditCap
import MiniBanking.Postgres.Paging

/-!
# Walks over logs that are written to

A walk asks for the pages of a log one after the other, by their offsets from the newest row. A row
that is added in between moves all others by one, so that the last row of a page comes again at the
head of the next one.

## Main definitions

* `Rows`: the rows of the logs, which are only added to
* `walkMachine`: walks that are interleaved with additions
* `Walk.Undisturbed`: a walk between whose requests no row of its window is added
* `Walk.Collected`: what a walk should find

## Main results

* `fetchFrom_pages`: the pages of answers for the same rows add up to the beginning of one answer
* `walk_collected`: an undisturbed walk finds what it should
-/

namespace Gateway

open Bank Concurrency Js Postgres

/-! ## Logs that are written to -/

/-- The rows of the three logs in the order they were added, and the sessions of administrators. -/
structure Rows where
  ca : List CaRow
  kdc : List KdcRow
  bank : List BankRow
  session : String → Bool

/-- Newest first, where rows of one time come in the order that some numbers decide. -/
def NewestFirst.arranged (R M : Type) (order : List ℕ) : NewestFirst R M where
  order rows := (arrange order rows).insertionSort fun r r' => r'.micros ≤ r.micros
  perm rows := (List.perm_insertionSort _ _).trans (arrange_perm order rows)
  sorted rows := by
    have htotal : Std.Total fun r r' : Dated R M => r'.micros ≤ r.micros :=
      ⟨fun r r' => Int.le_total r'.micros r.micros⟩
    have htrans : IsTrans (Dated R M) fun r r' => r'.micros ≤ r.micros :=
      ⟨fun _ _ _ h h' => Int.le_trans h' h⟩
    exact List.pairwise_insertionSort _ _

/-- The logs as one query reads them. -/
def Rows.logs (rows : Rows) (order : List ℕ) : Logs where
  ca := rows.ca
  kdc := rows.kdc
  bank := rows.bank
  caOrder := .arranged _ _ order
  kdcOrder := .arranged _ _ order
  bankOrder := .arranged _ _ order
  session := rows.session

/-- A row that is added to a log. -/
inductive Added where
  | ca (row : CaRow)
  | kdc (row : KdcRow)
  | bank (row : BankRow)

/-- A row is added at the end of its log, with a time that is not earlier than the others. -/
def Rows.add (rows : Rows) : Added → Option Rows
  | .ca row => if ∀ r ∈ rows.ca, r.micros ≤ row.micros then some { rows with ca := rows.ca ++ [row] }
    else none
  | .kdc row =>
    if ∀ r ∈ rows.kdc, r.micros ≤ row.micros then some { rows with kdc := rows.kdc ++ [row] } else none
  | .bank row =>
    if ∀ r ∈ rows.bank, r.micros ≤ row.micros then some { rows with bank := rows.bank ++ [row] }
    else none

/-- What decides the reply to a request for a page. -/
structure PageChoice where
  fail : Bool := false
  order : List ℕ := []

/-- Requests for pages of the logs as they are at that time. -/
abbrev pageWorld : World where
  S := pages
  Env := Rows
  Loc := Unit
  Choice := PageChoice
  exec _ q c rows l := some (if c.fail then refuse q else (rows.logs c.order).reply q, rows, l)
where
  /-- The reply of a call that fails. -/
  refuse : (q : PageRequest) → PageReply q
    | .ca _ _ => .error ()
    | .kdc _ _ => .error ()
    | .bank _ _ _ => .error ()

/-- A walk over the pages of a log. -/
inductive Walk where
  | ca (filter : WindowFilter) (cap : ℕ)
  | kdc (filter : WindowFilter) (cap : ℕ)
  | bank (filter : WindowFilter) (cap : ℕ) (adminSessionToken : String)

/-- The program of a walk. -/
def Walk.program : Walk → Program pages (Except Unit (List NormalizedEvent))
  | .ca filter cap => fetchCaWindow filter cap
  | .kdc filter cap => fetchKdcWindow filter cap
  | .bank filter cap token => fetchBankWindow filter cap token

/-- Walks that are interleaved with each other and with rows that are added. -/
abbrev walkMachine : Machine where
  toWorld := pageWorld
  Tick := Added
  Request := Walk
  Result := Except Unit (List NormalizedEvent)
  program := Walk.program
  start := ()
  tick a rows := Rows.add rows a

/-! ## What a walk should find -/

namespace Walk

/-- The cap of a walk. -/
def cap : Walk → ℕ
  | .ca _ cap | .kdc _ cap | .bank _ cap _ => cap

/-- The events that match. -/
def hits : Walk → Rows → List NormalizedEvent
  | .ca f _, rows => (rows.ca.filter (f.holds ·.micros)).map fun r => caEvent r.message
  | .kdc f _, rows => (rows.kdc.filter (f.holds ·.micros)).map fun r => kdcEvent r.message
  | .bank f _ _, rows => (rows.bank.filter (f.bankHolds ·.micros)).map fun r => bankEvent r.message

/-- The times of the rows that match. -/
def times : Walk → Rows → List ℤ
  | .ca f _, rows => (rows.ca.filter (f.holds ·.micros)).map (·.micros)
  | .kdc f _, rows => (rows.kdc.filter (f.holds ·.micros)).map (·.micros)
  | .bank f _ _, rows => (rows.bank.filter (f.bankHolds ·.micros)).map (·.micros)

/-- The rows that match are the same ones. -/
def Same : Walk → Rows → Rows → Prop
  | .ca f _, rows, rows' =>
    rows.ca.filter (f.holds ·.micros) = rows'.ca.filter (f.holds ·.micros)
  | .kdc f _, rows, rows' =>
    rows.kdc.filter (f.holds ·.micros) = rows'.kdc.filter (f.holds ·.micros)
  | .bank f _ _, rows, rows' =>
    rows.bank.filter (f.bankHolds ·.micros) = rows'.bank.filter (f.bankHolds ·.micros)

/-- No row that matches is added between the requests of the walk, and no two rows with one time
are on different sides of the end of a page. -/
def Undisturbed (w : Walk) (log : List (Event pageWorld)) : Prop :=
  ∀ ev ∈ log, (∀ ev' ∈ log, w.Same ev.env ev'.env) ∧
    ∀ k, 0 < k → k < log.length → Apart (w.times ev.env) (k * pageSize)

/-- No event is found more often than it is stored; and if fewer than the cap matched at the first
request, all of them are found. -/
structure Collected (w : Walk) (log : List (Event pageWorld)) (rows : Rows)
    (events : List NormalizedEvent) : Prop where
  once : (events : Multiset NormalizedEvent) ≤ (w.hits rows : Multiset NormalizedEvent)
  complete : ∀ ev ∈ log.head?, (w.hits ev.env).length < w.cap →
    (w.hits ev.env : Multiset NormalizedEvent) ≤ (events : Multiset NormalizedEvent)

end Walk

/-! ## Pages of several answers -/

section Pages

variable {W : World} {R M E : Type} {ask : ℕ → Program W.S (Except Unit (List E))}
  {message : Dated R M → E} {event : E → NormalizedEvent} {rows : List (Dated R M)} {cap : ℕ}
  {Good : Event W → Prop}

theorem answers_arranged (order : List ℕ) (rows : List (Dated R M)) :
    Answers (·.micros) rows ((NewestFirst.arranged R M order).order rows) :=
  ⟨(NewestFirst.arranged R M order).perm rows, (NewestFirst.arranged R M order).sorted rows⟩

/-- A request that has a reply gives a page of an answer for the rows. -/
def AsksFor (ask : ℕ → Program W.S (Except Unit (List E))) (message : Dated R M → E)
    (rows : List (Dated R M)) (Good : Event W → Prop) : Prop :=
  ∀ offset log page, (ask offset).Returns log (.ok page) → (∀ ev ∈ log, Good ev) →
    log.length = 1 ∧ ∃ answer, Answers (·.micros) rows answer ∧
      page = (Postgres.page pageSize offset answer).map message

/-- A page after the rows before it gives the rows up to its end, if no two rows with one time are
on different sides of its beginning. -/
theorem append_page {offset n : ℕ} {out : List NormalizedEvent} {answer answer' : List (Dated R M)}
    (hanswer : Answers (·.micros) rows answer) (hanswer' : Answers (·.micros) rows answer')
    (hout : out.Perm ((answer.take offset).map fun r => event (message r)))
    (hapart : 0 < offset → Apart (rows.map (·.micros)) offset) :
    (out ++ ((Postgres.page n offset answer').map message).map event).Perm
      ((answer'.take (offset + n)).map fun r => event (message r)) := by
  have hbefore : (answer.take offset).Perm (answer'.take offset) := by
    rcases Nat.eq_zero_or_pos offset with rfl | hpos
    · rfl
    · exact hanswer.take_perm hanswer' (hapart hpos)
  rw [List.take_add, List.map_append, List.map_map]
  exact (hout.trans (hbefore.map _)).append_right _

/-- **The loop of a walk.** The pages add up to the beginning of one answer, up to the end of the
rows or to the cap. -/
theorem fetchFrom_pages (hask : AsksFor ask message rows Good) (rounds seen : ℕ)
    (out : List NormalizedEvent) {answer : List (Dated R M)} (log : List (Event W))
    {events : List NormalizedEvent} (hanswer : Answers (·.micros) rows answer)
    (hout : out.Perm ((answer.take (seen * pageSize)).map fun r => event (message r)))
    (hrounds : cap ≤ rounds + out.length)
    (h : (fetchFrom ask event cap rounds (seen * pageSize) out).Returns log (.ok events))
    (hgood : ∀ ev ∈ log, Good ev)
    (hapart : ∀ k, 0 < k → k < seen + log.length → Apart (rows.map (·.micros)) (k * pageSize)) :
    ∃ answer n, Answers (·.micros) rows answer ∧
      events.Perm ((answer.take n).map fun r => event (message r)) ∧
      (cap ≤ events.length ∨ rows.length ≤ n) := by
  induction rounds generalizing seen out answer log with
  | zero =>
    obtain ⟨-, heq⟩ := Program.returns_ret.mp h
    cases heq
    exact ⟨answer, _, hanswer, hout, .inl (by omega)⟩
  | succ rounds ih =>
    rw [fetchFrom] at h
    split at h
    swap
    · next hfull =>
      obtain ⟨-, heq⟩ := Program.returns_ret.mp h
      cases heq
      exact ⟨answer, _, hanswer, hout, .inl (Nat.not_lt.mp hfull)⟩
    obtain ⟨before, page, after, rfl, hpage, h⟩ := Program.returns_bind.mp h
    cases page with
    | error =>
      obtain ⟨-, heq⟩ := Program.returns_ret.mp h
      cases heq
    | ok page =>
      obtain ⟨hone, answer', hanswer', rfl⟩ := hask _ _ _ hpage fun ev hev =>
        hgood ev (List.mem_append_left _ hev)
      rw [List.length_append, hone] at hapart
      have hadd := @append_page _ _ _ message event rows (seen * pageSize) pageSize out answer answer'
        hanswer hanswer' hout fun hpos => hapart seen (Nat.pos_of_mul_pos_right hpos) (by omega)
      dsimp only at h
      split at h
      · next hshort =>
        -- a page that is not full is the last one
        obtain ⟨-, heq⟩ := Program.returns_ret.mp h
        cases heq
        refine ⟨answer', _, hanswer', hadd, .inr ?_⟩
        rw [← hanswer'.perm.length_eq]
        rw [List.length_map, Postgres.page, List.length_take, List.length_drop] at hshort
        omega
      · next hfull =>
        rw [← Nat.succ_mul] at h hadd
        refine ih (seen + 1) _ after hanswer' hadd ?_ h
          (fun ev hev => hgood ev (List.mem_append_right _ hev)) fun k hk hlt => hapart k hk (by omega)
        rw [List.length_append, List.length_map]
        have : pageSize = 100 := rfl
        omega

/-- **A walk.** It finds no more than the rows, and all of them if they are fewer than the cap. -/
theorem fetchWindow_pages (hask : AsksFor ask message rows Good) {log : List (Event W)}
    {events : List NormalizedEvent}
    (h : (fetchWindow ask event cap).Returns log (.ok events)) (hgood : ∀ ev ∈ log, Good ev)
    (hapart : ∀ k, 0 < k → k < log.length → Apart (rows.map (·.micros)) (k * pageSize)) :
    (events : Multiset NormalizedEvent) ≤ (rows.map fun r => event (message r)) ∧
      (rows.length < cap → ((rows.map fun r => event (message r) : List NormalizedEvent) :
        Multiset NormalizedEvent) ≤ events) := by
  obtain ⟨before, out, after, rfl, hout, h⟩ := Program.returns_bind.mp h
  obtain ⟨rfl, heq⟩ := Program.returns_ret.mp h
  rw [List.append_nil] at hgood hapart
  cases out with
  | error => cases heq
  | ok out =>
    cases heq
    obtain ⟨answer, n, hanswer, hperm, hend⟩ := fetchFrom_pages hask cap 0 [] before
      (answers_arranged [] rows) (.refl _) (show cap ≤ cap + 0 from le_rfl) (by simpa using hout) hgood
      (by simpa using hapart)
    have hsub : ((answer.take n).map fun r => event (message r)).Subperm
        (rows.map fun r => event (message r)) :=
      ((List.take_sublist n answer).map _).subperm.trans (hanswer.perm.map _).subperm
    refine ⟨Multiset.coe_le.mpr ?_, fun hfew => Multiset.coe_le.mpr ?_⟩
    · exact (List.take_sublist cap out).subperm.trans (hperm.subperm.trans hsub)
    · have hlen := (hperm.subperm.trans hsub).length_le
      rw [List.length_map] at hlen
      -- the cap is not reached, so the rows are at their end
      have hall : rows.length ≤ n := by omega
      show List.Subperm _ (out.take cap)
      rw [List.take_of_length_le (by omega)]
      rw [List.take_of_length_le (hanswer.perm.length_eq ▸ hall)] at hperm
      exact ((hanswer.perm.map _).symm.trans hperm.symm).subperm

end Pages

/-! ## Runs -/

/-- Rows are added to the logs. -/
structure Rows.Before (rows rows' : Rows) : Prop where
  ca : rows.ca <+: rows'.ca
  kdc : rows.kdc <+: rows'.kdc
  bank : rows.bank <+: rows'.bank

theorem Rows.Before.refl (rows : Rows) : rows.Before rows :=
  ⟨List.prefix_refl _, List.prefix_refl _, List.prefix_refl _⟩

theorem Rows.Before.trans {rows rows' rows'' : Rows} (h : rows.Before rows')
    (h' : rows'.Before rows'') : rows.Before rows'' :=
  ⟨h.ca.trans h'.ca, h.kdc.trans h'.kdc, h.bank.trans h'.bank⟩

theorem Rows.Before.of_add {rows rows' : Rows} {a : Added} (h : rows.add a = some rows') :
    rows.Before rows' := by
  cases a with
  | _ row =>
    rw [add] at h
    split at h
    · cases h
      constructor <;> first | exact List.prefix_refl _ | exact List.prefix_append _ _
    · cases h

/-- The reply is one to the request, for the rows of that time. -/
def Served (ev : Event pageWorld) : Prop :=
  ∃ c : PageChoice, ev.reply =
    if c.fail then pageWorld.refuse ev.stmt else (ev.env.logs c.order).reply ev.stmt

theorem served_of_reachable {e₀ : Rows} {s : State walkMachine} (h : Reachable e₀ s) {i : ℕ}
    {ev : Event pageWorld} (hev : s.Issued i ev) : Served ev := by
  obtain ⟨_, c, _, _, _, hexec⟩ := h.log_exec hev
  have hreply := (Prod.mk.inj (Option.some.inj hexec)).1
  exact ⟨c, hreply.symm⟩

theorem log_before {e₀ : Rows} {s : State walkMachine} (h : Reachable e₀ s) {i : ℕ}
    {c : Call walkMachine} (hc : s.call i = some c) :
    c.log.Pairwise (fun ev ev' => ev.env.Before ev'.env) ∧ ∀ ev ∈ c.log, ev.env.Before s.env := by
  refine h.log_ordered (R := Rows.Before) (fun _ _ _ => Rows.Before.trans) ?_ ?_ hc
  · intro _ _ _ e _ _ e' _ hexec
    cases hexec
    exact .refl e
  · intro _ _ _ htick
    exact .of_add htick

section Walks

variable {R M E : Type} {ask : ℕ → Program pages (Except Unit (List E))}
  {message : Dated R M → E} {event : E → NormalizedEvent} {matching : Rows → List (Dated R M)}
  {f : WindowFilter} {token : String}

theorem asksFor_ca (rows : List CaRow) :
    AsksFor (W := pageWorld) (fun offset => issue (S := pages) (.ca f offset)) CaRow.message rows
      fun ev => Served ev ∧ ev.env.ca.filter (f.holds ·.micros) = rows := by
  intro offset log page h hgood
  obtain ⟨e, r, tail, rfl, hret⟩ := Program.returns_call.mp h
  obtain ⟨rfl, rfl⟩ := Program.returns_ret.mp hret
  obtain ⟨⟨c, hreply⟩, rfl⟩ := hgood _ List.mem_cons_self
  refine ⟨rfl, _, answers_arranged c.order _, ?_⟩
  dsimp only [pageWorld.refuse, Logs.reply] at hreply
  split at hreply
  · cases hreply
  split at hreply
  · cases hreply
  · cases hreply
    rfl

theorem asksFor_kdc (rows : List KdcRow) :
    AsksFor (W := pageWorld) (fun offset => issue (S := pages) (.kdc f offset)) KdcRow.message rows
      fun ev => Served ev ∧ ev.env.kdc.filter (f.holds ·.micros) = rows := by
  intro offset log page h hgood
  obtain ⟨e, r, tail, rfl, hret⟩ := Program.returns_call.mp h
  obtain ⟨rfl, rfl⟩ := Program.returns_ret.mp hret
  obtain ⟨⟨c, hreply⟩, rfl⟩ := hgood _ List.mem_cons_self
  refine ⟨rfl, _, answers_arranged c.order _, ?_⟩
  dsimp only [pageWorld.refuse, Logs.reply] at hreply
  split at hreply
  · cases hreply
  split at hreply
  · cases hreply
  · cases hreply
    rfl

theorem asksFor_bank (rows : List BankRow) :
    AsksFor (W := pageWorld) (fun offset => issue (S := pages) (.bank f token offset)) BankRow.message rows
      fun ev => Served ev ∧ ev.env.bank.filter (f.bankHolds ·.micros) = rows := by
  intro offset log page h hgood
  obtain ⟨e, r, tail, rfl, hret⟩ := Program.returns_call.mp h
  obtain ⟨rfl, rfl⟩ := Program.returns_ret.mp hret
  obtain ⟨⟨c, hreply⟩, rfl⟩ := hgood _ List.mem_cons_self
  refine ⟨rfl, _, answers_arranged c.order _, ?_⟩
  dsimp only [pageWorld.refuse, Logs.reply] at hreply
  split at hreply
  · cases hreply
  split at hreply
  · cases hreply
  · cases hreply
    rfl

/-- A walk of a run, by what its requests ask for. -/
theorem collected_of_pages {w : Walk} (hprogram : w.program = fetchWindow ask event w.cap)
    (hhits : ∀ rows, w.hits rows = (matching rows).map fun r => event (message r))
    (htimes : ∀ rows, w.times rows = (matching rows).map (·.micros))
    (hsame : ∀ rows rows', w.Same rows rows' → matching rows = matching rows')
    (hgrow : ∀ rows rows', rows.Before rows' → (matching rows).Sublist (matching rows'))
    (hask : ∀ rows, AsksFor (W := pageWorld) ask message rows fun ev =>
      Served ev ∧ matching ev.env = rows)
    {log : List (Event pageWorld)} {rows : Rows} {events : List NormalizedEvent}
    (hreturns : w.program.Returns log (.ok events)) (hserved : ∀ ev ∈ log, Served ev)
    (hbefore : ∀ ev ∈ log, ev.env.Before rows) (hquiet : w.Undisturbed log) :
    w.Collected log rows events := by
  rw [hprogram] at hreturns
  cases log with
  | nil =>
    -- without a request there is nothing to find
    obtain ⟨hle, -⟩ := fetchWindow_pages (hask (matching rows)) hreturns (by simp) (by simp)
    exact ⟨hhits rows ▸ hle, by simp⟩
  | cons first log =>
    obtain ⟨hsameFirst, hapart⟩ := hquiet first List.mem_cons_self
    obtain ⟨hle, hall⟩ := fetchWindow_pages (hask (matching first.env)) hreturns
      (fun ev hev => ⟨hserved ev hev, (hsame _ _ (hsameFirst ev hev)).symm⟩)
      (htimes first.env ▸ hapart)
    refine ⟨hle.trans ?_, ?_⟩
    · rw [hhits]
      exact Multiset.coe_le.mpr
        ((hgrow _ _ (hbefore first List.mem_cons_self)).map _).subperm
    · intro ev hev hfew
      rw [List.head?_cons, Option.mem_some_iff] at hev
      subst hev
      rw [hhits] at hfew ⊢
      rw [List.length_map] at hfew
      exact hall hfew

end Walks

/-- **A walk that is not disturbed** returns no event twice, and if fewer events than its cap match,
all that matched at its first request: in every run of walks and additions. -/
theorem walk_collected {e₀ : Rows} {s : State walkMachine} (h : Reachable e₀ s) {i : ℕ}
    {c : Call walkMachine} (hc : s.call i = some c) {events : List NormalizedEvent}
    (hresult : c.rest.result = some (.ok events)) (hquiet : c.request.Undisturbed c.log) :
    c.request.Collected c.log s.env events := by
  have hreturns := h.returns hc hresult
  have hserved : ∀ ev ∈ c.log, Served ev := fun ev hev => served_of_reachable h ⟨c, hc, hev⟩
  have hbefore := (log_before h hc).2
  generalize c.request = w at hreturns hquiet ⊢
  cases w with
  | ca f cap =>
    exact collected_of_pages (w := .ca f cap) rfl (fun _ => rfl) (fun _ => rfl) (fun _ _ => id)
      (fun _ _ hgrow => hgrow.ca.sublist.filter _) asksFor_ca hreturns hserved hbefore hquiet
  | kdc f cap =>
    exact collected_of_pages (w := .kdc f cap) rfl (fun _ => rfl) (fun _ => rfl) (fun _ _ => id)
      (fun _ _ hgrow => hgrow.kdc.sublist.filter _) asksFor_kdc hreturns hserved hbefore hquiet
  | bank f cap token =>
    exact collected_of_pages (w := .bank f cap token) rfl (fun _ => rfl) (fun _ => rfl)
      (fun _ _ => id) (fun _ _ hgrow => hgrow.bank.sublist.filter _) asksFor_bank hreturns hserved
      hbefore hquiet

/-! ## Sample runs -/

section Samples

/-- The rows that match are the same ones if there are as many. -/
theorem Walk.Same.of_length {w : Walk} {rows rows' : Rows} (h : rows.Before rows')
    (hlen : (w.times rows).length = (w.times rows').length) : w.Same rows rows' := by
  cases w with
  | _ f =>
    simp only [times, List.length_map] at hlen
    first
      | exact (h.ca.sublist.filter _).eq_of_length hlen
      | exact (h.kdc.sublist.filter _).eq_of_length hlen
      | exact (h.bank.sublist.filter _).eq_of_length hlen

theorem Walk.Same.symm {w : Walk} {rows rows' : Rows} (h : w.Same rows rows') : w.Same rows' rows := by
  cases w <;> exact Eq.symm h

theorem Walk.Same.refl (w : Walk) (rows : Rows) : w.Same rows rows := by
  cases w <;> rfl

/-- A ticket in the log of the KDC, at a number of seconds. -/
def ticket (seconds : ℤ) : Option KdcRow :=
  (Checked.of 30 Kdc.auditActions "as_ticket_issued").map (sampleKdcRow seconds)

/-- Tickets in the log of the KDC, one in every second. -/
def ticketRows (n : ℕ) : Rows where
  ca := []
  kdc := (List.range n).flatMap fun k => (ticket k).toList
  bank := []
  session _ := false

/-- A walk over the tickets of 200 seconds. Between two of its pages a row is added. -/
def walkOver (row : KdcRow) : List (Act walkMachine) :=
  [.spawn 0 (.kdc ⟨0, 200⟩ 150), .run 0 {}, .tick (.kdc row), .run 0 {}]

/-- The events that a walk has found. -/
def walkEvents (c : Call walkMachine) : List NormalizedEvent :=
  match c.rest.result with
  | some (.ok events) => events
  | _ => []

theorem result_of_walkEvents {c : Call walkMachine} (h : walkEvents c ≠ []) :
    c.rest.result = some (.ok (walkEvents c)) := by
  unfold walkEvents at h ⊢
  split at h
  · next heq => rw [heq]
  · exact absurd rfl h

/-- How many rows matched at the requests of a walk, and how many events it has found. -/
def walkView (s : State walkMachine) : Option (List ℕ × Bool × ℕ) :=
  (s.call 0).map fun c => (c.log.map fun ev => (c.request.times ev.env).length,
    c.log.all fun ev => Apart (c.request.times ev.env) pageSize, (walkEvents c).length)

/-- A row that is added outside the window does not disturb a walk over two pages. -/
theorem walk_collected_of_later : ∃ s c, Reachable (ticketRows 101) s ∧ s.call 0 = some c ∧
    (walkEvents c).length = 101 ∧ c.request.Collected c.log s.env (walkEvents c) := by
  obtain ⟨row, hrow⟩ : ∃ row, ticket 300 = some row := Option.isSome_iff_exists.mp (by decide)
  have hruns : ((ticket 300).bind fun row => runAll ⟨ticketRows 101, ∅⟩ (walkOver row)).map walkView =
      some (some ([101, 101], true, 101)) := by decide +kernel
  rw [hrow, Option.bind_some] at hruns
  obtain ⟨s, hs, hview⟩ := steps_of_view hruns
  have hreach : Reachable (ticketRows 101) s := ⟨_, hs⟩
  obtain ⟨c, hc, hview⟩ := Option.map_eq_some_iff.mp hview
  simp only [Prod.mk.injEq] at hview
  obtain ⟨hmatching, hapart, hfound⟩ := hview
  have hresult := result_of_walkEvents (c := c) (by rintro heq; rw [heq] at hfound; cases hfound)
  refine ⟨s, c, hreach, hc, hfound, walk_collected hreach hc hresult fun ev hev => ⟨?_, ?_⟩⟩
  · -- as many rows match at the second request as at the first one
    obtain ⟨ev₁, ev₂, hlog⟩ : ∃ ev₁ ev₂, c.log = [ev₁, ev₂] :=
      List.length_eq_two.mp (by simpa using congrArg List.length hmatching)
    have hbefore := (log_before hreach hc).1
    rw [hlog] at hmatching hbefore hev ⊢
    simp only [List.map_cons, List.map_nil, List.cons.injEq, and_true] at hmatching
    have hsame : c.request.Same ev₁.env ev₂.env :=
      .of_length (by simpa using hbefore) (hmatching.1.trans hmatching.2.symm)
    intro ev' hev'
    simp only [List.mem_cons, List.not_mem_nil, or_false] at hev hev'
    rcases hev with rfl | rfl <;> rcases hev' with rfl | rfl
    · exact .refl _ _
    · exact hsame
    · exact hsame.symm
    · exact .refl _ _
  · -- the one place between two pages
    intro k hk hlt
    have hlen : c.log.length = 2 := by simpa using congrArg List.length hmatching
    obtain rfl : k = 1 := by omega
    simpa using List.all_eq_true.mp hapart ev hev

/-- A row that is added between two pages moves the last row of one page to the next one. -/
theorem walk_not_collected : ¬ ∀ (e₀ : Rows) (s : State walkMachine) (i : ℕ) (c : Call walkMachine)
    (events : List NormalizedEvent), Reachable e₀ s → s.call i = some c →
    c.rest.result = some (.ok events) → c.request.Collected c.log s.env events := by
  intro hall
  obtain ⟨row, hrow⟩ : ∃ row, ticket 150 = some row := Option.isSome_iff_exists.mp (by decide)
  have hruns : ((ticket 150).bind fun row => runAll ⟨ticketRows 100, ∅⟩ (walkOver row)).map (fun s =>
      (s.call 0).map fun c => ((walkEvents c).countP (·.ts = 0),
        (c.request.hits s.env).countP (·.ts = 0))) = some (some (2, 1)) := by decide +kernel
  rw [hrow, Option.bind_some] at hruns
  obtain ⟨s, hs, hview⟩ := steps_of_view hruns
  obtain ⟨c, hc, hview⟩ := Option.map_eq_some_iff.mp hview
  obtain ⟨hfound, hstored⟩ := Prod.mk.inj hview
  have hresult := result_of_walkEvents (c := c) (by rintro heq; rw [heq] at hfound; cases hfound)
  have honce := (hall _ s 0 c _ ⟨_, hs⟩ hc hresult).once
  have hle := (Multiset.coe_le.mp honce).countP_le (fun e => decide (e.ts = 0))
  omega

end Samples

end Gateway
