import MiniBanking.Frontend.Window

/-!
# Session keys in use

An operation holds a key by its address, so a logout, or a ticket that replaces the one it holds,
takes the key away from under it: the operation goes on and encrypts under zeros. Where no step
fills a key that an operation in progress still needs, every key that is imported is the one that
came with the ticket of the request.

## Main definitions

* `inUse`: the ticket that an operation has picked up and still needs
* `Spares`: a step fills no key that an operation in progress needs
* `Intact`: every request and every reply goes with the key of its ticket
* `Run.Keeps`: an operation issues each statement under its promise

## Main results

* `operation_keeps`: what an operation imports and sends is about the ticket that it holds
* `session_keys_intact`: the keys are intact in every run whose steps spare the keys in use
-/

namespace Frontend

open Concurrency Go Js

variable {V : Type} {w : Window V}

/-! ## Keys in use -/

/-- The ticket that an operation holds after a statement: it lets go of it with the decryption of
the reply. -/
def Stmt.holds : (st : Stmt V) → Reply st → Option (Held V) → Option (Held V)
  | .beginTgs _ _, .ok (.inr (held, _)), _ => some held
  | .getServiceTicket _, held, _ => held
  | .beginAp _, picked, _ => picked.map (·.1)
  | .importKey .decrypt _, _, _ => none
  | _, _, before => before

/-- The key that a statement imports, and for which ticket. -/
def Stmt.imports : (st : Stmt V) → Reply st → Option (Held V × Imported)
  | .beginTgs _ _, .ok (.inr picked) => some picked
  | .beginAp _, picked => picked
  | .importKey _ held, drawn => some (held, drawn)
  | _, _ => none

/-- The ticket that an operation has picked up and still needs. -/
def inUse (log : List (Event w.world)) : Option (Held V) :=
  log.foldl (fun before ev => ev.stmt.holds ev.reply before) none

@[simp] theorem inUse_concat (log : List (Event w.world)) (ev : Event w.world) :
    inUse (log ++ [ev]) = ev.stmt.holds ev.reply (inUse log) := by
  simp [inUse]

/-- A ticket stays in use over a statement that picks up none and decrypts nothing. -/
theorem inUse_snoc {log : List (Event w.world)} {held : Held V} (h : inUse log = some held)
    (ev : Event w.world) (hev : ∀ before, ev.stmt.holds ev.reply before = before) :
    inUse (log ++ [ev]) = some held := by
  rw [inUse_concat, hev, h]

/-- The step fills no key that an operation in progress needs. -/
def Spares (s : State (windowMachine w)) (a : Act (windowMachine w)) : Prop :=
  ∀ i o c (st : Stmt V), a = .run i o → s.call i = some c → c.rest.head = some st →
    ∀ n ∈ st.fills s.env, ∀ j c' held, s.call j = some c' → c'.rest.result = none →
      inUse c'.log = some held → held.address ≠ n

/-- A statement goes with the key of its ticket: a key that is imported has the bytes that came
with the ticket, what is encrypted in a request is encrypted under the key of the ticket it is
sent with, and a reply is decrypted for the ticket of the request before it. -/
structure Fits (before : List (Event w.world)) (ev : Event w.world) : Prop where
  imported : ∀ held drawn, ev.stmt.imports ev.reply = some (held, drawn) → drawn.key = held.key
  sent : ∀ message, ev.stmt = .post message → ∃ held, inUse before = some held ∧
    message.ticket = held.ticket ∧
    ∀ c ∈ message.ciphertexts, ∃ iv text, w.aesGcmEncrypt held.key iv text = some c
  opened : ∀ held, ev.stmt = .importKey .decrypt held → inUse before = some held ∧
    ∃ message, before.getLast?.map (·.stmt) = some (.post message) ∧
      message.ticket = held.ticket

/-- **The session keys are intact**: every statement of every operation goes with the key of its
ticket. -/
def Intact (s : State (windowMachine w)) : Prop :=
  ∀ i c before ev after, s.call i = some c → c.log = before ++ ev :: after → Fits before ev

/-! ## The page -/

section Page

variable {p p' : Page V} {n : ℕ} {filled : List ℕ} {buffers : List (List UInt8)}
  {key : List UInt8} {st : Stmt V} {o : Outcome V}

@[simp] theorem length_fillZero (filled : List ℕ) (buffers : List (List UInt8)) :
    (fillZero filled buffers).length = buffers.length := by
  simp [fillZero]

theorem Page.read_eq (h : p.buffers[n]? = some key) : p.read n = key := by
  rw [Page.read, List.getD_eq_getElem?_getD, h, Option.getD_some]

/-- The other byte arrays keep their bytes. -/
theorem getElem?_fillZero (h : n ∉ filled) : (fillZero filled buffers)[n]? = buffers[n]? := by
  rw [fillZero, List.getElem?_mapIdx]
  simp [h]

/-- What a page keeps: the session, or the ticket of a scope. -/
def Page.slot (p : Page V) : Option String → Option (Held V)
  | none => p.current.map fun s => s.1.held s.2
  | some scope => (p.tickets.lookup scope).map fun t => t.1.held t.2

/-- The keys that a page keeps are intact, and no two share a byte array. -/
structure WellKept (p : Page V) : Prop where
  read : ∀ slot held, p.slot slot = some held → p.buffers[held.address]? = some held.key
  apart : ∀ slot slot' held held', p.slot slot = some held → p.slot slot' = some held' →
    held.address = held'.address → slot = slot'

theorem wellKept_opened (now : SafeInteger) : WellKept (Page.opened now : Page V) where
  read slot held h := by cases slot <;> cases h
  apart slot slot' held held' h := by cases slot <;> cases h

/-- Keys that are filled are dropped, and a new key has a byte array of its own. -/
theorem WellKept.change (h : WellKept p) {added : List (List UInt8)} (changed : Option String)
    (hbuffers : p'.buffers = fillZero filled p.buffers ++ added)
    (hslots : ∀ slot held, p'.slot slot = some held →
      (p.slot slot = some held ∧ held.address ∉ filled) ∨
      (slot = changed ∧ held.address = p.buffers.length ∧ added = [held.key])) : WellKept p' where
  read slot held hheld := by
    rw [hbuffers]
    rcases hslots slot held hheld with ⟨hold, hspared⟩ | ⟨-, hnew, rfl⟩
    · have hread := h.read slot held hold
      have hlt := (List.getElem?_eq_some_iff.mp hread).1
      rw [List.getElem?_append_left (by rwa [length_fillZero]), getElem?_fillZero hspared, hread]
    · rw [hnew, List.getElem?_append_right (by simp)]
      simp
  apart slot slot' held held' hheld hheld' heq := by
    rcases hslots slot held hheld with ⟨hold, -⟩ | ⟨hslot, hnew, -⟩
    · rcases hslots slot' held' hheld' with ⟨hold', -⟩ | ⟨-, hnew', -⟩
      · exact h.apart slot slot' held held' hold hold' heq
      · have hlt := (List.getElem?_eq_some_iff.mp (h.read slot held hold)).1
        omega
    · rcases hslots slot' held' hheld' with ⟨hold', -⟩ | ⟨hslot', -⟩
      · have hlt := (List.getElem?_eq_some_iff.mp (h.read slot' held' hold')).1
        omega
      · rw [hslot, hslot']

/-- A new ticket takes the place of the one of its scope. -/
theorem WellKept.setServiceTicket (h : WellKept p) (ticket : ServiceTicketSession V) :
    WellKept (p.setServiceTicket ticket) := by
  refine h.change (some ticket.scope) rfl fun slot held hheld => ?_
  by_cases hslot : slot = some ticket.scope
  · subst hslot
    obtain rfl : ticket.held p.buffers.length = held := by
      simpa [Page.slot, Page.setServiceTicket] using hheld
    exact .inr ⟨rfl, rfl, rfl⟩
  · have hold : p.slot slot = some held := by
      cases slot with
      | none => exact hheld
      | some scope =>
        have hne : scope ≠ ticket.scope := fun heq => hslot (congrArg some heq)
        simpa [Page.slot, Page.setServiceTicket, AList.lookup_insert_ne hne] using hheld
    refine .inl ⟨hold, fun hmem => hslot ?_⟩
    -- the address is that of the ticket of the scope
    simp only [Page.replacedKey, Option.mem_toList, Option.map_eq_some_iff] at hmem
    obtain ⟨⟨t, n⟩, ht, hn⟩ := hmem
    exact h.apart slot _ held (t.held n) hold (by simp [Page.slot, ht]) hn.symm

/-- A new session takes the place of the old one. -/
theorem WellKept.setSession (h : WellKept p) (session : AsSession V) :
    WellKept (p.setSession session) := by
  refine h.change none rfl fun slot held hheld => ?_
  cases slot with
  | none =>
    obtain rfl : session.held p.buffers.length = held := Option.some.inj hheld
    exact .inr ⟨rfl, rfl, rfl⟩
  | some scope =>
    refine .inl ⟨hheld, fun hmem => ?_⟩
    simp only [Page.currentKey, Option.mem_toList, Option.map_eq_some_iff] at hmem
    obtain ⟨⟨s, n⟩, hs, hn⟩ := hmem
    cases h.apart (some scope) none held (s.held n) hheld (by simp [Page.slot, hs]) hn.symm

/-- After a logout nothing is kept. -/
theorem WellKept.handleLogout (p : Page V) : WellKept p.handleLogout where
  read slot held h := by cases slot <;> cases h
  apart slot slot' held held' h := by cases slot <;> cases h

/-- Every statement leaves the keys of the page intact. -/
theorem WellKept.exec (h : WellKept p) (st : Stmt V) (o : Outcome V) :
    WellKept (w.exec st o p).2 := by
  cases st with
  | setServiceTicket ticket => exact h.setServiceTicket ticket
  | setSession session => exact h.setSession session
  | handleLogout => exact .handleLogout p
  | _ => exact h

/-- A statement leaves the keys that it does not fill as they are. -/
theorem getElem?_exec (hspared : n ∉ st.fills p) (hread : p.buffers[n]? = some key) :
    (w.exec st o p).2.buffers[n]? = some key := by
  have hlt := (List.getElem?_eq_some_iff.mp hread).1
  have hkept : ∀ filled added, n ∉ filled →
      (fillZero filled p.buffers ++ added)[n]? = some key := by
    intro filled added hn
    rw [List.getElem?_append_left (by rwa [length_fillZero]), getElem?_fillZero hn, hread]
  cases st with
  | setServiceTicket ticket => exact hkept _ _ hspared
  | setSession session => exact hkept _ _ hspared
  | handleLogout =>
    obtain ⟨htickets, hcurrent⟩ := not_or.mp (mt List.mem_append.mpr hspared)
    show (fillZero p.currentKey (fillZero p.ticketKeys p.buffers))[n]? = some key
    rw [getElem?_fillZero hcurrent, getElem?_fillZero htickets, hread]
  | _ => exact hread

theorem slot_of_hold {scope : Scope} {held : Held V} (h : p.hold scope = some held) :
    p.slot (some scope.text) = some held := h

/-- What the TGS exchange begins with is the TGT of the session. -/
theorem beginTgs_inr {scope : Scope} {force : Bool} {held : Held V} {drawn : Imported}
    (h : w.beginTgs p scope force o = .ok (.inr (held, drawn))) :
    p.slot none = some held ∧ drawn = p.importKey held o := by
  unfold Window.beginTgs at h
  split at h
  · obtain ⟨existing, -, h⟩ := bind_eq_ok.mp h
    cases h
  · obtain ⟨-, -, h⟩ := bind_eq_ok.mp h
    cases hcurrent : p.current with
    | none =>
      rw [hcurrent] at h
      cases h
    | some current =>
      rw [hcurrent] at h
      cases h
      exact ⟨by rw [Page.slot, hcurrent]; rfl, rfl⟩

/-- A ticket that is picked up is one that the page keeps. -/
theorem holds_exec {before : Option (Held V)} {held : Held V}
    (h : st.holds (w.exec st o p).1 before = some held) :
    before = some held ∨ (∃ slot, p.slot slot = some held) ∧ (w.exec st o p).2 = p := by
  cases st with
  | beginTgs scope force =>
    change Stmt.holds (.beginTgs scope force) (w.beginTgs p scope force o) before = some held at h
    cases hbegin : w.beginTgs p scope force o with
    | error failure =>
      rw [hbegin] at h
      exact .inl h
    | ok picked =>
      rw [hbegin] at h
      rcases picked with existing | ⟨held', drawn⟩
      · exact .inl h
      · cases h
        exact .inr ⟨⟨none, (beginTgs_inr hbegin).1⟩, rfl⟩
  | getServiceTicket scope => exact .inr ⟨⟨some scope.text, slot_of_hold h⟩, rfl⟩
  | beginAp scope =>
    change ((p.hold scope).map fun held => (held, p.importKey held o)).map (·.1) = some held at h
    rw [Option.map_map, Function.comp_def, Option.map_id'] at h
    exact .inr ⟨⟨some scope.text, slot_of_hold h⟩, rfl⟩
  | importKey usage _ =>
    cases usage with
    | encrypt => exact .inl h
    | decrypt => cases h
  | _ => exact .inl h

/-- A key that is imported is read at the address that its ticket stands with. -/
theorem imports_exec {held : Held V} {drawn : Imported}
    (h : st.imports (w.exec st o p).1 = some (held, drawn)) :
    drawn.key = p.read held.address ∧
      ((∃ slot, p.slot slot = some held) ∨ ∃ usage, st = .importKey usage held) := by
  cases st with
  | beginTgs scope force =>
    change Stmt.imports (.beginTgs scope force) (w.beginTgs p scope force o) = _ at h
    cases hbegin : w.beginTgs p scope force o with
    | error failure =>
      rw [hbegin] at h
      cases h
    | ok picked =>
      rw [hbegin] at h
      rcases picked with existing | ⟨held', drawn'⟩
      · cases h
      · cases h
        obtain ⟨hslot, rfl⟩ := beginTgs_inr hbegin
        exact ⟨rfl, .inl ⟨none, hslot⟩⟩
  | beginAp scope =>
    change (p.hold scope).map (fun held => (held, p.importKey held o)) = some (held, drawn) at h
    obtain ⟨held', hhold, heq⟩ := Option.map_eq_some_iff.mp h
    cases heq
    exact ⟨rfl, .inl ⟨some scope.text, slot_of_hold hhold⟩⟩
  | importKey usage held' =>
    cases h
    exact ⟨rfl, .inr ⟨usage, rfl⟩⟩
  | _ => cases h

end Page

/-! ## Operations -/

section Operations

variable {α β : Type} {log : List (Event w.world)} {held : Held V}

/-- The bytes were encrypted under a key that was imported for the ticket. -/
def Sealed (log : List (Event w.world)) (held : Held V) (c : List UInt8) : Prop :=
  ∃ ev ∈ log, ∃ drawn text, ev.stmt.imports ev.reply = some (held, drawn) ∧
    w.aesGcmEncrypt drawn.key drawn.iv text = some c

/-- Under which condition a statement is issued: what is sent and what is imported belongs to the
ticket in use, and a reply is decrypted right after its request. -/
def Promise (log : List (Event w.world)) : Stmt V → Prop
  | .post message => ∃ held, inUse log = some held ∧ message.ticket = held.ticket ∧
      ∀ c ∈ message.ciphertexts, Sealed log held c
  | .importKey .encrypt held => inUse log = some held
  | .importKey .decrypt held => inUse log = some held ∧
      ∃ message, log.getLast?.map (·.stmt) = some (.post message) ∧ message.ticket = held.ticket
  | _ => True

/-- The program issues each statement under its promise, whatever the others do, and what it
returns is in `Q`. -/
def Run.Keeps (p : Run V α) (log : List (Event w.world))
    (Q : List (Event w.world) → α → Prop) : Prop :=
  ∀ e l, Program.Meets (W := w.world) (fun _ _ => True) (fun log st _ _ => Promise log st)
    (fun log r _ _ => ∀ a, r = Except.ok a → Q log a) p.run log e l

namespace Run.Keeps

variable {p : Run V α} {f : α → Run V β} {Q : List (Event w.world) → α → Prop}
  {Q' : List (Event w.world) → β → Prop}

theorem of_except {x : Except Failure α} (h : ∀ a, x = .ok a → Q log a) :
    (Run.of x : Run V α).Keeps log Q :=
  fun _ _ _ _ => h

theorem ret {a : α} (h : Q log a) : (pure a : Run V α).Keeps log Q := by
  intro e l e' _ a' heq
  cases heq
  exact h

theorem thrown {failure : Failure} : (throw failure : Run V α).Keeps log Q := by
  intro e l e' _ a' heq
  cases heq

theorem attempt {x : Option α} (h : ∀ a, x = some a → Q log a) :
    (Run.attempt x : Run V α).Keeps log Q :=
  of_except fun a ha => h a (attempt_eq_ok.mp ha)

theorem issue {st : Stmt V} {Q : List (Event w.world) → Reply st → Prop} (hpromise : Promise log st)
    (h : ∀ e r, Q (log ++ [⟨st, e, r⟩]) r) : (stmt st).Keeps log Q := by
  intro e l e' _
  refine ⟨hpromise, fun _ _ r _ _ _ _ _ a ha => ?_⟩
  cases ha
  exact h e' r

theorem bind (h : p.Keeps log fun log a => (f a).Keeps log Q') : (p >>= f).Keeps log Q' := by
  intro e l
  refine Program.Meets.bind (fun _ _ _ => trivial) ((h e l).mono (fun _ _ _ _ hs => hs) ?_)
  intro log r e l hr
  cases r with
  | error failure =>
    intro e' _ a ha
    cases ha
  | ok a => exact hr a rfl e l

theorem mono {R : List (Event w.world) → α → Prop} (h : p.Keeps log Q)
    (hQ : ∀ log a, Q log a → R log a) : p.Keeps log R :=
  fun e l => (h e l).mono (fun _ _ _ _ hs => hs) fun log _ _ _ hr a ha => hQ log a (hr a ha)

end Run.Keeps

/-- What was encrypted stays so. -/
theorem Sealed.append {c : List UInt8} (h : Sealed log held c) (log' : List (Event w.world)) :
    Sealed (log ++ log') held c := by
  obtain ⟨ev, hev, hsealed⟩ := h
  exact ⟨ev, List.mem_append_left _ hev, hsealed⟩

namespace Window

open Run

/-- A text is encrypted under a key that was imported for the ticket. -/
theorem encrypt_keeps {drawn : Imported} {text : List UInt8} {ev : Event w.world}
    (hev : ev ∈ log) (himports : ev.stmt.imports ev.reply = some (held, drawn)) :
    (w.encrypt drawn text).Keeps log fun log' c => log' = log ∧ Sealed log held c :=
  .attempt fun _ hc => ⟨rfl, ev, hev, drawn, text, himports, hc⟩

/-- A request is sent with the ticket in use, and its reply decrypted for it. -/
theorem exchange_keeps {message : Message V} {name : String} (hheld : inUse log = some held)
    (hticket : message.ticket = held.ticket)
    (hsealed : ∀ c ∈ message.ciphertexts, Sealed log held c) :
    (w.exchange held message name).Keeps log fun _ _ => True := by
  refine .bind (.issue ⟨held, hheld, hticket, hsealed⟩ fun e r => ?_)
  refine .bind (.attempt fun resp _ => ?_)
  refine .bind (.of_except fun _ _ => ?_)
  refine .bind (.issue ⟨?_, message, ?_, hticket⟩ fun _ _ => .ret trivial)
  · rw [inUse_concat]
    exact hheld
  · rw [List.getLast?_concat]
    rfl

/-- The TGS exchange, from any point on. -/
theorem performTgsExchange_keeps (scope : Scope) (force : Bool) :
    (w.performTgsExchange scope force).Keeps log fun _ _ => True := by
  refine .bind (.issue trivial fun e r => .bind (.of_except fun picked hr => ?_))
  cases hr
  rcases picked with existing | ⟨held, drawn⟩
  · exact .ret trivial
  · refine .bind ((encrypt_keeps (List.mem_append_right _ List.mem_cons_self) rfl).mono ?_)
    rintro _ authenticator ⟨rfl, hsealed⟩
    have hheld : inUse (log ++ [⟨.beginTgs scope force, e, .ok (.inr (held, drawn))⟩]) =
        some held := inUse_concat _ _
    refine .bind ((exchange_keeps hheld rfl ?_).mono fun log' reply _ => ?_)
    · rintro c hc
      obtain rfl := List.mem_singleton.mp hc
      exact hsealed
    · exact .bind (.of_except fun ticket _ => .bind (.issue trivial fun _ _ => .ret trivial))

/-- A transfer holds on to one ticket. -/
theorem performTransfer_keeps (params : TransferParams) :
    (w.performTransfer params).Keeps log fun _ _ => True := by
  refine .bind ((performTgsExchange_keeps _ _).mono fun log _ _ => ?_)
  refine .bind (.issue trivial fun e r => ?_)
  cases r with
  | none => exact .thrown
  | some held =>
    have hheld : inUse (log ++ [⟨.getServiceTicket .transferCreate, e, some held⟩]) = some held :=
      inUse_concat _ _
    refine .bind (.issue trivial fun e₁ r₁ => .bind (.of_except fun _ _ => ?_))
    replace hheld := inUse_snoc hheld ⟨.getWrappedPrivateKey, e₁, r₁⟩ fun _ => rfl
    -- the authenticator
    refine .bind (.issue hheld fun e₂ drawn => ?_)
    replace hheld := inUse_snoc hheld ⟨.importKey .encrypt held, e₂, drawn⟩ fun _ => rfl
    refine .bind ((encrypt_keeps (List.mem_append_right _ List.mem_cons_self) rfl).mono ?_)
    rintro _ authenticator ⟨rfl, hauthenticator⟩
    -- the payload
    refine .bind (.issue trivial fun e₃ r₃ => .bind (.attempt fun signature _ => ?_))
    refine .bind (.issue (inUse_snoc hheld _ fun _ => rfl) fun e₄ sealing => ?_)
    refine .bind ((encrypt_keeps (List.mem_append_right _ List.mem_cons_self) rfl).mono ?_)
    rintro _ embedded ⟨rfl, hembedded⟩
    refine .bind ((exchange_keeps ?_ rfl ?_).mono fun _ _ _ => ?_)
    · exact inUse_snoc (inUse_snoc hheld _ fun _ => rfl) _ fun _ => rfl
    · intro c hc
      simp only [Message.ciphertexts, List.take_append_drop, List.mem_cons, List.not_mem_nil,
        or_false] at hc
      rcases hc with rfl | rfl
      · exact (hauthenticator.append _).append _
      · exact hembedded
    · exact .of_except fun _ _ => trivial

/-- The AP exchange of the other operations holds on to one ticket. -/
theorem readAp_keeps {scope : Scope} {missing : String}
    {message : V → List UInt8 → String → Message V}
    (hticket : ∀ ticket authenticator id, (message ticket authenticator id).ticket = ticket)
    (hciphertexts : ∀ ticket authenticator id,
      (message ticket authenticator id).ciphertexts = [authenticator]) :
    (w.readAp scope missing message).Keeps log fun _ _ => True := by
  refine .bind (.issue trivial fun e r => ?_)
  cases r with
  | none => exact .thrown
  | some picked =>
    obtain ⟨held, drawn⟩ := picked
    refine .bind ((encrypt_keeps (List.mem_append_right _ List.mem_cons_self) rfl).mono ?_)
    rintro _ authenticator ⟨rfl, hsealed⟩
    have hheld : inUse (log ++ [⟨.beginAp scope, e, some (held, drawn)⟩]) = some held :=
      inUse_concat _ _
    refine .bind ((exchange_keeps hheld (hticket _ _ _) ?_).mono fun _ _ _ => ?_)
    · intro c hc
      rw [hciphertexts, List.mem_singleton] at hc
      exact hc ▸ hsealed
    · exact .bind (.of_except fun _ _ => .bind (.attempt fun _ _ => .ret trivial))

theorem performAsExchange_keeps : w.performAsExchange.Keeps log fun _ _ => True := by
  refine .bind (.issue trivial fun e r => .bind (.attempt fun exchanged _ => ?_))
  exact .bind (.of_except fun _ _ => .bind (.issue trivial fun _ _ => .ret trivial))

/-- What follows a condition that is computed. -/
theorem check_keeps {α : Type} {x : Except Failure Bool} {message : String} {p : Run V α}
    {Q : List (Event w.world) → α → Prop} (h : p.Keeps log Q) :
    (do Run.of (check ((← Run.of x) = true) message); p).Keeps log Q :=
  .bind (.of_except fun _ _ => .bind (.of_except fun _ _ => h))

theorem fetchProfile_keeps : w.fetchProfile.Keeps log fun _ _ => True := by
  refine .bind ((performTgsExchange_keeps _ _).mono fun log _ _ => ?_)
  refine .bind ((readAp_keeps (fun _ _ _ => rfl) fun _ _ _ => rfl).mono fun _ _ _ => ?_)
  exact check_keeps (check_keeps (.ret trivial))

theorem fetchHistory_keeps (accountId : String) :
    (w.fetchHistory accountId).Keeps log fun _ _ => True := by
  refine .bind (.of_except fun _ _ => ?_)
  refine .bind ((performTgsExchange_keeps _ _).mono fun log _ _ => ?_)
  refine .bind ((readAp_keeps (fun _ _ _ => rfl) fun _ _ _ => rfl).mono fun _ _ _ => ?_)
  exact check_keeps (check_keeps (.ret trivial))

theorem createAdminSession_keeps : w.createAdminSession.Keeps log fun _ _ => True := by
  refine .bind (performAsExchange_keeps.mono fun log _ _ => ?_)
  refine .bind ((performTgsExchange_keeps _ _).mono fun log _ _ => ?_)
  refine .bind ((readAp_keeps (fun _ _ _ => rfl) fun _ _ _ => rfl).mono fun _ _ _ => ?_)
  -- what is left are checks of the replies
  refine check_keeps (.bind (.of_except fun _ _ => .bind (.of_except fun _ _ => ?_)))
  refine .bind (.of_except fun _ _ => .bind (.of_except fun _ _ => ?_))
  refine .bind (.of_except fun _ _ => .bind (.of_except fun _ _ => ?_))
  refine check_keeps (.bind (.of_except fun _ _ => .bind (.of_except fun _ _ => ?_)))
  exact .bind (.of_except fun _ _ => .ret trivial)

/-- **What an operation imports and sends is about the ticket that it holds.** -/
theorem operation_keeps (q : Operation) : (w.operation q).Keeps log fun _ _ => True := by
  cases q with
  | performTransfer params =>
    exact .bind ((performTransfer_keeps params).mono fun _ _ _ => .ret trivial)
  | fetchProfile => exact .bind (fetchProfile_keeps.mono fun _ _ _ => .ret trivial)
  | fetchHistory accountId =>
    exact .bind ((fetchHistory_keeps accountId).mono fun _ _ _ => .ret trivial)
  | createAdminSession => exact .bind (createAdminSession_keeps.mono fun _ _ _ => .ret trivial)
  | performTgsExchange scope force =>
    exact .bind ((performTgsExchange_keeps scope force).mono fun _ _ _ => .ret trivial)
  | performAsExchange => exact .bind (performAsExchange_keeps.mono fun _ _ _ => .ret trivial)
  | handleLogout => exact .issue trivial fun _ _ => trivial

end Window

end Operations

/-! ## Runs -/

section Runs

variable {e : Page V} {s t : State (windowMachine w)} {a : Act (windowMachine w)}

/-- What is left of every operation issues each statement under its promise. -/
theorem reachable_promise (h : Reachable e s) : True ∧ ∀ i c, s.call i = some c →
    c.rest.Meets (fun _ _ => True) (fun log (st : Stmt V) _ _ => Promise log st)
      (fun _ _ _ _ => True) c.log s.env c.loc := by
  refine h.meets (G := fun _ log (st : Stmt V) _ _ => Promise log st) (Q := fun _ _ _ _ _ => True)
    trivial (fun _ _ _ => trivial) (fun _ _ _ _ _ => trivial) ?_ (fun _ _ _ _ _ => trivial) ?_
  · exact fun _ _ _ _ _ _ _ _ _ _ _ _ _ _ _ _ => trivial
  · intro q e _
    exact (Window.operation_keeps q e ()).mono (fun _ _ _ _ hs => hs) fun _ _ _ _ _ => trivial

/-- **What is in use is intact**: the keys of the page, the keys of the tickets that operations in
progress still need, and the keys that were imported. -/
structure KeysKept (s : State (windowMachine w)) : Prop where
  page : WellKept s.env
  held : ∀ i c held, s.call i = some c → c.rest.result = none → inUse c.log = some held →
    s.env.buffers[held.address]? = some held.key
  imported : ∀ i c, s.call i = some c → ∀ ev ∈ c.log, ∀ held drawn,
    ev.stmt.imports ev.reply = some (held, drawn) → drawn.key = held.key

namespace KeysKept

theorem opened (now : SafeInteger) : KeysKept (⟨.opened now, ∅⟩ : State (windowMachine w)) where
  page := wellKept_opened now
  held i c held hc := by cases hc
  imported i c hc := by cases hc

/-- **The keys stay intact** over a step that spares those in use. -/
theorem next (h : KeysKept s) (hreach : Reachable e s) (hspares : Spares s a)
    (hn : Concurrency.next s a = some t) : KeysKept t := by
  obtain ⟨i, q, rfl, hi, rfl⟩ | ⟨i, o, q, st, k, loc, log, r, env, loc', rfl, hi, he, rfl⟩ |
    ⟨now, env, rfl, hm, rfl⟩ := next_cases hn
  · refine ⟨h.page, fun j c held hj hrest huse => ?_, fun j c hj => ?_⟩
    · rw [State.call_put] at hj
      split at hj
      · cases hj
        cases huse
      · exact h.held j c held hj hrest huse
    · rw [State.call_put] at hj
      split at hj
      · cases hj
        intro ev hev
        cases hev
      · exact h.imported j c hj
  · obtain ⟨rfl, henv⟩ := Prod.mk.inj (Option.some.inj he)
    obtain ⟨rfl, rfl⟩ := Prod.mk.inj henv
    have hpromise : Promise log st := (((reachable_promise hreach).2 i _ hi) s.env trivial).1
    -- what was in use before the step is still there
    have hkept : ∀ j c held, s.call j = some c → c.rest.result = none → inUse c.log = some held →
        (w.exec st o s.env).2.buffers[held.address]? = some held.key := by
      intro j c held hj hrest huse
      refine getElem?_exec (fun hmem => ?_) (h.held j c held hj hrest huse)
      exact hspares i o _ st rfl hi rfl _ hmem j c held hj hrest huse rfl
    refine ⟨h.page.exec st o, fun j c held hj hrest huse => ?_, fun j c hj => ?_⟩
    · rw [State.call_put] at hj
      split at hj
      · cases hj
        rcases holds_exec ((inUse_concat log _).symm.trans huse) with hbefore | ⟨⟨slot, hslot⟩, hpage⟩
        · exact hkept i _ held hi rfl hbefore
        · show (w.exec st o s.env).2.buffers[held.address]? = some held.key
          rw [hpage]
          exact h.page.read slot held hslot
      · exact hkept j c held hj hrest huse
    · rw [State.call_put] at hj
      split at hj
      · cases hj
        intro ev hev held drawn himports
        rcases List.mem_append.mp hev with hev | hev
        · exact h.imported i _ hi ev hev held drawn himports
        · obtain rfl := List.mem_singleton.mp hev
          obtain ⟨hread, hfrom⟩ := imports_exec himports
          have hbytes : s.env.buffers[held.address]? = some held.key := by
            rcases hfrom with ⟨slot, hslot⟩ | ⟨usage, rfl⟩
            · exact h.page.read slot held hslot
            · refine h.held i _ held hi rfl ?_
              cases usage with
              | encrypt => exact hpromise
              | decrypt => exact hpromise.1
          exact hread.trans (Page.read_eq hbytes)
      · exact h.imported j c hj
  · cases hm
    exact ⟨⟨h.page.read, h.page.apart⟩, h.held, h.imported⟩

/-- **Every statement fits** where the keys that were imported are intact. -/
theorem intact (h : KeysKept s) (hreach : Reachable e s) : Intact s := by
  intro i c before ev after hc hlog
  have hmem : ev ∈ c.log := by
    rw [hlog]
    exact List.mem_append_right _ List.mem_cons_self
  obtain ⟨-, hpromise⟩ := @Reachable.issued_under (windowMachine w)
    (fun _ _ => True) _
    (fun _ log (st : Stmt V) _ _ => Promise log st) (fun _ _ _ _ _ => True)
    (fun hreach => reachable_promise hreach) _ hreach _ _ hc _ _ _ hlog
  refine ⟨h.imported i c hc ev hmem, fun message hst => ?_, fun held hst => ?_⟩
  · rw [hst] at hpromise
    obtain ⟨held, huse, hticket, hsealed⟩ := hpromise
    refine ⟨held, huse, hticket, fun ciphertext hciphertext => ?_⟩
    obtain ⟨ev', hev', drawn, text, himports, hencrypt⟩ := hsealed ciphertext hciphertext
    have hmem' : ev' ∈ c.log := by
      rw [hlog]
      exact List.mem_append_left _ hev'
    rw [h.imported i c hc ev' hmem' held drawn himports] at hencrypt
    exact ⟨drawn.iv, text, hencrypt⟩
  · rw [hst] at hpromise
    exact hpromise

end KeysKept

/-- **The session keys are intact** in every run of a window whose steps spare the keys in use. -/
theorem session_keys_intact {now : SafeInteger} {acts : List (Act (windowMachine w))}
    (h : Steps ⟨Page.opened now, ∅⟩ acts s)
    (hspares : ∀ n a u v, TakenAt ⟨Page.opened now, ∅⟩ acts n a u v → Spares u a) :
    Intact s := by
  suffices hkept : KeysKept s from hkept.intact ⟨acts, h⟩
  induction h with
  | nil => exact .opened now
  | snoc hsteps hn ih =>
    refine (ih fun n a u v htaken => hspares n a u v (htaken.snoc _)).next ⟨_, hsteps⟩ ?_ hn
    exact hspares _ _ _ _ (.last hsteps hn)

end Runs

/-! ## Sample runs -/

section Samples

/-- The keys that an operation has imported: what came with the ticket, and what was read. -/
def importedKeys (s : State (windowMachine w)) (i : ℕ) : List (List UInt8 × List UInt8) :=
  ((s.call i).map fun c => c.log.filterMap fun ev =>
    (ev.stmt.imports ev.reply).map fun picked => (picked.1.key, picked.2.key)).getD []

/-- Where the keys are intact, an operation has read what came with its tickets. -/
theorem Intact.importedKeys {s : State (windowMachine w)} (h : Intact s) {i : ℕ}
    {keys : List UInt8 × List UInt8} (hkeys : keys ∈ importedKeys s i) : keys.2 = keys.1 := by
  unfold Frontend.importedKeys at hkeys
  cases hc : s.call i with
  | none =>
    rw [hc] at hkeys
    cases hkeys
  | some c =>
    rw [hc] at hkeys
    obtain ⟨ev, hev, hmap⟩ := List.mem_filterMap.mp hkeys
    obtain ⟨⟨held, drawn⟩, himports, rfl⟩ := Option.map_eq_some_iff.mp hmap
    obtain ⟨before, after, hlog⟩ := List.append_of_mem hev
    exact (h i c before ev after hc hlog).imported held drawn himports

/-- The addresses that a step fills. -/
def Act.fills (s : State (windowMachine w)) : Act (windowMachine w) → List ℕ
  | .run i _ => (((s.call i).bind (·.rest.head)).map (Stmt.fills s.env)).getD []
  | _ => []

/-- The addresses that operations in progress need. -/
def neededKeys (s : State (windowMachine w)) : List ℕ :=
  s.calls.entries.filterMap fun c =>
    if c.2.rest.result.isNone then (inUse c.2.log).map (·.address) else none

theorem spares_of_fills {s : State (windowMachine w)} {a : Act (windowMachine w)}
    (h : ∀ n ∈ Act.fills s a, n ∉ neededKeys s) : Spares s a := by
  rintro i o c st rfl hi hhead n hn j c' held hj hrest huse rfl
  refine h held.address ?_ ?_
  · simp only [Act.fills, hi, Option.bind_some]
    rw [hhead]
    exact hn
  · refine List.mem_filterMap.mpr ⟨⟨j, c'⟩, AList.mem_lookup_iff.mp hj, ?_⟩
    simp only [hrest, Option.isNone_none, if_true]
    rw [huse, Option.map_some]

/-- A browser with a cryptography that puts the key before the text. -/
def sampleWindow : Window (Option Go.Json) where
  toBrowser := sampleBrowser
  expiresAfter v now := match v with
    | some (.number text) =>
      now < (text.toList.foldl (fun n c => 10 * n + (c.toNat - 48)) 0 : ℕ) * 1000
    | _ => false
  strictEquals v v' := match v, v' with
    | some (.number text), some (.number text') => text == text'
    | some (.string text), some (.string text') => text == text'
    | _, _ => false
  aesGcmEncrypt key _ text := some (key ++ text)

theorem abs_zero_le : |(0 : ℤ)| ≤ 9007199254740991 := by decide

/-- The sample page at the start. -/
def samplePage : State (windowMachine sampleWindow) := ⟨Page.opened ⟨0, abs_zero_le⟩, ∅⟩

/-- What comes from outside of the page, with a reply of the gateway. -/
def sampleOutcome (reply : Option (Option Go.Json)) : Outcome (Option Go.Json) where
  nonce := [110]
  requestId := "r1"
  idempotencyKey := "k1"
  iv := []
  reply := reply
  stored := true
  signature := some [1]
  asReply := some (⟨"c1", "0A", "bg==", [], none⟩, some (.object
    [("encrypted_payload", .string (base64 (utf8 ("\x7b\"encrypted_key\":\"\"," ++
        "\"encrypted_payload\":\"" ++ base64 (utf8
          "\x7b\"k_c_tgs\":\"Bw==\",\"tgt\":\"T\",\"nonce_1\":\"bg==\"\x7d") ++
        "\",\"kdc_cert_chain\":\"C\",\"kdc_signature\":\"\"\x7d")))),
      ("tgt_expiry", .number "9")]))

/-- The reply of the TGS, under the key that came with the TGT. -/
def sampleTgsReply : Option Go.Json :=
  some (.object [("encrypted_payload", .string (base64 (7 :: utf8
      ("\x7b\"nonce2\":\"bg==\",\"scope\":\"transfer:create\",\"id_v\":\"bank-service\"," ++
        "\"ticket_v\":\"V\",\"k_c_v\":\"CQ==\"\x7d")))), ("ticket_expiry", .number "9")])

/-- The reply of the bank, under the key that came with the ticket. -/
def sampleBankReply : Option Go.Json :=
  some (.object [("ap_rep", .string (base64 (9 :: sampleApRep))), ("transaction_id", .string "t1")])

/-- A login, and a transfer up to its authenticator. -/
def transferBegun : List (Act (windowMachine sampleWindow)) :=
  [.spawn 0 .performAsExchange, .run 0 (sampleOutcome none), .run 0 (sampleOutcome none),
    .spawn 1 (.performTransfer sampleParams), .run 1 (sampleOutcome none),
    .run 1 (sampleOutcome (some sampleTgsReply)), .run 1 (sampleOutcome none),
    .run 1 (sampleOutcome none), .run 1 (sampleOutcome none), .run 1 (sampleOutcome none),
    .run 1 (sampleOutcome none)]

/-- The transfer goes on to its end, and then the user logs out. -/
def transferThenLogout : List (Act (windowMachine sampleWindow)) :=
  transferBegun ++ [.run 1 (sampleOutcome none), .run 1 (sampleOutcome none),
    .run 1 (sampleOutcome (some sampleBankReply)), .run 1 (sampleOutcome none),
    .spawn 2 .handleLogout, .run 2 (sampleOutcome none)]

/-- The user logs out while the payload of the transfer is signed. -/
def logoutWithinTransfer : List (Act (windowMachine sampleWindow)) :=
  transferBegun ++ [.spawn 2 .handleLogout, .run 2 (sampleOutcome none),
    .run 1 (sampleOutcome none), .run 1 (sampleOutcome none)]

/-- A logout within a transfer fills the key of its ticket: the payload is encrypted under zeros. -/
theorem logout_within_transfer : ¬ ∀ acts s, Steps samplePage acts s → Intact s := by
  intro h
  have hruns : (runAll samplePage logoutWithinTransfer).map (fun s => importedKeys s 1) =
      some [([7], [7]), ([7], [7]), ([9], [9]), ([9], [0])] := by decide +kernel
  obtain ⟨s, hs, hkeys⟩ := steps_of_view hruns
  have hzero : ([9], [0]) ∈ importedKeys s 1 := by
    rw [hkeys]
    simp
  have hread := (h _ s hs).importedKeys hzero
  cases hread

/-- The keys are intact where the user logs out after the transfer. -/
theorem session_keys_intact_of_transfer : ∃ s, Steps samplePage transferThenLogout s ∧
    (s.result 1).bind Except.toOption = some () ∧ Intact s := by
  have hruns : (runAll samplePage transferThenLogout).map
      (fun s => (s.result 1).bind Except.toOption) = some (some ()) := by decide +kernel
  obtain ⟨s, hs, hresult⟩ := steps_of_view hruns
  have hpass : stepsPass (fun u a => (Act.fills u a).all (· ∉ neededKeys u)) samplePage
      transferThenLogout = true := by decide +kernel
  refine ⟨s, hs, hresult, session_keys_intact hs fun n a u v htaken => spares_of_fills ?_⟩
  simpa using htaken.passes hpass

end Samples

end Frontend
