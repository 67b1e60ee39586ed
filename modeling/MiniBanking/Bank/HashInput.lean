import MiniBanking.Bank.Reverify
import MiniBanking.Concurrency.Log

/-!
# What a transaction's hash is taken of

The service writes the previous hash, the payload hash, the signature, the id and the time of a
transaction one after the other, with nothing between them, and takes the hash of that text. The
text still has one reading: a previous hash is either the word `genesis` or as long as a hash, a
signature has no hyphen while an id has one after its eighth digit, and ids have one length.

## Main definitions

* `HashParts`: the five parts, with the shape the service gives them
* `HashParts.text`: the text that is hashed

## Main results

* `HashParts.text_inj`: the text determines its parts
* `Reachable.hashParts`: every row of every run was hashed from such parts
* `hash_input_unambiguous`: no two rows of a run share the text they are hashed from
-/

namespace Bank

open Concurrency Go Postgres

/-! ## The parts -/

/-- A hash in hexadecimal: sixty-four digits. -/
def IsHash (s : String) : Prop := s.toList.length = 64 ∧ ∀ c ∈ s.toList, isHexDigit c = true

theorem Service.isHash_hexHash (svc : Service) (bytes : List UInt8) :
    IsHash (svc.hexHash bytes) :=
  ⟨svc.length_hexHash bytes, fun _ h => isHexDigit_of_mem_hex h⟩

/-- The parts of the text that a transaction's hash is taken of. The signature may be of any
length. -/
@[ext]
structure HashParts where
  previousHash : String
  payloadHash : String
  signature : List UInt8
  txID : String
  createdAt : Time
  previous : previousHash = "genesis" ∨ IsHash previousHash
  payload : IsHash payloadHash
  drawn : ∃ b, txID = newUUID b
  four_digits : createdAt.encodable = true

/-- The text: the parts one after the other. -/
def HashParts.text (p : HashParts) : String :=
  p.previousHash ++ p.payloadHash ++ base64 p.signature ++ p.txID ++ p.createdAt.rfc3339Nano

/-- The link of a transaction is the hash of the text of its parts. -/
theorem Service.currentHash_eq (svc : Service) (p : HashParts) {t : Instant}
    (ht : p.createdAt = t.time) :
    svc.currentHash p.previousHash p.payloadHash (base64 p.signature) p.txID t =
      svc.hexHash (utf8 p.text) := by
  rw [Service.currentHash, HashParts.text, ht, Instant.rfc3339Nano_eq]

/-! ## Where a part ends -/

/-- A marker that neither beginning has ends both at the same place. -/
theorem append_marker_inj {α : Type} {m : α} {xs xs' ys ys' : List α} (h : m ∉ xs) (h' : m ∉ xs')
    (heq : xs ++ m :: ys = xs' ++ m :: ys') : xs = xs' ∧ ys = ys' := by
  induction xs generalizing xs' with
  | nil =>
    cases xs' with
    | nil => exact ⟨rfl, (List.cons.inj heq).2⟩
    | cons x' xs' => exact absurd (List.cons.inj heq).1 (List.ne_of_not_mem_cons h')
  | cons x xs ih =>
    cases xs' with
    | nil => exact absurd (List.cons.inj heq).1.symm (List.ne_of_not_mem_cons h)
    | cons x' xs' =>
      obtain ⟨rfl, htail⟩ := List.cons.inj heq
      obtain ⟨rfl, rfl⟩ := ih (List.not_mem_of_not_mem_cons h)
        (List.not_mem_of_not_mem_cons h') htail
      exact ⟨rfl, rfl⟩

/-- The word `genesis` is not the start of a hash. -/
theorem genesis_not_hash {s : String} (hs : IsHash s) (ys ys' : List Char) :
    "genesis".toList ++ ys ≠ s.toList ++ ys' := by
  obtain ⟨hlength, hdigits⟩ := hs
  intro h
  cases hcs : s.toList with
  | nil => rw [hcs] at hlength; cases hlength
  | cons c cs =>
    rw [hcs] at h hdigits
    obtain rfl : 'g' = c := (List.cons.inj h).1
    exact absurd (hdigits 'g' List.mem_cons_self) (by decide)

/-- **A previous hash is read off the start of a text.** -/
theorem previousHash_inj {s s' : String} (hs : s = "genesis" ∨ IsHash s)
    (hs' : s' = "genesis" ∨ IsHash s') {ys ys' : List Char}
    (h : s.toList ++ ys = s'.toList ++ ys') : s.toList = s'.toList ∧ ys = ys' := by
  rcases hs with rfl | hs <;> rcases hs' with rfl | hs'
  · exact List.append_inj h rfl
  · exact absurd h (genesis_not_hash hs' ys ys')
  · exact absurd h.symm (genesis_not_hash hs ys' ys)
  · exact List.append_inj h (hs.1.trans hs'.1.symm)

theorem base64Digit_ne_hyphen : ∀ n < 64, base64Digit n ≠ '-' := by decide

theorem hyphen_not_mem_base64 (bytes : List UInt8) : '-' ∉ (base64 bytes).toList := by
  intro h
  rw [base64, String.toList_ofList] at h
  obtain heq | ⟨n, hn, heq⟩ := mem_base64Chars h
  · exact absurd heq (by decide)
  · exact base64Digit_ne_hyphen n hn heq.symm

theorem hyphen_not_mem_hexByte (b : UInt8) : '-' ∉ hexByte b := by
  have hb := b.toNat_lt
  intro h
  simp only [hexByte, List.mem_cons, List.not_mem_nil, or_false] at h
  rcases h with h | h
  · exact hexDigit_ne_hyphen _ (by omega) h.symm
  · exact hexDigit_ne_hyphen _ (by omega) h.symm

theorem length_bytesText (bytes : List UInt8) (i : ℕ) (h : i + bytes.length = 16) :
    (bytesText i bytes).length = 2 * bytes.length + if i ≤ 3 then 4 else if i ≤ 5 then 3 else
      if i ≤ 7 then 2 else if i ≤ 9 then 1 else 0 := by
  induction bytes generalizing i with
  | nil =>
    obtain rfl : i = 16 := h
    rfl
  | cons b bytes ih =>
    rw [List.length_cons] at h
    simp only [bytesText, hexByte, List.length_append, List.length_cons, List.length_nil,
      ih (i + 1) (by omega), List.mem_cons, List.not_mem_nil, or_false]
    split_ifs <;> simp only [List.length_cons, List.length_nil] <;> omega

/-- The text of an id has a hyphen after its eighth digit, and none before. -/
theorem uuid_text_eq (u : Uuid) : ∃ digits rest, u.text.toList = digits ++ '-' :: rest ∧
    digits.length = 8 ∧ rest.length = 27 ∧ '-' ∉ digits := by
  obtain ⟨⟨bytes⟩, hsize⟩ := u
  rw [Uuid.text, String.toList_ofList]
  rcases bytes with _ | ⟨b₀, _ | ⟨b₁, _ | ⟨b₂, _ | ⟨b₃, tail⟩⟩⟩⟩
  iterate 4 · simp at hsize
  have htail : tail.length = 12 := by simpa using hsize
  have hrest : (bytesText 4 tail).length = 27 := by
    rw [length_bytesText tail 4 (by omega), htail]
    rfl
  refine ⟨hexByte b₀ ++ hexByte b₁ ++ hexByte b₂ ++ hexByte b₃, bytesText 4 tail, ?_, rfl, ?_, ?_⟩
  · simp [bytesText]
  · exact hrest
  · simp only [List.mem_append, not_or]
    exact ⟨⟨⟨hyphen_not_mem_hexByte b₀, hyphen_not_mem_hexByte b₁⟩,
      hyphen_not_mem_hexByte b₂⟩, hyphen_not_mem_hexByte b₃⟩

/-- **A signature is read off the start of a text that goes on with an id.** -/
theorem signature_inj {sig sig' : List UInt8} {u u' : Uuid} {ys ys' : List Char}
    (h : (base64 sig).toList ++ (u.text.toList ++ ys) =
      (base64 sig').toList ++ (u'.text.toList ++ ys')) :
    sig = sig' ∧ u = u' ∧ ys = ys' := by
  obtain ⟨digits, rest, hu, hdigits, hrest, hnot⟩ := uuid_text_eq u
  obtain ⟨digits', rest', hu', hdigits', hrest', hnot'⟩ := uuid_text_eq u'
  rw [hu, hu'] at h
  simp only [List.append_assoc, List.cons_append] at h
  rw [← List.append_assoc, ← List.append_assoc] at h
  -- the first hyphen of what is left is the one in the id
  obtain ⟨hstart, hend⟩ := append_marker_inj
    (List.not_mem_append (hyphen_not_mem_base64 sig) hnot)
    (List.not_mem_append (hyphen_not_mem_base64 sig') hnot') h
  obtain ⟨hsig, rfl⟩ := List.append_inj' hstart (hdigits.trans hdigits'.symm)
  obtain ⟨rfl, rfl⟩ := List.append_inj hend (hrest.trans hrest'.symm)
  refine ⟨?_, Uuid.text_injective (String.toList_inj.mp (hu.trans hu'.symm)), rfl⟩
  have hbytes := decodeBase64_base64 sig
  rw [String.toList_inj.mp hsig, decodeBase64_base64] at hbytes
  exact (Option.some.inj hbytes).symm

theorem createdAt_inj {t u : Time} (ht : t.encodable = true) (hu : u.encodable = true)
    (h : t.rfc3339Nano = u.rfc3339Nano) : t = u := by
  simp only [Time.encodable, Bool.and_eq_true, decide_eq_true_eq] at ht hu
  have hread := parseRFC3339_rfc3339Nano ht
  rw [h, parseRFC3339_rfc3339Nano hu] at hread
  exact (Option.some.inj hread).symm

/-- **The text determines its parts**, although nothing separates them. -/
theorem HashParts.text_inj {p q : HashParts} (h : p.text = q.text) : p = q := by
  obtain ⟨b, hb⟩ := p.drawn
  obtain ⟨c, hc⟩ := q.drawn
  have hlist := congrArg String.toList h
  simp only [HashParts.text, String.toList_append, List.append_assoc, hb, hc, newUUID] at hlist
  obtain ⟨hprevious, hlist⟩ := previousHash_inj p.previous q.previous hlist
  obtain ⟨hpayload, hlist⟩ := List.append_inj hlist (p.payload.1.trans q.payload.1.symm)
  obtain ⟨hsignature, hid, hcreated⟩ := signature_inj hlist
  refine HashParts.ext (String.toList_inj.mp hprevious) (String.toList_inj.mp hpayload)
    hsignature ?_ (createdAt_inj p.four_digits q.four_digits (String.toList_inj.mp hcreated))
  rw [hb, hc, newUUID, newUUID, hid]

/-! ## What the service inserts -/

/-- The columns that the hash covers have the shape the service gives them. -/
structure Shaped (payloadHash signature txID : String) : Prop where
  payload : IsHash payloadHash
  signature : ∃ bytes, signature = base64 bytes
  drawn : ∃ b, txID = newUUID b

/-- The columns of a row are shaped. -/
def Transaction.Shaped (t : Transaction) : Prop :=
  Bank.Shaped t.payloadHash t.clientSignature t.id.text

/-- A statement inserts shaped columns only. -/
def ShapedInsert : Stmt → Prop
  | .query (.insertTransaction t) => Shaped t.payloadHash t.signature t.id
  | .query (.insertFailedTransaction t) => Shaped t.payloadHash t.signature t.id
  | _ => True

section Issues

variable (svc : Service)

theorem Service.shaped (input : TransferInput) (b : Uuid) :
    Shaped (svc.hexHash input.canonical) (base64 input.signature) (newUUID b) :=
  ⟨svc.isHash_hexHash _, ⟨_, rfl⟩, ⟨b, rfl⟩⟩

theorem issues_failTransfer (caller : Caller) (input : TransferInput)
    (fromAcc toAcc : AccountRecord) (action reason : String) (err : Err) :
    (svc.failTransfer caller input fromAcc toAcc action reason err).Issues ShapedInsert := by
  refine ⟨trivial, fun b => ⟨trivial, fun r => ?_⟩⟩
  rcases r with _ | lastHash
  · trivial
  refine ⟨trivial, fun now => ⟨svc.shaped input b, fun r => ?_⟩⟩
  rcases r with _ | ⟨⟨⟩⟩
  · trivial
  refine ⟨trivial, fun r => ?_⟩
  rcases r with _ | ⟨⟨⟩⟩
  · trivial
  refine ⟨trivial, fun r => ?_⟩
  rcases r with _ | ⟨⟨⟩⟩
  · trivial
  exact ⟨trivial, fun _ => trivial⟩

theorem issues_moveMoney (caller : Caller) (input : TransferInput)
    (fromAcc toAcc : AccountRecord) :
    (svc.moveMoney caller input fromAcc toAcc).Issues ShapedInsert := by
  refine ⟨trivial, fun r => ?_⟩
  rcases r with _ | lastHash
  · trivial
  refine ⟨trivial, fun b => ⟨trivial, fun now => ⟨trivial, fun r => ?_⟩⟩⟩
  rcases r with _ | ⟨⟨⟩⟩
  · trivial
  refine ⟨trivial, fun r => ?_⟩
  rcases r with _ | ⟨⟨⟩⟩
  · trivial
  refine ⟨svc.shaped input b, fun r => ?_⟩
  rcases r with _ | ⟨⟨⟩⟩
  · exact ⟨trivial, fun _ => trivial⟩
  refine ⟨trivial, fun r => ?_⟩
  rcases r with _ | ⟨⟨⟩⟩
  · trivial
  refine ⟨trivial, fun r => ?_⟩
  rcases r with _ | ⟨⟨⟩⟩
  · trivial
  exact ⟨trivial, fun _ => trivial⟩

theorem issues_checkTransfer (caller : Caller) (input : TransferInput)
    (fromAcc toAcc : AccountRecord) :
    (svc.checkTransfer caller input fromAcc toAcc).Issues ShapedInsert := by
  have hfail := fun toAcc action reason err =>
    issues_failTransfer svc caller input fromAcc toAcc action reason err
  refine Program.Issues.ite (fun _ => ?_) fun _ => Program.Issues.ite (fun _ => ?_) fun _ => ?_
  iterate 2 · exact hfail _ _ _ _
  refine Program.Issues.ite (fun _ => ?_) fun _ => Program.Issues.ite (fun _ => ?_) fun _ => ?_
  iterate 2 · exact hfail _ _ _ _
  refine Program.Issues.ite (fun _ => ?_) fun _ => ?_
  · exact hfail _ _ _ _
  refine ⟨trivial, fun today => ⟨trivial, fun now => ⟨trivial, fun r => ?_⟩⟩⟩
  rcases r with _ | spentToday
  · trivial
  refine Program.Issues.ite (fun _ => ?_) fun _ => ?_
  · exact hfail _ _ _ _
  exact issues_moveMoney svc caller input fromAcc toAcc

theorem issues_transferTx (caller : Caller) (input : TransferInput) :
    (svc.transferTx caller input).Issues ShapedInsert := by
  have hfail := fun fromAcc toAcc action reason err =>
    issues_failTransfer svc caller input fromAcc toAcc action reason err
  refine ⟨trivial, fun r => Program.Issues.ite (fun _ => ?_) fun _ => ?_⟩
  · exact hfail _ _ _ _ _
  rcases r with _ | fromAcc
  · trivial
  refine ⟨trivial, fun r => Program.Issues.ite (fun _ => ?_) fun _ => ?_⟩
  · exact hfail _ _ _ _ _
  rcases r with _ | toAcc
  · trivial
  exact issues_checkTransfer svc caller input fromAcc toAcc

theorem issues_transfer (caller : Caller) (input : TransferInput) :
    (svc.transfer caller input).Issues ShapedInsert := by
  have hfound : (Service.findIdempotentTransaction input.idempotencyKey).Issues ShapedInsert := by
    refine .ite (fun _ => trivial) fun _ => ⟨trivial, fun r => .ite (fun _ => trivial) fun _ => ?_⟩
    rcases r with _ | ⟨txID, txStatus⟩
    · trivial
    · exact .ite (fun _ => trivial) fun _ => trivial
  refine hfound.bind fun r => ?_
  rcases r with reason | txID
  · exact ⟨trivial, fun _ => trivial⟩
  refine .ite (fun _ => trivial) fun _ => ⟨trivial, fun r => ?_⟩
  rcases r with _ | ⟨⟨⟩⟩
  · trivial
  · exact (issues_transferTx svc caller input).bind fun _ => ⟨trivial, fun _ => trivial⟩

theorem issues_createUserTx (userID email fullName : String) :
    (svc.createUserTx userID email fullName).Issues ShapedInsert := by
  refine ⟨trivial, fun now => ⟨trivial, fun r => ?_⟩⟩
  rcases r with _ | ⟨⟨⟩⟩
  · trivial
  refine ⟨trivial, fun b => ⟨trivial, fun r => ?_⟩⟩
  rcases r with _ | ⟨⟨⟩⟩
  · trivial
  refine ⟨trivial, fun r => ?_⟩
  rcases r with _ | ⟨⟨⟩⟩ <;> trivial

theorem issues_createUser (input : CreateUserInput) :
    (svc.createUser input).Issues ShapedInsert := by
  refine Program.Issues.ite (fun _ => trivial) fun _ => ?_
  refine Program.Issues.ite (fun _ => trivial) fun _ => ⟨trivial, fun r => ?_⟩
  rcases r with _ | ⟨⟨⟩⟩
  · trivial
  · exact (issues_createUserTx svc _ _ _).bind fun _ => ⟨trivial, fun _ => trivial⟩

/-- **The service inserts shaped columns only.** -/
theorem issues_program (q : Request) : (svc.program q).Issues ShapedInsert := by
  cases q with
  | transfer caller input => exact (issues_transfer svc caller input).bind fun _ => trivial
  | createUser input => exact (issues_createUser svc input).bind fun _ => trivial

end Issues

/-! ## The rows of a run -/

section Rows

variable {svc : Service} {rounding : Rounding}

/-- The rows that a transaction has written so far are shaped. -/
def ShapedConn (l : Conn) : Prop :=
  ∀ tx, l = .active tx → ∀ row, Write.insertTransaction row ∈ tx.writes → row.Shaped

theorem ShapedConn.of_writes_eq_nil {tx : Tx schema} (h : tx.writes = []) :
    ShapedConn (.active tx) := by
  intro tx' heq row hrow
  cases heq
  rw [h] at hrow
  cases hrow

theorem shapedConn_fresh : ShapedConn .fresh := fun _ h => Conn.noConfusion h

theorem shapedConn_done : ShapedConn .done := fun _ h => Conn.noConfusion h

/-- The stored row has the columns of the statement. -/
theorem Transaction.shaped_of {status : TransactionStatus} {fromId toId : Option Uuid}
    {t : TransactionRow} {row : Transaction}
    (hrow : Transaction.of rounding status fromId toId t = some row)
    (h : Bank.Shaped t.payloadHash t.signature t.id) : row.Shaped := by
  obtain ⟨hid, -, -, -, -, -, -, -, hpayload, hsignature, -⟩ := Transaction.of_eq hrow
  obtain ⟨b, hb⟩ := h.drawn
  rw [hb] at hid
  refine ⟨?_, ?_, b, text_of_newUUID hid⟩
  · rw [varcharIn_eq hpayload h.payload.1.le]
    exact h.payload
  · rw [textIn_eq hsignature]
    exact h.signature

theorem ne_insertTransaction {w : Write} {reply : Sql Unit} {row : Transaction}
    (hrow : Write.insertTransaction row ∈ (Effect.write (S := schema) w reply).writes) :
    w = .insertTransaction row :=
  (List.mem_singleton.mp hrow).symm

/-- A statement writes shaped rows only. -/
theorem plan_shaped {q : Query} (hq : ShapedInsert (.query q)) {view : Db} {f : SqlEffect q.Row}
    (hf : q.plan rounding view = some f) {row : Transaction}
    (hrow : Write.insertTransaction row ∈ f.writes) : row.Shaped := by
  cases q with
  | loadAccountForUpdateByNumber number =>
    obtain rfl | ⟨a, u, -, -, -, rfl⟩ := loadAccountForUpdateByNumber_cases hf <;> cases hrow
  | sumCompletedTransfersSince id since till =>
    obtain rfl | ⟨u, spent, -, rfl, -⟩ := sumCompletedTransfersSince_cases hf <;> cases hrow
  | lockLedgerLastHash =>
    cases hf
    cases hrow
  | debitAccount amount id =>
    obtain ⟨u, -, ⟨-, rfl⟩ | ⟨a, balance, check, -, -, rfl⟩⟩ :=
      @updateBalance_cases view (· - amount.toInt) id f hf
    · cases hrow
    · cases ne_insertTransaction hrow
  | creditAccount amount id =>
    obtain ⟨u, -, ⟨-, rfl⟩ | ⟨a, balance, check, -, -, rfl⟩⟩ :=
      @updateBalance_cases view (· + amount.toInt) id f hf
    · cases hrow
    · cases ne_insertTransaction hrow
  | insertTransaction t =>
    obtain ⟨u, v, row', -, -, hof, -, rfl⟩ := insertTransaction_cases hf
    cases ne_insertTransaction hrow
    exact Transaction.shaped_of hof hq
  | insertFailedTransaction t =>
    obtain ⟨u, v, row', hof, -, rfl⟩ := insertFailedTransaction_cases hf
    cases ne_insertTransaction hrow
    exact Transaction.shaped_of hof hq
  | updateLedger hash txID time =>
    obtain ⟨lastHash, u, -, -, rfl⟩ := updateLedger_cases view hf
    cases ne_insertTransaction hrow
  | insertUser id email fullName now =>
    obtain ⟨u, -, rfl⟩ := insertUser_cases hf
    cases ne_insertTransaction hrow
  | insertDefaultAccount id userID number now =>
    obtain ⟨a, -, -, -, -, -, -, -, rfl⟩ := insertDefaultAccount_cases hf
    cases ne_insertTransaction hrow

/-- Writing shaped rows keeps the rows shaped. -/
theorem applyAll_shaped {ws : List Write}
    (hws : ∀ row, Write.insertTransaction row ∈ ws → row.Shaped) {db : Db}
    (hdb : ∀ row ∈ db.transactions, row.Shaped) :
    ∀ row ∈ (schema.applyAll db ws).transactions, row.Shaped := by
  induction ws generalizing db with
  | nil => exact hdb
  | cons w ws ih =>
    rw [Schema.applyAll_cons]
    refine ih (fun row hrow => hws row (List.mem_cons_of_mem _ hrow)) ?_
    cases w with
    | insertTransaction row =>
      intro row' hrow'
      rcases List.mem_append.mp hrow' with hrow' | hrow'
      · exact hdb row' hrow'
      · exact List.mem_singleton.mp hrow' ▸ hws row List.mem_cons_self
    | setBalance | setLedger | insertUser | insertAccount => exact hdb

/-- A statement keeps the rows shaped, those of the database and those a call has written. -/
theorem exec_shaped {others : List Conn} {st : Stmt} {c : Choice} {e e' : Env} {l l' : Conn}
    {r : Reply st} (hst : ShapedInsert st) (hdb : ∀ row ∈ e.db.transactions, row.Shaped)
    (hl : ShapedConn l) (hx : exec rounding others st c e l = some (r, e', l')) :
    (∀ row ∈ e'.db.transactions, row.Shaped) ∧ ShapedConn l' := by
  constructor
  · obtain heq | ⟨rfl, -, tx, rfl, -, heq⟩ := exec_db hx
    · rw [heq]
      exact hdb
    · rw [heq]
      exact applyAll_shaped (hl tx rfl) hdb
  cases st with
  | now | random | readRandom | mapOrder | lookup | audit | getSession | verifyCertificate =>
    cases hx
    exact hl
  | findTransactionByIdempotencyKey | insertUsedNonce | setNX | createSession =>
    simp only [exec] at hx
    repeat' split at hx
    all_goals
      cases hx
      exact hl
  | beginTx isolation =>
    simp only [exec] at hx
    repeat' split at hx
    all_goals
      cases hx
      first
        | exact hl
        | exact .of_writes_eq_nil rfl
  | commit | rollback =>
    simp only [exec] at hx
    repeat' split at hx
    all_goals
      cases hx
      first
        | exact hl
        | exact shapedConn_done
  | query q =>
    obtain ⟨-, ⟨tx, rfl, -, rfl⟩ | ⟨tx, f, rfl, -, hplan, -, rfl⟩ | ⟨-, -, rfl⟩⟩ := inTx_cases hx
    · exact .of_writes_eq_nil rfl
    · intro tx' heq row hrow
      cases heq
      rcases List.mem_append.mp hrow with hrow | hrow
      · exact hl tx rfl row hrow
      · exact plan_shaped hst hplan hrow
    · exact hl

/-- **Every row of every run is shaped.** -/
theorem rows_shaped {clock : Instant} {s : State (serviceMachine svc rounding)}
    (h : Reachable (Env.initial clock) s) : ∀ row ∈ s.env.db.transactions, row.Shaped := by
  suffices hall : (∀ row ∈ s.env.db.transactions, row.Shaped) ∧ ∀ i c, s.call i = some c →
      c.rest.Issues ShapedInsert ∧ ShapedConn c.loc from hall.1
  refine h.induct (P := fun s : State (serviceMachine svc rounding) =>
    (∀ row ∈ s.env.db.transactions, row.Shaped) ∧ ∀ i c, s.call i = some c →
      c.rest.Issues ShapedInsert ∧ ShapedConn c.loc) ⟨fun _ ht => absurd ht List.not_mem_nil, ?_⟩ ?_
  · intro i c hc
    cases hc
  rintro s t a - ⟨hdb, hcalls⟩ hn
  obtain ⟨i, q, rfl, -, rfl⟩ | ⟨i, choice, q, st, k, loc, log, r, env, loc', rfl, hi, hx, rfl⟩ |
    ⟨m, env, rfl, hm, rfl⟩ := next_cases hn
  · refine ⟨hdb, fun j c hj => ?_⟩
    rw [State.call_put] at hj
    split at hj
    · cases hj
      exact ⟨issues_program svc q, shapedConn_fresh⟩
    · exact hcalls j c hj
  · obtain ⟨hissues, hloc⟩ := hcalls i _ hi
    obtain ⟨hdb', hloc'⟩ := exec_shaped hissues.1 hdb hloc hx
    refine ⟨hdb', fun j c hj => ?_⟩
    rw [State.call_put] at hj
    split at hj
    · cases hj
      exact ⟨hissues.2 r, hloc'⟩
    · exact hcalls j c hj
  · have hsame : env.db = s.env.db := (transactional rounding svc.program).tick hm
    exact ⟨hsame ▸ hdb, hcalls⟩

/-- A previous hash is the word `genesis` or a hash. -/
theorem Db.Chained.previous {db : Db} (h : db.Chained) (hash : db.Hashed svc) {t : Transaction}
    (ht : t ∈ db.transactions) : t.previousHash = "genesis" ∨ IsHash t.previousHash := by
  obtain ⟨i, hi⟩ := List.mem_iff_getElem?.mp ht
  cases i with
  | zero => exact .inl (h.first t hi)
  | succ i =>
    have hlt := (List.getElem?_eq_some_iff.mp hi).1
    have hbefore : db.transactions[i]? = some db.transactions[i] :=
      List.getElem?_eq_getElem (by omega)
    rw [h.later i _ t hbefore hi, hash _ (List.mem_of_getElem? hbefore)]
    exact .inr (svc.isHash_hexHash _)

theorem encodable_time (t : Instant) : t.time.encodable = true := by
  obtain ⟨hle, hlt⟩ := t.real
  have hdays : -200000 ≤ t.time.unixDay ∧ t.time.unixDay ≤ 200000 := by
    rw [Time.unixDay, Kerberos.sec_time, Kerberos.toInt_internal, second]
    omega
  simp only [Time.encodable, Bool.and_eq_true, decide_eq_true_eq]
  exact year_bounds hdays

/-- **Every row of every run was hashed from parts of the shape the service gives them.** -/
theorem hashParts_of_reachable {clock : Instant} {s : State (serviceMachine svc rounding)}
    (h : Reachable (Env.initial clock) s) {t : Transaction} (ht : t ∈ s.env.db.transactions) :
    ∃ p : HashParts, p.text = hashInput t ∧ p.txID = t.id.text ∧
      t.currentHash = svc.hexHash (utf8 p.text) := by
  obtain ⟨hchained, hhashed⟩ := ((service_kept svc rounding).history h).chained
  obtain ⟨hpayload, ⟨bytes, hbytes⟩, hdrawn⟩ := rows_shaped h t ht
  have htext : t.previousHash ++ t.payloadHash ++ base64 bytes ++ t.id.text ++
      t.sentAt.time.rfc3339Nano = hashInput t := by
    rw [hashInput, hbytes, Instant.rfc3339Nano_eq]
  refine ⟨⟨t.previousHash, t.payloadHash, bytes, t.id.text, t.sentAt.time,
    hchained.previous hhashed ht, hpayload, hdrawn, encodable_time _⟩, htext, rfl, ?_⟩
  rw [HashParts.text, htext]
  exact hhashed t ht

/-- **The text that a transaction's hash is taken of is unambiguous**: it determines its five
parts, and no two rows of a run share it. -/
theorem hash_input_unambiguous (svc : Service) (rounding : Rounding) :
    Function.Injective HashParts.text ∧
    ∀ (clock : Instant) (s : State (serviceMachine svc rounding)),
      Reachable (Env.initial clock) s → ∀ t ∈ s.env.db.transactions,
        (∃ p : HashParts, p.text = hashInput t ∧ t.currentHash = svc.hexHash (utf8 p.text)) ∧
        ∀ u ∈ s.env.db.transactions, hashInput t = hashInput u → t = u := by
  refine ⟨fun p q h => HashParts.text_inj h, fun clock s h t ht => ?_⟩
  obtain ⟨p, hp, hpid, hhash⟩ := hashParts_of_reachable h ht
  refine ⟨⟨p, hp, hhash⟩, fun u hu heq => ?_⟩
  obtain ⟨q, hq, hqid, -⟩ := hashParts_of_reachable h hu
  obtain rfl : p = q := HashParts.text_inj (hp.trans (heq.trans hq.symm))
  have hids := ((service_kept svc rounding).history h).wf.transaction_ids
  exact List.inj_on_of_nodup_map hids ht hu (Uuid.text_injective (hpid.symm.trans hqid))

/-- In a run in which one payment is made, its row was hashed from such parts. -/
theorem samplePaid_hash_input : ∃ s : State (serviceMachine sampleService .cut),
    Reachable (Env.initial sampleClock) s ∧
    (∃ t, t ∈ s.env.db.transactions) ∧ ∀ t ∈ s.env.db.transactions,
      (∃ p : HashParts, p.text = hashInput t ∧
        t.currentHash = sampleService.hexHash (utf8 p.text)) ∧
      ∀ u ∈ s.env.db.transactions, hashInput t = hashInput u → t = u := by
  obtain ⟨s, hs, hview⟩ := samplePaid_runs
  have hreach : Reachable (Env.initial sampleClock) s := ⟨samplePaid, hs⟩
  have hamounts : s.env.db.transactions.map (·.amount) = [250] :=
    (Prod.mk.inj (Prod.mk.inj hview).2).1
  refine ⟨s, hreach, ?_, (hash_input_unambiguous sampleService .cut).2 sampleClock s hreach⟩
  cases hrows : s.env.db.transactions with
  | nil =>
    rw [hrows] at hamounts
    cases hamounts
  | cons t ts => exact ⟨t, List.mem_cons_self⟩

end Rows

end Bank
