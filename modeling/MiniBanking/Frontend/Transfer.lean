import MiniBanking.Bank.Handler
import MiniBanking.Js.Json

/-!
# The transfer payload of the frontend

The browser writes the payload of a transfer as a canonical text, signs the text, and sends both
in an envelope that it encrypts under the session key. The bank opens the envelope, reads the
payload and writes it again; the signature is verified over the text it wrote.

## Main definitions

* `TransferParams`, `transferPayload`: the payload of a transfer
* `canonicalStringify`: the text that is signed
* `envelope`, `TransferRequest.of`: what is sent
* `canonicalPayload`: the text that the bank derives

## Main results

* `signed_bytes_verified`: the text that is signed is the text that is verified, and two payloads
  never have one text
-/

namespace Frontend

open Go Js

/-! ## Writing a payload -/

/-- What a transfer is asked for with. -/
structure TransferParams where
  fromAccountNumber : String
  toAccountNumber : String
  amount : SafeInteger
  description : Option String := none
  currency : Option String := none

/-- The payload of a transfer with the two identifiers drawn for it. -/
def transferPayload (params : TransferParams) (requestId idempotencyKey : String) : Record :=
  let currency := params.currency.getD "VND"
  let payload : Record :=
    [("from_account_number", .string params.fromAccountNumber),
      ("to_account_number", .string params.toAccountNumber), ("amount", .number params.amount),
      ("currency", .string currency), ("request_id", .string requestId),
      ("idempotency_key", .string idempotencyKey), ("scope", .string "transfer:create")]
  match params.description with
  | some description =>
    -- an empty description is falsy
    if description = "" then payload else payload ++ [("description", .string description)]
  | none => payload

/-- `canonicalStringify`: sorted keys, compact, with the escapes of `json.Marshal`. -/
def canonicalStringify (obj : Record) : String :=
  String.ofList (escapeHTML (stringify obj (sortNames (obj.map (·.1)))))

/-- The plaintext that is encrypted for the bank. -/
def envelope (canonical : String) (signature : List UInt8) : String :=
  "\x7b\"payload\":" ++ canonical ++ ",\"client_signature\":" ++
    String.ofList (quote (base64 signature)) ++ "\x7d"

/-- The signed and encrypted payload of a transfer. -/
structure TransferRequest where
  canonical : String
  signature : List UInt8
  cipherPayload : List UInt8
  iv : List UInt8

/-- The part of `performTransfer` that signs and encrypts a payload: AES-GCM puts the random
bytes before what it encrypts. -/
def TransferRequest.of (gcmSeal : List UInt8 → List UInt8 → List UInt8 → List UInt8)
    (sign : List UInt8 → List UInt8) (kcv iv : List UInt8) (payload : Record) :
    TransferRequest :=
  let canonical := canonicalStringify payload
  let signature := sign (utf8 canonical)
  let embedded := iv ++ gcmSeal kcv iv (utf8 (envelope canonical signature))
  { canonical, signature, iv := embedded.take 12, cipherPayload := embedded.drop 12 }

/-! ## Reading it at the bank -/

/-- The canonical text that `decryptTransferPayload` derives: the envelope is decrypted, its
payload taken and written again. -/
def canonicalPayload (h : Bank.Handler) (order : List ℕ)
    (cipherPayload iv sessionKey : List UInt8) : Option (List UInt8) := do
  let raw ← if iv.isEmpty then h.decryptAESGCMEmbedded sessionKey cipherPayload
    else h.decryptAESGCMDetached sessionKey iv cipherPayload
  let entries ← Bank.intoMap (← Json.parse raw)
  return (Bank.splitEnvelope order entries).1.marshal

/-- The members of a payload, in the order of their names. -/
def payloadMembers (payload : Record) : List (String × Json) :=
  membersOf payload (sortNames (payload.map (·.1)))

theorem canonicalStringify_eq (payload : Record) :
    canonicalStringify payload = String.ofList (Json.object (payloadMembers payload)).render := by
  rw [canonicalStringify, escapeHTML_stringify, payloadMembers]

/-- **The envelope is read as the payload and the signature.** -/
theorem parse_envelope (payload : Record) (signature : List UInt8) :
    Json.parse (utf8 (envelope (canonicalStringify payload) signature)) = some (.object
      [("payload", .object (payloadMembers payload)),
        ("client_signature", .string (base64 signature))]) := by
  have htext : (envelope (canonicalStringify payload) signature).toList = (Json.object
      [("payload", .object (payloadMembers payload)),
        ("client_signature", .string (base64 signature))]).render := by
    have hpayload : "\x7b\"payload\":".toList = '\x7b' :: (Json.quote "payload" ++ [':']) := by
      decide
    have hsignature : ",\"client_signature\":".toList =
        ',' :: (Json.quote "client_signature" ++ [':']) := by decide
    simp only [envelope, String.toList_append, canonicalStringify_eq, quote_base64,
      String.toList_ofList, hpayload, hsignature]
    simp only [Json.render, Json.renderMembers, Json.commas, List.append_assoc, List.cons_append,
      List.nil_append]
    rfl
  have hmembers := integralMembers_membersOf payload (sortNames (payload.map (·.1)))
  have hdepth := memberDepths_membersOf payload (sortNames (payload.map (·.1)))
  have hintegral : Json.IntegralMembers [("payload", .object (payloadMembers payload)),
      ("client_signature", .string (base64 signature))] := ⟨hmembers, trivial, trivial⟩
  have hd : Json.memberDepths [("payload", .object (payloadMembers payload)),
      ("client_signature", .string (base64 signature))] ≤ 9999 := by
    rw [Json.memberDepths_cons, Json.memberDepths_cons, Json.memberDepths_nil, Json.depth_string,
      Json.depth, payloadMembers, hdepth]
    omega
  rw [← String.ofList_toList (s := envelope _ _), utf8_ofList, htext]
  exact Json.parse_marshalStruct hintegral hd

/-- The entries of the envelope, in the order of their names. -/
theorem entries_envelope (payload : Record) (signature : List UInt8) :
    (Json.parse (utf8 (envelope (canonicalStringify payload) signature))).bind Bank.intoMap =
      some [("client_signature", .string (base64 signature)),
        ("payload", .object (payloadMembers payload))] := by
  have hlt : "client_signature".toList < "payload".toList := by decide
  have hne : "client_signature" ≠ "payload" := by decide
  rw [parse_envelope, Option.bind_some, Bank.intoMap, List.foldl_cons, List.foldl_cons,
    List.foldl_nil]
  show some (Json.insertMember "client_signature" _ [("payload", _)]) = _
  rw [Json.insertMember, if_neg hne, if_pos hlt]

/-- The payload and the signature are taken out of the envelope. -/
theorem split_envelope (order : List ℕ) (payload : Json) {signature : List UInt8}
    (hne : signature ≠ []) :
    Bank.splitEnvelope order
        [("client_signature", .string (base64 signature)), ("payload", payload)] =
      (payload, base64 signature) := by
  have htext : base64 signature ≠ "" := by
    intro hempty
    have hread := decodeBase64_base64 signature
    rw [hempty] at hread
    exact hne (Option.some.inj hread).symm
  simp [Bank.splitEnvelope, Bank.intoSigText, List.lookup_cons, htext]

/-- The signature of its text is read back. -/
theorem decodeSignature_base64 {signature : List UInt8} (hne : signature ≠ []) :
    Bank.decodeSignature (base64 signature) = some signature := by
  rw [Bank.decodeSignature, decodeBase64_base64]
  cases signature with
  | nil => exact absurd rfl hne
  | cons b bs => rfl

/-- The envelope is taken apart, and the payload written again. -/
theorem parseEnvelope_envelope (order : List ℕ) (payload : Record) {signature : List UInt8}
    (hne : signature ≠ []) :
    Bank.parseEnvelope order (utf8 (envelope (canonicalStringify payload) signature)) =
      (Bank.parsePayload (Json.object (payloadMembers payload)).marshal).map fun p =>
        (p, (Json.object (payloadMembers payload)).marshal, signature) := by
  have hentries := entries_envelope payload signature
  obtain ⟨v, hv, hmap⟩ := Option.bind_eq_some_iff.mp hentries
  rw [Bank.parseEnvelope, hv, Option.bind_eq_bind, Option.bind_some, hmap, Option.bind_eq_bind,
    Option.bind_some, split_envelope order _ hne]
  simp only [decodeSignature_base64 hne, Option.bind_eq_bind, Option.bind_some]
  cases Bank.parsePayload (Json.object (payloadMembers payload)).marshal <;> rfl

/-! ## The payload of a transfer -/

/-- The description of a transfer, empty if there is none. -/
def TransferParams.describes (params : TransferParams) : String := params.description.getD ""

section Payload

variable (params : TransferParams) (requestId idempotencyKey : String)

/-- The properties of a transfer's payload: an empty description is left out. -/
theorem transferPayload_eq : transferPayload params requestId idempotencyKey =
    [("from_account_number", .string params.fromAccountNumber),
      ("to_account_number", .string params.toAccountNumber), ("amount", .number params.amount),
      ("currency", .string (params.currency.getD "VND")), ("request_id", .string requestId),
      ("idempotency_key", .string idempotencyKey), ("scope", .string "transfer:create")] ++
    if params.describes = "" then [] else [("description", .string params.describes)] := by
  unfold transferPayload TransferParams.describes
  cases params.description with
  | none => rfl
  | some description =>
    by_cases hempty : description = ""
    · simp [hempty]
    · simp [hempty]

theorem sortNames_seven : sortNames ["from_account_number", "to_account_number", "amount",
    "currency", "request_id", "idempotency_key", "scope"] = ["amount", "currency",
    "from_account_number", "idempotency_key", "request_id", "scope", "to_account_number"] := by
  decide +kernel

theorem sortNames_eight : sortNames ["from_account_number", "to_account_number", "amount",
    "currency", "request_id", "idempotency_key", "scope", "description"] = ["amount", "currency",
    "description", "from_account_number", "idempotency_key", "request_id", "scope",
    "to_account_number"] := by decide +kernel

/-- The members of a transfer's payload. -/
theorem payloadMembers_transfer :
    payloadMembers (transferPayload params requestId idempotencyKey) =
      [("amount", Json.int params.amount.int64),
        ("currency", .string (params.currency.getD "VND"))] ++
      Json.omitempty (params.describes = "") "description" (.string params.describes) ++
      [("from_account_number", .string params.fromAccountNumber),
        ("idempotency_key", .string idempotencyKey), ("request_id", .string requestId),
        ("scope", .string "transfer:create"),
        ("to_account_number", .string params.toAccountNumber)] := by
  rw [← Value.json_number, transferPayload_eq, payloadMembers]
  by_cases hempty : params.describes = ""
  · simp only [hempty, if_true, List.append_nil, List.map_cons, List.map_nil, sortNames_seven]
    simp [membersOf, List.lookup_cons, Json.omitempty, Value.json]
  · simp only [hempty, if_false, List.cons_append, List.nil_append, List.map_cons, List.map_nil,
      sortNames_eight]
    simp [membersOf, List.lookup_cons, Json.omitempty, Value.json]

/-- The members stand in the order of their names. -/
theorem sorted_transfer :
    (Json.object (payloadMembers (transferPayload params requestId idempotencyKey))).Sorted := by
  refine sorted_membersOf _ _ ?_
  rw [transferPayload_eq]
  split
  · show (sortNames ["from_account_number", "to_account_number", "amount", "currency",
      "request_id", "idempotency_key", "scope"]).Pairwise _
    rw [sortNames_seven]
    decide +kernel
  · show (sortNames ["from_account_number", "to_account_number", "amount", "currency",
      "request_id", "idempotency_key", "scope", "description"]).Pairwise _
    rw [sortNames_eight]
    decide +kernel

/-- **The bank writes a payload as it was signed.** -/
theorem marshal_transfer :
    (Json.object (payloadMembers (transferPayload params requestId idempotencyKey))).marshal =
      utf8 (canonicalStringify (transferPayload params requestId idempotencyKey)) := by
  have hsorted := Json.canonical_of_sorted _ (sorted_transfer params requestId idempotencyKey)
  rw [Json.marshal, Json.text_eq_render, hsorted, canonicalStringify_eq]

/-- The payload as the bank reads it. -/
def receivedPayload : Bank.TransferPayload where
  fromAccountNumber := params.fromAccountNumber
  toAccountNumber := params.toAccountNumber
  amount := params.amount.int64
  currency := if params.currency.getD "VND" = "" then "VND" else params.currency.getD "VND"
  description := params.describes
  requestID := requestId
  idempotencyKey := idempotencyKey
  scope := "transfer:create"

/-- A field that the bank needs is missing. -/
def Incomplete : Prop :=
  params.amount.val ≤ 0 ∨ params.fromAccountNumber = "" ∨ params.toAccountNumber = "" ∨
    idempotencyKey = ""

instance : Decidable (Incomplete params idempotencyKey) :=
  inferInstanceAs (Decidable (_ ∨ _ ∨ _ ∨ _))

/-- The members of a payload are read into its fields. -/
theorem decode_transfer :
    (Json.object (payloadMembers (transferPayload params requestId idempotencyKey))).intoFields
      Bank.TransferPayload.fields {} = some {
        receivedPayload params requestId idempotencyKey with
        currency := params.currency.getD "VND" } := by
  rw [payloadMembers_transfer]
  refine Json.intoFields_append (Json.intoFields_append (Json.intoFields_cons rfl
    (by rw [Json.intoInt64_int]; rfl) (Json.intoFields_single rfl rfl))
    (Json.intoFields_omitempty (t := {
      amount := params.amount.int64, currency := params.currency.getD "VND",
      description := params.describes }) (by simp) rfl rfl)) ?_
  refine Json.intoFields_cons rfl rfl ?_
  refine Json.intoFields_cons rfl rfl ?_
  refine Json.intoFields_cons rfl rfl ?_
  refine Json.intoFields_cons rfl rfl ?_
  exact Json.intoFields_single rfl rfl

/-- The bank accepts a payload unless a field that it needs is missing. -/
theorem parsePayload_transfer :
    Bank.parsePayload (utf8 (canonicalStringify (transferPayload params requestId
      idempotencyKey))) = if Incomplete params idempotencyKey then none
        else some (receivedPayload params requestId idempotencyKey) := by
  have hparse : Json.parse (utf8 (canonicalStringify (transferPayload params requestId
      idempotencyKey))) =
        some (.object (payloadMembers (transferPayload params requestId idempotencyKey))) := by
    rw [canonicalStringify, utf8_ofList, parse_stringify]
    rfl
  have hamount : params.amount.int64 ≤ 0 ↔ params.amount.val ≤ 0 := by
    rw [Int64.le_iff_toInt_le, SafeInteger.toInt_int64]
    rfl
  rw [Bank.parsePayload, Bank.unmarshal, hparse, Option.bind_eq_bind, Option.bind_eq_bind,
    Option.bind_some, decode_transfer, Option.bind_some]
  -- an empty currency is replaced before the checks, which do not look at it
  by_cases hcurrency : params.currency.getD "VND" = ""
  · simp [hcurrency, receivedPayload, Incomplete, hamount]
  · simp [hcurrency, receivedPayload, Incomplete, hamount]

end Payload

/-! ## Signed bytes and verified bytes -/

section Exchange

variable {h : Bank.Handler} {gcmSeal : List UInt8 → List UInt8 → List UInt8 → List UInt8}
  {sign : List UInt8 → List UInt8} {kcv iv : List UInt8}

/-- The bank decrypts the envelope. -/
theorem decrypt_request
    (hopens : ∀ key nonce text, key.length = Bank.aes256KeySize →
      nonce.length = Bank.nonceSize → h.gcmOpen key nonce (gcmSeal key nonce text) = some text)
    (hkcv : kcv.length = Bank.aes256KeySize) (hiv : iv.length = Bank.nonceSize)
    (sign : List UInt8 → List UInt8) (payload : Record) :
    let sent := TransferRequest.of gcmSeal sign kcv iv payload
    sent.iv = iv ∧ h.decryptAESGCMDetached kcv sent.iv sent.cipherPayload =
      some (utf8 (envelope sent.canonical sent.signature)) := by
  have htake : ∀ text : List UInt8, (iv ++ text).take 12 = iv := fun _ => List.take_left' hiv
  have hdrop : ∀ text : List UInt8, (iv ++ text).drop 12 = text := fun _ => List.drop_left' hiv
  simp only [TransferRequest.of, htake, hdrop, Bank.Handler.decryptAESGCMDetached, hkcv, hiv,
    and_self, if_true, true_and]
  exact hopens kcv iv _ hkcv hiv

/-- **The bytes that are signed are the bytes that are verified.** For every transfer the bank
derives the text that the browser signed, and unless a field is missing it goes on with the
payload, the text and the signature; the signature is one of that text. And two payloads whose
texts have the same bytes have the same members. -/
theorem signed_bytes_verified
    (hopens : ∀ key nonce text, key.length = Bank.aes256KeySize →
      nonce.length = Bank.nonceSize → h.gcmOpen key nonce (gcmSeal key nonce text) = some text)
    {publicKeyPEM : String}
    (hsign : ∀ text, sign text ≠ [] ∧ h.verifyRSAPSS publicKeyPEM text (sign text) = true)
    (hkcv : kcv.length = Bank.aes256KeySize) (hiv : iv.length = Bank.nonceSize)
    (params : TransferParams) (requestId idempotencyKey : String) (order : List ℕ) :
    let payload := transferPayload params requestId idempotencyKey
    let sent := TransferRequest.of gcmSeal sign kcv iv payload
    let signed := utf8 (canonicalStringify payload)
    canonicalPayload h order sent.cipherPayload sent.iv kcv = some signed ∧
    h.decryptTransferPayload order sent.cipherPayload sent.iv kcv =
      (if Incomplete params idempotencyKey then none
      else some (receivedPayload params requestId idempotencyKey, signed, sent.signature)) ∧
    h.verifyRSAPSS publicKeyPEM signed sent.signature = true ∧
    ∀ payload' : Record, utf8 (canonicalStringify payload') = signed →
      ∀ name, payload'.lookup name = payload.lookup name := by
  intro payload sent signed
  obtain ⟨hiv', hdecrypt⟩ := decrypt_request hopens hkcv hiv sign payload
  have hempty : sent.iv.isEmpty = false := by
    rw [show sent.iv = iv from hiv']
    cases iv with
    | nil => cases hiv
    | cons b bs => rfl
  have hne : sent.signature ≠ [] := (hsign signed).1
  have hmarshal : (Json.object (payloadMembers payload)).marshal = signed :=
    marshal_transfer params requestId idempotencyKey
  refine ⟨?_, ?_, (hsign signed).2, ?_⟩
  · obtain ⟨v, hv, hmap⟩ := Option.bind_eq_some_iff.mp (entries_envelope payload sent.signature)
    rw [canonicalPayload, hempty, if_neg Bool.false_ne_true, hdecrypt, Option.bind_eq_bind,
      Option.bind_some]
    show ((Json.parse (utf8 (envelope (canonicalStringify payload) sent.signature))).bind
      fun v => (Bank.intoMap v).bind fun entries =>
        some (Bank.splitEnvelope order entries).1.marshal) = some signed
    rw [hv, Option.bind_some, hmap, Option.bind_some, split_envelope order _ hne, hmarshal]
  · rw [Bank.Handler.decryptTransferPayload, hempty, if_neg Bool.false_ne_true, hdecrypt,
      Option.bind_eq_bind, Option.bind_some]
    show Bank.parseEnvelope order
      (utf8 (envelope (canonicalStringify payload) sent.signature)) = _
    rw [parseEnvelope_envelope order payload hne, hmarshal, parsePayload_transfer]
    split <;> rfl
  · intro payload' hbytes name
    exact lookup_eq_of_stringify (String.ofList_injective (utf8_injective hbytes)) name

end Exchange

/-- A transfer of 250 whose description has characters that HTML treats specially. -/
def sampleParams : TransferParams where
  fromAccountNumber := "970412"
  toAccountNumber := "970413"
  amount := ⟨250, by decide⟩
  description := some "<rent & power>"

/-- The sample transfer as it is sent to the sample bank. -/
def sampleSent : TransferRequest :=
  .of Bank.sampleHandler.gcmSeal (fun _ => [1]) Bank.sampleSession (List.replicate 12 0)
    (transferPayload sampleParams "r1" "k1")

/-- The sample bank reads the sample transfer as it was signed. -/
theorem signed_bytes_verified_of_sample :
    Bank.sampleHandler.decryptTransferPayload [] sampleSent.cipherPayload sampleSent.iv
        Bank.sampleSession =
      some (receivedPayload sampleParams "r1" "k1",
        utf8 (canonicalStringify (transferPayload sampleParams "r1" "k1")), [1]) := by
  have hopens : ∀ key nonce text : List UInt8, key.length = Bank.aes256KeySize →
      nonce.length = Bank.nonceSize →
      Bank.sampleHandler.gcmOpen key nonce (Bank.sampleHandler.gcmSeal key nonce text) =
        some text := by
    intro key nonce text hkey _
    have htake : (key ++ text).take 32 = key := List.take_left' hkey
    have hdrop : (key ++ text).drop 32 = text := List.drop_left' hkey
    simp [Bank.sampleHandler, htake, hdrop]
  have hsign : ∀ text : List UInt8, [(1 : UInt8)] ≠ [] ∧
      Bank.sampleHandler.verifyRSAPSS "key" text [1] = true :=
    fun _ => ⟨List.cons_ne_nil 1 [], rfl⟩
  have hkcv : Bank.sampleSession.length = Bank.aes256KeySize := rfl
  have hiv : (List.replicate 12 (0 : UInt8)).length = Bank.nonceSize := rfl
  have hread := (signed_bytes_verified hopens hsign hkcv hiv sampleParams "r1" "k1" []).2.1
  exact hread.trans (if_neg (by decide))

end Frontend
