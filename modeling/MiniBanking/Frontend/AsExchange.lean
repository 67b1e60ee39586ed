import MiniBanking.Js.Json
import MiniBanking.Js.Uri
import MiniBanking.Kdc.Payload

/-!
# The request of the browser to the AS

The browser takes its owner id from the URI in its certificate and signs a text of the serial, the
owner id, a nonce and a time. The AS writes the text again from the four values and verifies the
signature over what it wrote. `JSON.stringify` leaves the characters that HTML treats specially as
they are, `json.Marshal` escapes them.

## Main definitions

* `ownerURI`, `ownerIdFromUris`, `extractOwnerId`: the owner id through the certificate
* `asCanonical`: the text that is signed

## Main results

* `extractOwnerId_ownerURI`: the browser reads the owner id that the authority wrote
* `asCanonical_eq`: the text is rebuilt exactly if no such character is in it
-/

namespace Frontend

open Go Js

/-! ## The owner of a certificate -/

/-- `OWNER_URI_PREFIX`. -/
def ownerUriPrefix : String := "urn:mini-banking:owner:"

/-- The URI of an owner that the authority puts into a certificate. -/
def ownerURI (ownerID : String) : String := ownerUriPrefix ++ pathEscape ownerID

/-- `ownerIdFromUris`: nothing if the URI is malformed, and then it throws. -/
def ownerIdFromUris (uris : List String) : Option (Option String) :=
  match uris.find? fun value => ownerUriPrefix.toList.isPrefixOf value.toList with
  | none => some none
  | some uri =>
    let encoded := String.ofList (uri.toList.drop ownerUriPrefix.length)
    if encoded = "" then some none
    else (decodeURIComponent encoded).map fun owner => if owner = "" then none else some owner

/-- `extractOwnerIdFromCertificate`, from the URIs of the certificate. -/
def extractOwnerId (uris : List String) : Option String := (ownerIdFromUris uris).bind id

/-- **The browser reads the owner id that the authority wrote.** -/
theorem extractOwnerId_ownerURI {ownerID : String} (h : ownerID ≠ "") :
    extractOwnerId [ownerURI ownerID] = some ownerID := by
  have hprefix : ownerUriPrefix.toList.isPrefixOf (ownerURI ownerID).toList = true := by
    rw [ownerURI, String.toList_append, List.isPrefixOf_iff_prefix]
    exact List.prefix_append _ _
  have hslice : String.ofList ((ownerURI ownerID).toList.drop ownerUriPrefix.length) =
      pathEscape ownerID := by
    rw [ownerURI, String.toList_append, List.drop_left' String.length_toList, String.ofList_toList]
  have hfind : [ownerURI ownerID].find? (fun value =>
      ownerUriPrefix.toList.isPrefixOf value.toList) = some (ownerURI ownerID) := by
    rw [List.find?_singleton, if_pos hprefix]
  simp only [extractOwnerId, ownerIdFromUris, hfind, hslice, if_neg (mt pathEscape_eq_empty.mp h),
    decodeURIComponent_pathEscape, Option.map_some, if_neg h, Option.bind_some, id_eq]

/-! ## The text that is signed -/

/-- The payload of a request to the AS. -/
def asPayload (certSn clientId : String) (nonce : List UInt8) (timestamp : SafeInteger) : Record :=
  [("cert_sn", .string certSn), ("owner_id", .string clientId), ("nonce", .string (base64 nonce)),
    ("timestamp", .number timestamp)]

/-- The bytes that `performAsExchange` signs: the properties stand as they were added. -/
def asCanonical (certSn clientId : String) (nonce : List UInt8) (timestamp : SafeInteger) :
    List UInt8 :=
  let payload := asPayload certSn clientId nonce timestamp
  encode (stringify payload (payload.map (·.1)))

variable (certSn ownerID : String) (nonce : List UInt8) (timestamp : SafeInteger)

/-- The AS writes the escaped text. -/
theorem asCanonicalPayload_eq :
    Kdc.asCanonicalPayload certSn ownerID nonce timestamp.int64 =
      encode (escapeHTML (stringify (asPayload certSn ownerID nonce timestamp)
        ((asPayload certSn ownerID nonce timestamp).map (·.1)))) := by
  rw [escapeHTML_stringify, Kdc.asCanonicalPayload, ← Value.json_number]
  rfl

/-- The text has a special character where the serial or the owner id has one. -/
theorem forall_stringify_asPayload :
    (∀ c ∈ stringify (asPayload certSn ownerID nonce timestamp)
        ((asPayload certSn ownerID nonce timestamp).map (·.1)), ¬ IsSpecial c) ↔
      ∀ c, c ∈ certSn.toList ∨ c ∈ ownerID.toList → ¬ IsSpecial c := by
  have hnonce : ∀ c ∈ (base64 nonce).toList, ¬ IsSpecial c :=
    forall_quote.mp (escapeHTML_eq_self.mp ((escapeHTML_quote _).trans (quote_base64 _).symm))
  have htime : ∀ c ∈ (toString timestamp.val).toList, ¬ IsSpecial c :=
    escapeHTML_eq_self.mp (escapeHTML_int _)
  have htext : stringify (asPayload certSn ownerID nonce timestamp)
      ((asPayload certSn ownerID nonce timestamp).map (·.1)) =
        '\x7b' :: ((quote "cert_sn" ++ ':' :: quote certSn) ++ ',' ::
          ((quote "owner_id" ++ ':' :: quote ownerID) ++ ',' ::
            ((quote "nonce" ++ ':' :: quote (base64 nonce)) ++ ',' ::
              (quote "timestamp" ++ ':' :: (toString timestamp.val).toList)))) ++ ['\x7d'] := rfl
  -- the names of the members and the signs of JSON are plain
  have hplain : ¬ IsSpecial '\x7b' ∧ ¬ IsSpecial '\x7d' ∧ ¬ IsSpecial ':' ∧ ¬ IsSpecial ',' := by
    decide
  have hcert : ∀ c ∈ "cert_sn".toList, ¬ IsSpecial c := by decide
  have howner : ∀ c ∈ "owner_id".toList, ¬ IsSpecial c := by decide
  have hname : ∀ c ∈ "nonce".toList, ¬ IsSpecial c := by decide
  have hstamp : ∀ c ∈ "timestamp".toList, ¬ IsSpecial c := by decide
  rw [htext]
  simp only [List.forall_mem_append, List.forall_mem_cons, List.not_mem_nil, false_implies,
    implies_true, hplain, not_false_eq_true, forall_quote, true_and, and_true]
  constructor
  · rintro ⟨⟨-, hc⟩, ⟨-, ho⟩, -⟩ c (h | h)
    · exact hc c h
    · exact ho c h
  · intro h
    exact ⟨⟨hcert, fun c hc => h c (.inl hc)⟩, ⟨howner, fun c hc => h c (.inr hc)⟩,
      ⟨hname, hnonce⟩, hstamp, htime⟩

/-- **The text is rebuilt exactly if HTML treats none of its characters specially.** -/
theorem asCanonical_eq : asCanonical certSn ownerID nonce timestamp =
    Kdc.asCanonicalPayload certSn ownerID nonce timestamp.int64 ↔
      ∀ c, c ∈ certSn.toList ∨ c ∈ ownerID.toList → ¬ IsSpecial c := by
  rw [asCanonicalPayload_eq, asCanonical, encode_injective.eq_iff, eq_comm, escapeHTML_eq_self,
    forall_stringify_asPayload]

/-- **The browser signs the bytes that the AS verifies exactly if** neither the serial nor the
owner id has a character that HTML treats specially. -/
theorem signed_bytes_rebuilt (h : ownerID ≠ "") :
    ((extractOwnerId [ownerURI ownerID]).map fun clientId =>
        asCanonical certSn clientId nonce timestamp) =
      some (Kdc.asCanonicalPayload certSn ownerID nonce timestamp.int64) ↔
        ∀ c, c ∈ certSn.toList ∨ c ∈ ownerID.toList → ¬ IsSpecial c := by
  rw [extractOwnerId_ownerURI h, Option.map_some, Option.some_inj]
  exact asCanonical_eq certSn ownerID nonce timestamp

/-- The bytes are rebuilt for an owner id with letters of any script. -/
theorem signed_bytes_rebuilt_of_letters :
    ((extractOwnerId [ownerURI "Đỗ \"a\" 😀"]).map fun clientId =>
        asCanonical "01AB" clientId (List.replicate 16 7) ⟨1700000000, by decide⟩) =
      some (Kdc.asCanonicalPayload "01AB" "Đỗ \"a\" 😀" (List.replicate 16 7)
        (SafeInteger.int64 ⟨1700000000, by decide⟩)) :=
  (signed_bytes_rebuilt "01AB" "Đỗ \"a\" 😀" (List.replicate 16 7) ⟨1700000000, by decide⟩
    (by decide)).mpr (by
      rintro c (hc | hc)
      · exact (by decide : ∀ c ∈ "01AB".toList, ¬ IsSpecial c) c hc
      · exact (by decide : ∀ c ∈ "Đỗ \"a\" 😀".toList, ¬ IsSpecial c) c hc)

/-- The bytes differ for the owner id `a&b`, which only the AS escapes. -/
theorem signed_bytes_differ_of_ampersand :
    ((extractOwnerId [ownerURI "a&b"]).map fun clientId =>
        asCanonical "01AB" clientId (List.replicate 16 7) ⟨1700000000, by decide⟩) ≠
      some (Kdc.asCanonicalPayload "01AB" "a&b" (List.replicate 16 7)
        (SafeInteger.int64 ⟨1700000000, by decide⟩)) := by
  rw [extractOwnerId_ownerURI (by decide), Option.map_some, Ne, Option.some_inj, asCanonical_eq]
  intro h
  exact h '&' (.inr (by decide)) (by decide)

end Frontend
