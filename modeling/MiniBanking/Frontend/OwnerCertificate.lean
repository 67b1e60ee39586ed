import MiniBanking.Ca.Service
import MiniBanking.Frontend.AsExchange
import MiniBanking.Frontend.SubjectAltName
import MiniBanking.Go.Url
import MiniBanking.X509.Certificate

/-!
# The owner in a certificate

The authority writes the owner of a certificate into a URI, and the browser finds it in the bytes
of the certificate again.

## Main definitions

* `issueCertificate`: the certificate that the authority signs for a registration

## Main results

* `search_certificateDer`: the search for an extension finds the one with the id
* `owner_id_read_back`: the browser reads the owner that was registered
-/

namespace Frontend

open Asn1 Js X509

namespace CertParser

section Search

variable {oid : List UInt8}

/-- Only what has a string inside is an extension. -/
theorem valueIn_eq_none {children : List Der} (h : ∀ child ∈ children, child.tag ≠ tagOctetString)
    (tag : UInt8) : valueIn oid (.constructed tag children) = none := by
  rcases children with _ | ⟨first, _ | ⟨second, rest⟩⟩
  · rfl
  · rfl
  · have hfind : (first :: second :: rest).find? (·.tag = tagOctetString) = none :=
      List.find?_eq_none.mpr fun child hchild => by simpa using h child hchild
    rw [valueIn, hfind]
    exact ite_self none

/-- Nothing is found where there is no string. -/
theorem search_eq_none {children : List Der} (h : ∀ child ∈ children, child.tag ≠ tagOctetString)
    (hsearch : ∀ child ∈ children, Der.search (valueIn oid) child = none) (tag : UInt8) :
    Der.search (valueIn oid) (.constructed tag children) = none := by
  rw [Der.search_eq, valueIn_eq_none h, Der.searchInside, Der.searchAll_eq_none _ hsearch]
  rfl

@[simp] theorem search_primitive (tag : UInt8) (content : List UInt8) :
    Der.search (valueIn oid) (.primitive tag content) = none := by
  rw [Der.search]
  rfl

theorem search_algorithm (o : ObjectIdentifier) :
    Der.search (valueIn oid) (algorithm o) = none := by
  refine search_eq_none ?_ ?_ _
  · simp [tagOctetString]
  · simp [X509.oid, Der.null]

theorem search_attribute (a : Attribute) : Der.search (valueIn oid) a.der = none := by
  have hkind : ∀ kind : StringKind, kind.tag &&& 0xDF ≠ tagOctetString := by
    rintro (_ | _ | _ | _ | _ | _) <;> decide
  have hvalue : (Der.primitive a.kind.tag a.value).tag ≠ tagOctetString := hkind a.kind
  refine search_eq_none ?_ ?_ _
  · simpa [tagOctetString] using hvalue
  · simp [X509.oid]

/-- Nothing is found in a name. -/
theorem search_nameDer (name : Name) : Der.search (valueIn oid) (nameDer name) = none := by
  refine search_eq_none ?_ ?_ _
  · simp [tagOctetString]
  · intro rdn hrdn
    obtain ⟨attributes, -, rfl⟩ := List.mem_map.mp hrdn
    refine search_eq_none ?_ ?_ _
    · simp [Attribute.der, tagOctetString]
    · intro a ha
      obtain ⟨a, -, rfl⟩ := List.mem_map.mp ha
      exact search_attribute a

/-- An extension has its value. -/
theorem search_extension (e : Extension) : Der.search (valueIn oid) e.der =
    if e.id.content = oid then some e.value.encode else none := by
  have hinside : Der.searchInside (valueIn oid) e.der = none := by
    refine Der.searchAll_eq_none _ ?_
    cases e.critical <;> simp [X509.oid, Der.boolean, Der.octetString]
  have hown : valueIn oid e.der = if e.id.content = oid then some e.value.encode else none := by
    have hoid : (0x10 ||| 0x20 : UInt8) = tagSequence ∧ (X509.oid e.id).tag = tagOid ∧
        (X509.oid e.id).content = oid ↔ e.id.content = oid :=
      ⟨fun h => h.2.2, fun h => ⟨rfl, rfl, h⟩⟩
    cases hcritical : e.critical with
    | true =>
      have hder : e.der = .constructed 0x10
          [X509.oid e.id, .boolean true, .octetString e.value.encode] := by
        rw [Extension.der, hcritical]
        rfl
      rw [hder, valueIn]
      simp only [hoid]
      simp [tagOctetString]
    | false =>
      have hder : e.der = .constructed 0x10 [X509.oid e.id, .octetString e.value.encode] := by
        rw [Extension.der, hcritical]
        rfl
      rw [hder, valueIn]
      simp only [hoid]
      simp [tagOctetString]
  rw [Der.search_eq, hinside, hown, Option.or_none]

theorem searchAll_extensions (extensions : List Extension) :
    Der.searchAll (valueIn oid) (extensions.map Extension.der) =
      (extensions.find? (·.id.content = oid)).map (·.value.encode) := by
  induction extensions with
  | nil => rw [List.map_nil, Der.searchAll_nil, List.find?_nil, Option.map_none]
  | cons e extensions ih =>
    rw [List.map_cons, Der.searchAll_cons, search_extension, ih, List.find?_cons]
    by_cases h : e.id.content = oid
    · simp [h]
    · simp [h]

/-- In what is signed, the extension with an id is found. -/
theorem search_tbsCertificate (tbs : TbsCertificate) : Der.search (valueIn oid) tbs.der =
    (tbs.extensions.find? (·.id.content = oid)).map (·.value.encode) := by
  have hfields : Der.searchAll (valueIn oid) [Der.explicit 0 [.integer 2],
      .integer tbs.serialNumber, algorithm X509.oidSha256WithRSA, nameDer tbs.issuer,
      .sequence [tbs.notBefore.der, tbs.notAfter.der], nameDer tbs.subject,
      .sequence [algorithm oidRsaEncryption, .bitString tbs.publicKey]] = none := by
    have hversion : Der.search (valueIn oid) (.explicit 0 [.integer 2]) = none :=
      search_eq_none (by simp [tagOctetString]) (by simp [Der.integer]) _
    have hvalidity : Der.search (valueIn oid) (.sequence [tbs.notBefore.der, tbs.notAfter.der]) =
        none := by
      have htime : ∀ t : TimeText, t.der.tag ≠ tagOctetString := by
        rintro ⟨generalized, text⟩
        cases generalized
        · exact (by decide : (0x17 &&& 0xDF : UInt8) ≠ 0x04)
        · exact (by decide : (0x18 &&& 0xDF : UInt8) ≠ 0x04)
      exact search_eq_none (by simp [htime]) (by simp [TimeText.der]) _
    have hkey : Der.search (valueIn oid)
        (.sequence [algorithm oidRsaEncryption, .bitString tbs.publicKey]) = none :=
      search_eq_none (by simp [algorithm, tagOctetString])
        (by simp [search_algorithm, Der.bitString]) _
    have hserial : Der.search (valueIn oid) (.integer tbs.serialNumber) = none :=
      search_primitive _ _
    simp [hversion, hserial, search_algorithm, search_nameDer, hvalidity, hkey]
  have hown : valueIn oid tbs.der = none := by
    refine valueIn_eq_none ?_ _
    intro child hchild
    rcases List.mem_append.mp hchild with hchild | hchild
    · have hfirst : ∀ field ∈ [Der.explicit 0 [.integer 2], .integer tbs.serialNumber,
          algorithm X509.oidSha256WithRSA, nameDer tbs.issuer,
          .sequence [tbs.notBefore.der, tbs.notAfter.der], nameDer tbs.subject,
          .sequence [algorithm oidRsaEncryption, .bitString tbs.publicKey]],
          field.tag ≠ tagOctetString := by
        simp only [algorithm, nameDer, List.forall_mem_cons, Der.tag_integer, Der.tag_sequence]
        exact ⟨(by decide : (0xA0 : UInt8) ≠ 0x04), by simp [tagOctetString]⟩
      exact hfirst child hchild
    · split at hchild
      · cases hchild
      · rw [List.mem_singleton.mp hchild]
        exact (by decide : (0xA3 : UInt8) ≠ 0x04)
  rw [Der.search_eq, hown, Option.none_or, TbsCertificate.der, Der.sequence, Der.searchInside,
    Der.searchAll_append, hfields, Option.none_or]
  split
  · next hempty =>
    rw [hempty, Der.searchAll_nil, List.find?_nil, Option.map_none]
  · have hlist : valueIn oid (.sequence (tbs.extensions.map Extension.der)) = none := by
      refine valueIn_eq_none ?_ _
      intro child hchild
      obtain ⟨e, -, rfl⟩ := List.mem_map.mp hchild
      exact (by decide : (0x30 : UInt8) ≠ 0x04)
    have hwrapper : valueIn oid (.explicit 3 [.sequence (tbs.extensions.map Extension.der)]) =
        none := valueIn_eq_none (by simp [tagOctetString]) _
    rw [Der.searchAll_cons, Der.searchAll_nil, Option.or_none, Der.search_eq, hwrapper,
      Option.none_or, Der.explicit, Der.searchInside, Der.searchAll_cons, Der.searchAll_nil,
      Option.or_none, Der.search_eq, hlist, Option.none_or, Der.sequence, Der.searchInside,
      searchAll_extensions]

/-- **In a certificate, the extension with an id is found.** -/
theorem search_certificateDer (tbs : TbsCertificate) (signature : List UInt8) :
    Der.search (valueIn oid) (certificateDer tbs signature) =
      (tbs.extensions.find? (·.id.content = oid)).map (·.value.encode) := by
  have hown : valueIn oid (certificateDer tbs signature) = none := by
    refine valueIn_eq_none ?_ _
    simp [TbsCertificate.der, algorithm, tagOctetString]
  have hsignature : Der.search (valueIn oid) (.bitString signature) = none := search_primitive _ _
  rw [Der.search_eq, hown, Option.none_or, certificateDer, Der.sequence, Der.searchInside,
    Der.searchAll_cons, Der.searchAll_cons, Der.searchAll_cons, Der.searchAll_nil,
    search_algorithm, hsignature, search_tbsCertificate]
  simp

end Search

/-! ## The alternative names of a certificate -/

theorem content_oidExtension {n : ℕ} (h : n < 128) :
    (oidExtension n).content = [0x55, 0x1D, UInt8.ofNat n] := by
  have h₁ : subidentifier 85 = [0x55] := subidentifier_of_lt (by decide)
  have h₂ : subidentifier 29 = [0x1D] := subidentifier_of_lt (by decide)
  show subidentifier 85 ++ (subidentifier 29 ++ (subidentifier n ++ [])) = _
  rw [h₁, h₂, subidentifier_of_lt h]
  rfl

theorem content_pkix_ne (arcs : List ℕ) : (pkix arcs).content ≠ sanOid := by
  have h₁ : subidentifier 43 = [0x2B] := subidentifier_of_lt (by decide)
  show subidentifier 43 ++ _ ≠ _
  rw [h₁]
  exact fun h => absurd (List.cons.inj h).1 (by decide)

theorem find_extension {α : Type} [DecidableEq α] {n : ℕ} (h : n < 128) (hne : n ≠ 17)
    (critical : Bool) (about : List α) (value : Der) :
    (extension n critical about value).find? (·.id.content = sanOid) = none := by
  refine List.find?_eq_none.mpr fun e he => ?_
  rw [extension] at he
  split at he
  · cases he
  · rw [List.mem_singleton.mp he, decide_eq_true_iff, content_oidExtension h]
    intro heq
    have hbyte : UInt8.ofNat n = 17 := (List.cons.inj (List.cons.inj (List.cons.inj heq).2).2).1
    have := congrArg UInt8.toNat hbyte
    rw [UInt8.toNat_ofNat'] at this
    have : n % 2 ^ 8 = 17 := this
    omega

theorem find_extensionsBefore (template : X509.Template) (authorityKeyId : List UInt8) :
    (extensionsBefore template authorityKeyId).find? (·.id.content = sanOid) = none := by
  have hconstraints : (oidExtension 19).content ≠ sanOid := by
    rw [content_oidExtension (by decide)]
    decide
  have hocsp := content_pkix_ne [1, 1]
  simp only [extensionsBefore, List.find?_append, find_extension (show 15 < 128 by decide)
    (by decide), find_extension (show 37 < 128 by decide) (by decide),
    find_extension (show 14 < 128 by decide) (by decide),
    find_extension (show 35 < 128 by decide) (by decide), Option.none_or]
  split <;> simp [hconstraints, hocsp]

/-- Of the extensions of a certificate, the one with the names is found. -/
theorem find_subjectAltName {template : X509.Template} {authorityKeyId : List UInt8}
    {extensions : List Extension} (hne : template.emailAddresses ≠ [])
    (h : buildCertExtensions template authorityKeyId = .ok extensions) :
    ∃ names e, marshalSANs template.emailAddresses template.uris = .ok names ∧
      extensions.find? (·.id.content = sanOid) = some e ∧ e.value = names := by
  obtain ⟨alternative, halternative, h⟩ := bind_eq_ok.mp h
  cases h
  rw [subjectAltName, if_neg fun hempty => hne hempty.1] at halternative
  obtain ⟨names, hnames, halternative⟩ := bind_eq_ok.mp halternative
  cases halternative
  have hid : X509.oidSubjectAltName.content = sanOid := by
    rw [X509.oidSubjectAltName, content_oidExtension (by decide)]
    rfl
  refine ⟨names, ⟨X509.oidSubjectAltName, template.subject.toRDNSequence = [], names⟩, hnames,
    ?_, rfl⟩
  rw [List.find?_append, List.find?_append, find_extensionsBefore, Option.none_or,
    List.find?_cons_of_pos (by simpa using hid), Option.some_or]

theorem length_child_le {child : Der} {children : List Der} (h : child ∈ children) (tag : UInt8) :
    child.encode.length ≤ (Der.constructed tag children).encode.length := by
  have hcontent : (encodeAll children).length + 2 ≤ _ :=
    (Der.constructed tag children).length_content_lt
  have hchild := length_encode_le h
  omega

/-- The value of an extension is within the certificate. -/
theorem length_value_le {tbs : TbsCertificate} {e : Extension} (h : e ∈ tbs.extensions)
    (signature : List UInt8) :
    e.value.encode.length ≤ (certificateDer tbs signature).encode.length := by
  have hvalue : e.value.encode.length ≤ (Der.octetString e.value.encode).encode.length := by
    have := (Der.octetString e.value.encode).length_content_lt
    rw [Der.content_octetString] at this
    omega
  have hextension : (Der.octetString e.value.encode).encode.length ≤ e.der.encode.length :=
    length_child_le (by simp) _
  have hlist : e.der.encode.length ≤
      (Der.sequence (tbs.extensions.map Extension.der)).encode.length :=
    length_child_le (List.mem_map_of_mem h) _
  have hwrapper : (Der.sequence (tbs.extensions.map Extension.der)).encode.length ≤
      (Der.explicit 3 [.sequence (tbs.extensions.map Extension.der)]).encode.length :=
    length_child_le List.mem_cons_self _
  have htbs : (Der.explicit 3 [.sequence (tbs.extensions.map Extension.der)]).encode.length ≤
      tbs.der.encode.length := by
    refine length_child_le ?_ _
    rw [if_neg (List.ne_nil_of_mem h)]
    exact List.mem_append_right _ List.mem_cons_self
  have hcertificate : tbs.der.encode.length ≤ (certificateDer tbs signature).encode.length :=
    length_child_le List.mem_cons_self _
  omega

theorem encodeAll_singleton (value : Der) : encodeAll [value] = value.encode := by
  rw [encodeAll, encodeAll, List.append_nil]

theorem marshalSANs_eq_ok {emailAddresses uris : List String} {names : Der}
    (h : marshalSANs emailAddresses uris = .ok names) :
    ∃ emails texts, emailAddresses.mapM ia5String = .ok emails ∧ uris.mapM ia5String = .ok texts ∧
      names = .sequence (emails.map (.implicit 1) ++ texts.map (.implicit 6)) := by
  obtain ⟨emails, hemails, h⟩ := bind_eq_ok.mp h
  obtain ⟨texts, htexts, h⟩ := bind_eq_ok.mp h
  cases h
  exact ⟨emails, texts, hemails, htexts, rfl⟩

/-- The URIs among the names that are read. -/
theorem ofNames_uris {nodes : List Tlv} {emails texts : List (List UInt8)}
    (h : List.Forall₂ Tlv.Reads nodes (emails.map (.implicit 1) ++ texts.map (.implicit 6))) :
    (SubjectAltName.ofNames nodes).uris = texts.map textDecode := by
  induction emails generalizing nodes with
  | nil =>
    rw [List.map_nil, List.nil_append] at h
    induction texts generalizing nodes with
    | nil =>
      cases h
      rfl
    | cons text texts ih =>
      rcases h with _ | ⟨hnode, hrest⟩
      have htag : _ = (0x86 : UInt8) := hnode.tag
      have hcontent : _ = text := hnode.content
      have hrest := ih hrest
      simp only [SubjectAltName.ofNames] at hrest ⊢
      rw [List.filter_cons_of_pos (by simp [htag]), List.map_cons, List.map_cons, hcontent, hrest]
  | cons email emails ih =>
    rcases h with _ | ⟨hnode, hrest⟩
    have htag : _ = (0x81 : UInt8) := hnode.tag
    have hrest := ih hrest
    simp only [SubjectAltName.ofNames] at hrest ⊢
    rw [List.filter_cons_of_neg (by simp [htag]), hrest]

/-- **The URIs of a certificate are read back**, as texts. -/
theorem parseSubjectAltName_createCertificate {template : X509.Template} {parent : Parent}
    {publicKey der : List UInt8} (hne : template.emailAddresses ≠ [])
    (h : createCertificate template parent publicKey = .ok der) (hlength : der.length < 2 ^ 32) :
    ∃ names texts, parseSubjectAltName der = .ok names ∧
      template.uris.mapM ia5String = .ok texts ∧ names.uris = texts.map textDecode := by
  obtain ⟨tbs, htbs, h⟩ := bind_eq_ok.mp h
  cases h
  obtain ⟨extensions, hextensions, htbs⟩ := bind_eq_ok.mp htbs
  obtain ⟨notBefore, -, htbs⟩ := bind_eq_ok.mp htbs
  obtain ⟨notAfter, -, htbs⟩ := bind_eq_ok.mp htbs
  cases htbs
  obtain ⟨names, e, hnames, hfind, rfl⟩ := find_subjectAltName hne hextensions
  obtain ⟨emails, texts, -, htexts, hvalue⟩ := marshalSANs_eq_ok hnames
  generalize htbs : TbsCertificate.mk template.serialNumber parent.subject notBefore notAfter
    template.subject.toRDNSequence publicKey extensions = tbs at hlength ⊢
  obtain rfl : tbs.extensions = extensions := by rw [← htbs]
  have hvalueLength := length_value_le (List.mem_of_find?_eq_some hfind)
    (parent.sign tbs.der.encode)
  -- the search finds the names
  have hsearch := findExtensionValue_encodeAll sanOid
    (show (encodeAll [certificateDer tbs (parent.sign tbs.der.encode)]).length < 2 ^ 32 by
      rw [encodeAll_singleton]
      exact hlength)
  rw [encodeAll_singleton, Der.searchAll_cons, Der.searchAll_nil, Option.or_none,
    search_certificateDer, hfind, Option.map_some] at hsearch
  -- the names are one element, and they are read inside it
  have hread := (isElement_encode (show e.value.encode.length < 2 ^ 32 by omega)).read
  have hcontent := e.value.length_content_lt
  have hcontents : e.value.content =
      encodeAll (emails.map (.implicit 1) ++ texts.map (.implicit 6)) := by
    rw [hvalue]
    rfl
  obtain ⟨nodes, hnodes, hreads⟩ := readChildren_encodeAll
    (show (encodeAll (emails.map (.implicit 1) ++ texts.map (.implicit 6))).length < 2 ^ 32 by
      rw [← hcontents]
      omega)
  have htag : (nodeOf e.value).tag = tagSequence := by
    rw [hvalue]
    rfl
  refine ⟨.ofNames nodes, texts, ?_, htexts, ofNames_uris hreads⟩
  refine bind_eq_ok.mpr ⟨_, hsearch, bind_eq_ok.mpr ⟨_, hread, bind_eq_ok.mpr ⟨nodeOf e.value, ?_,
    bind_eq_ok.mpr ⟨nodes, ?_, rfl⟩⟩⟩⟩
  · exact bind_eq_ok.mpr ⟨(), check_eq_ok.mpr htag, rfl⟩
  · show readChildren e.value.content = _
    rw [hcontents]
    exact hnodes

end CertParser

/-! ## The certificate of an owner -/

/-- What a deployment signs certificates with. -/
structure Issuer where
  url : Go.UrlLibrary
  /-- The certificate and the key of the authority. -/
  parent : Parent
  /-- `issuerKeyID` -/
  issuerKeyID : List UInt8
  crlDistributionPoints : List String
  ocspServers : List String
  /-- `x509.ParseCertificate`, of bytes whose lengths it can read. -/
  parseCertificate : List UInt8 → Except String Unit

/-- What is chosen for a certificate. -/
structure Choice where
  serialNumber : ℕ
  now : Go.Time
  /-- The bytes of the key that was asked for. -/
  publicKey : List UInt8
  subjectKeyId : List UInt8

namespace Issuer

variable (issuer : Issuer)

/-- The template of a certificate. -/
def template (validityDays : ℤ) (input : Ca.RegisterInput) (choice : Choice) (uri : String) :
    X509.Template where
  serialNumber := choice.serialNumber
  subject := ⟨"VN", "Mini_App_Banking", input.subjectCN⟩
  notBefore := choice.now.add (-60000000000)
  notAfter := choice.now.addDays validityDays
  -- a signature and the encipherment of keys
  keyUsage := [0x05, 0xA0]
  extKeyUsage := [pkix [3, 2]]
  subjectKeyId := choice.subjectKeyId
  authorityKeyId := issuer.issuerKeyID
  emailAddresses := [input.subjectEmail]
  uris := [uri]
  crlDistributionPoints := issuer.crlDistributionPoints
  ocspServer := issuer.ocspServers

/-- `RegisterUser` from the checked input to the certificate. Lengths of more than four bytes are
not read by `x509.ParseCertificate`. -/
def issueCertificate (validityDays : ℤ) (input : Ca.RegisterInput) (choice : Choice) :
    Except String (List UInt8) := do
  let ownerURI ← issuer.url.parseUrl ("urn:mini-banking:owner:" ++ pathEscape input.ownerID).toList
  let der ← createCertificate
    (issuer.template validityDays input choice (String.ofList (issuer.url.string ownerURI)))
    issuer.parent choice.publicKey
  if 2 ^ 32 ≤ der.length then throw "x509: malformed certificate"
  issuer.parseCertificate der
  return der

end Issuer

/-- The characters of an escaped text. -/
theorem pathEscape_chars (s : String) : ∀ c ∈ (pathEscape s).toList,
    c ≠ '#' ∧ c ≠ '?' ∧ Go.isCTL c = false ∧ c.toNat < 128 := by
  have hall : ∀ n < 256, (pathEscapeByte (.ofNat n)).all (fun c =>
      c ≠ '#' && c ≠ '?' && !Go.isCTL c && c.toNat < 128) = true := by
    decide +kernel
  intro c hc
  rw [pathEscape, String.toList_ofList] at hc
  obtain ⟨b, -, hc⟩ := List.mem_flatMap.mp hc
  rw [← UInt8.ofNat_toNat (x := b)] at hc
  have hchar := List.all_eq_true.mp (hall b.toNat b.toNat_lt) c hc
  simpa [and_assoc] using hchar

theorem ownerURI_toList (ownerID : String) : (ownerURI ownerID).toList = ['u', 'r', 'n'] ++
    ':' :: 'm' :: ("ini-banking:owner:".toList ++ (pathEscape ownerID).toList) := by
  have hprefix : ownerUriPrefix.toList =
      ['u', 'r', 'n'] ++ ':' :: 'm' :: "ini-banking:owner:".toList := by
    decide
  rw [ownerURI, String.toList_append, hprefix]
  rfl

/-- The characters of the URI of an owner. -/
theorem ownerURI_chars (ownerID : String) : ∀ c ∈ (ownerURI ownerID).toList,
    c ≠ '#' ∧ c ≠ '?' ∧ Go.isCTL c = false ∧ c.toNat < 128 := by
  have hprefix : ownerUriPrefix.toList.all (fun c =>
      c ≠ '#' && c ≠ '?' && !Go.isCTL c && c.toNat < 128) = true := by
    decide +kernel
  intro c hc
  rw [ownerURI, String.toList_append] at hc
  rcases List.mem_append.mp hc with hc | hc
  · simpa [and_assoc] using List.all_eq_true.mp hprefix c hc
  · exact pathEscape_chars ownerID c hc

/-- **The URI of an owner is accepted**, and written into the certificate as it is. -/
theorem parseUrl_ownerURI (lib : Go.UrlLibrary) (ownerID : String) :
    ∃ url, lib.parseUrl (ownerURI ownerID).toList = .ok url ∧
      String.ofList (lib.string url) = ownerURI ownerID := by
  have hscheme : ∀ c ∈ ['u', 'r', 'n'], c.isAlpha = true ∧ c.toLower = c :=
    List.forall_mem_cons.mpr ⟨by decide, List.forall_mem_cons.mpr ⟨by decide,
      List.forall_mem_singleton.mpr (by decide)⟩⟩
  obtain ⟨rest, hrest⟩ : ∃ rest,
      (ownerURI ownerID).toList = ['u', 'r', 'n'] ++ ':' :: 'm' :: rest :=
    ⟨_, ownerURI_toList ownerID⟩
  have hchars := ownerURI_chars ownerID
  rw [hrest] at hchars
  have hslash : ('m' :: rest).head? ≠ some '/' := by
    rw [List.head?_cons]
    decide
  obtain ⟨url, hparse, hstring⟩ := Go.parseUrl_rootless lib (List.cons_ne_nil _ _)
    (List.cons_ne_nil 'm' rest) hscheme hslash
    fun c hc => ⟨(hchars c hc).1, (hchars c hc).2.1, (hchars c hc).2.2.1⟩
  refine ⟨url, ?_, ?_⟩
  · rw [hrest]
    exact hparse
  · rw [hstring, ← hrest, String.ofList_toList]

theorem ia5String_ownerURI (ownerID : String) :
    ia5String (ownerURI ownerID) = .ok (Go.utf8 (ownerURI ownerID)) := by
  have hall : (ownerURI ownerID).toList.all (·.toNat < 128) = true :=
    List.all_eq_true.mpr fun c hc => decide_eq_true (ownerURI_chars ownerID c hc).2.2.2
  exact if_pos hall

theorem textDecode_ownerURI (ownerID : String) :
    textDecode (Go.utf8 (ownerURI ownerID)) = ownerURI ownerID := by
  have h := textDecode_encode fun c hc => (ownerURI_chars ownerID c hc).2.2.2
  rwa [← Go.utf8_ofList, String.ofList_toList] at h

/-- **The owner comes back.** The browser reads from the certificate of a registration the owner
that was registered, without the blanks around it. -/
theorem owner_id_read_back {s : Ca.Service} {issuer : Issuer} {input input' : Ca.RegisterInput}
    {csr : Ca.Csr} {choice : Choice} {der : List UInt8}
    (hinput : s.checkInput input = .ok (input', csr))
    (h : issuer.issueCertificate s.certValidityDays input' choice = .ok der) :
    ∃ names, CertParser.parseSubjectAltName der = .ok names ∧
      ownerIdFromUris names.uris = some (some (Go.trimSpace input.ownerID)) := by
  obtain ⟨hinput, -, howner, -, -⟩ := Ca.Service.checkInput_ok s hinput
  obtain ⟨url, hparse, hstring⟩ := parseUrl_ownerURI issuer.url input'.ownerID
  obtain ⟨url', hparse', h⟩ := bind_eq_ok.mp h
  obtain rfl := Except.ok.inj (hparse.symm.trans hparse')
  rw [hstring] at h
  obtain ⟨der', hder, h⟩ := bind_eq_ok.mp h
  obtain ⟨hlength, rfl⟩ : der'.length < 2 ^ 32 ∧ der' = der := by
    by_cases hlength : 2 ^ 32 ≤ der'.length
    · rw [if_pos hlength] at h
      cases h
    · rw [if_neg hlength] at h
      obtain ⟨_, -, h⟩ := bind_eq_ok.mp h
      cases h
      exact ⟨Nat.lt_of_not_le hlength, rfl⟩
  obtain ⟨names, texts, hnames, htexts, huris⟩ :=
    CertParser.parseSubjectAltName_createCertificate (List.cons_ne_nil _ _) hder hlength
  obtain rfl : texts = [Go.utf8 (ownerURI input'.ownerID)] := by
    have hone : [ownerURI input'.ownerID].mapM ia5String =
        .ok [Go.utf8 (ownerURI input'.ownerID)] := by
      rw [List.mapM_cons, ia5String_ownerURI]
      rfl
    exact Except.ok.inj (htexts.symm.trans hone)
  refine ⟨names, hnames, ?_⟩
  have htrim : input'.ownerID = Go.trimSpace input.ownerID := by
    rw [hinput]
    rfl
  have hread := extractOwnerId_ownerURI howner
  rw [huris, List.map_singleton, textDecode_ownerURI, ← htrim]
  rw [extractOwnerId] at hread
  obtain ⟨owner, howners, hid⟩ := Option.bind_eq_some_iff.mp hread
  rw [howners]
  exact congrArg some hid

/-! ## A sample certificate -/

section Sample

/-- An authority whose signatures are the number of bytes it signs. -/
def sampleIssuer : Issuer where
  url := ⟨fun _ _ => .error "", fun _ _ => .error "", fun _ => [], fun _ => []⟩
  parent :=
    { subject := [[textAttribute (oidAttribute 3) "Client CA"]], subjectKeyId := [7]
      sign := fun bytes => [.ofNat bytes.length] }
  issuerKeyID := [7]
  crlDistributionPoints := ["http://ca/crl"]
  ocspServers := []
  parseCertificate := fun _ => .ok ()

/-- A registration whose owner has characters that URIs treat specially. -/
def sampleRegistration : Ca.RegisterInput where
  csrPem := "csr"
  ownerID := " Đỗ:50%/?#+@ "
  subjectCN := "Alice"
  subjectEmail := "alice@bank.vn"
  role := "customer"

def sampleChoice : Choice := ⟨77, Go.Time.unix 1760000000, [1, 2, 3], [9]⟩

theorem sampleRegistration_owner : ∃ input' csr der names,
    Ca.sampleService.checkInput sampleRegistration = .ok (input', csr) ∧
      sampleIssuer.issueCertificate Ca.sampleService.certValidityDays input' sampleChoice =
        .ok der ∧
      CertParser.parseSubjectAltName der = .ok names ∧
        ownerIdFromUris names.uris = some (some "Đỗ:50%/?#+@") := by
  have hview : ((Ca.sampleService.checkInput sampleRegistration).toOption.bind fun checked =>
      (sampleIssuer.issueCertificate Ca.sampleService.certValidityDays checked.1
        sampleChoice).toOption.map List.length) = some 383 := by
    decide +kernel
  have htrim : Go.trimSpace sampleRegistration.ownerID = "Đỗ:50%/?#+@" := by decide +kernel
  obtain ⟨⟨input', csr⟩, hinput, hview⟩ := Option.bind_eq_some_iff.mp hview
  obtain ⟨der, hder, -⟩ := Option.map_eq_some_iff.mp hview
  have hinput := toOption_eq_some hinput
  have hder := toOption_eq_some hder
  obtain ⟨names, hnames, howner⟩ := owner_id_read_back hinput hder
  rw [htrim] at howner
  exact ⟨input', csr, der, names, hinput, hder, hnames, howner⟩

end Sample

end Frontend
