import MiniBanking.Frontend.CertParser

/-!
# Certificate requests of the browser

The browser writes its certificate requests in DER with builders of its own. The certificate parser
reads back what they write.

## Main definitions

* `encodeLength`, `tlv`, `der.sequence`, …: the builders
* `buildCsrDer`: a certificate request
* `Built`: what the builders can write
* `readCsr`: a certificate request, read with the certificate parser

## Main results

* `tlv_eq_element`: the builders write elements of DER
* `Built.isElement`: whatever the builders write is one element
* `der_read_back`: elements, nested elements and certificate requests are read back
-/

namespace Frontend

open Asn1 CertParser
open Go hiding isSpace

/-! ## Builders -/

/-- The 32 bits that `>>` takes of a number. -/
def toInt32 (n : ℤ) : ℤ := n.bmod (2 ^ 32)

theorem toInt32_div_lt {n : ℤ} (h : 0 < n) : (toInt32 n / 256).toNat < n.toNat := by
  have hle : toInt32 n ≤ n := by
    rw [toInt32, Int.bmod_eq_emod]
    split <;> omega
  omega

/-- The bytes that the loop of `encodeLength` puts in front of each other. -/
def lengthBytes (n : ℤ) : List UInt8 :=
  if 0 < n then lengthBytes (toInt32 n / 256) ++ [UInt8.ofNat (n % 256).toNat] else []
termination_by n.toNat
decreasing_by exact toInt32_div_lt ‹0 < n›

/-- `encodeLength` -/
def encodeLength (len : ℕ) : List UInt8 :=
  if len < 0x80 then [UInt8.ofNat len]
  else
    let bytes := lengthBytes len
    UInt8.ofNat (0x80 ||| bytes.length) :: bytes

/-- `tlv` -/
def tlv (tag : UInt8) (content : List UInt8) : List UInt8 :=
  [tag] ++ encodeLength content.length ++ content

namespace der

def sequence (items : List (List UInt8)) : List UInt8 := tlv 0x30 items.flatten

def set (items : List (List UInt8)) : List UInt8 := tlv 0x31 items.flatten

/-- `new Uint8Array([value])` keeps the lowest byte. -/
def integer (value : ℤ) : List UInt8 := tlv 0x02 [UInt8.ofNat (value % 256).toNat]

def oid (encodedContent : List UInt8) : List UInt8 := tlv 0x06 encodedContent

def null : List UInt8 := tlv 0x05 []

def octetString (content : List UInt8) : List UInt8 := tlv 0x04 content

def utf8String (s : String) : List UInt8 := tlv 0x0c (utf8 s)

def ia5String (s : String) : List UInt8 := tlv 0x16 (utf8 s)

def rfc822Name (s : String) : List UInt8 := tlv 0x81 (utf8 s)

def bitString (content : List UInt8) : List UInt8 := tlv 0x03 ([0x00] ++ content)

def context0 (content : List UInt8) : List UInt8 := tlv 0xa0 content

/-- The bytes are DER already. -/
def raw (bytes : List UInt8) : List UInt8 := bytes

end der

/-! ## Certificate requests -/

def oidCommonName : List UInt8 := [0x55, 0x04, 0x03]

def oidEmailAddress : List UInt8 := [0x2a, 0x86, 0x48, 0x86, 0xf7, 0x0d, 0x01, 0x09, 0x01]

def oidExtensionRequest : List UInt8 := [0x2a, 0x86, 0x48, 0x86, 0xf7, 0x0d, 0x01, 0x09, 0x0e]

def oidSubjectAltName : List UInt8 := [0x55, 0x1d, 0x11]

def oidSha256WithRSA : List UInt8 := [0x2a, 0x86, 0x48, 0x86, 0xf7, 0x0d, 0x01, 0x01, 0x0b]

/-- `CsrSubject` -/
structure CsrSubject where
  commonName : String
  email : String

/-- `buildSubjectName` -/
def buildSubjectName (subject : CsrSubject) : List UInt8 :=
  let cnRdn := der.set [der.sequence [der.oid oidCommonName, der.utf8String subject.commonName]]
  let emailRdn := der.set [der.sequence [der.oid oidEmailAddress, der.ia5String subject.email]]
  der.sequence [cnRdn, emailRdn]

/-- `buildAttributes` -/
def buildAttributes (subject : CsrSubject) : List UInt8 :=
  let sanValue := der.sequence [der.rfc822Name subject.email]
  let sanExtension := der.sequence [der.oid oidSubjectAltName, der.octetString sanValue]
  let extensions := der.sequence [sanExtension]
  let request := der.sequence [der.oid oidExtensionRequest, der.set [extensions]]
  der.context0 request

/-- The part of a request that is signed. -/
def buildRequestInfo (spki : List UInt8) (subject : CsrSubject) : List UInt8 :=
  der.sequence [der.integer 0, buildSubjectName subject, der.raw spki, buildAttributes subject]

/-- `buildCsrDer`, with the exported key and with the signature under the private key. -/
def buildCsrDer (spki : List UInt8) (sign : List UInt8 → List UInt8) (subject : CsrSubject) :
    List UInt8 :=
  let requestInfo := buildRequestInfo spki subject
  let signature := sign requestInfo
  let signatureAlgorithm := der.sequence [der.oid oidSha256WithRSA, der.null]
  der.sequence [requestInfo, signatureAlgorithm, der.bitString signature]

/-! ## The builders write DER -/

/-- While no number has its 32nd bit set, the loop finds its bytes. -/
theorem lengthBytes_eq {n : ℕ} (h : n < 2 ^ 31) : lengthBytes n = base256 n := by
  induction n using Nat.strongRecOn with
  | _ n ih =>
    by_cases hzero : n = 0
    · subst hzero
      rw [base256_zero, lengthBytes]
      exact if_neg (by decide)
    · have hsigned : toInt32 n = n := by
        unfold toInt32
        exact Int.bmod_eq_of_le (by omega) (by omega)
      have hdiv : (n : ℤ) / 256 = ((n / 256 : ℕ) : ℤ) := by omega
      have hmod : ((n : ℤ) % 256).toNat = n % 256 := by omega
      rw [lengthBytes, if_pos (by omega), hsigned, hdiv, hmod, ih (n / 256) (by omega) (by omega),
        base256_of_ne hzero]

theorem encodeLength_eq {n : ℕ} (h : n < 2 ^ 31) : encodeLength n = lengthOctets n := by
  unfold encodeLength lengthOctets
  rw [lengthBytes_eq h]
  have hcount : (base256 n).length ≤ 4 := length_base256_le (show n < 256 ^ 4 by omega)
  split
  · rfl
  · show UInt8.ofNat (2 ^ 7 ||| _) :: _ = _
    have hor := @Nat.two_pow_add_eq_or_of_lt 7 (base256 n).length (by omega) 1
    rw [Nat.mul_one] at hor
    rw [← hor]

/-- **The builders write elements of DER.** -/
theorem tlv_eq_element (tag : UInt8) {content : List UInt8} (h : content.length < 2 ^ 31) :
    tlv tag content = element tag content := by
  rw [tlv, encodeLength_eq h, List.singleton_append, List.cons_append, element]

theorem length_tlv (tag : UInt8) (content : List UInt8) :
    content.length < (tlv tag content).length := by
  rw [tlv, List.length_append, List.length_append, List.length_singleton]
  omega

/-- The element that a builder writes, as it is read. -/
def written (tag : UInt8) (content : List UInt8) : CertParser.Tlv :=
  ⟨tag, content, (tlv tag content).length⟩

theorem readTlv_tlv (tag : UInt8) {content : List UInt8} (h : content.length < 2 ^ 31)
    (rest : List UInt8) :
    CertParser.readTlv (tlv tag content ++ rest) 0 = .ok (written tag content) := by
  rw [written, tlv_eq_element tag h]
  exact readTlv_element tag (by omega) rest

theorem isElement_tlv (tag : UInt8) {content : List UInt8} (h : content.length < 2 ^ 31) :
    IsElement (tlv tag content) (written tag content) := by
  refine ⟨?_, rfl⟩
  have hread := readTlv_tlv tag h []
  rwa [List.append_nil] at hread

/-! ## Nested builders -/

/-- What the builders can write. Bytes that are taken over as they are must be an element. -/
inductive Built : List UInt8 → Prop where
  | sequence {items} : (∀ item ∈ items, Built item) → Built (der.sequence items)
  | set {items} : (∀ item ∈ items, Built item) → Built (der.set items)
  | integer (value) : Built (der.integer value)
  | oid (encodedContent) : Built (der.oid encodedContent)
  | null : Built der.null
  | octetString (content) : Built (der.octetString content)
  | utf8String (s) : Built (der.utf8String s)
  | ia5String (s) : Built (der.ia5String s)
  | rfc822Name (s) : Built (der.rfc822Name s)
  | bitString (content) : Built (der.bitString content)
  | context0 (content) : Built (der.context0 content)
  | raw {bytes node} : IsElement bytes node → Built (der.raw bytes)

/-- **Whatever the builders write is one element.** -/
theorem Built.isElement {bytes : List UInt8} (h : Built bytes) (hlength : bytes.length < 2 ^ 31) :
    ∃ node, IsElement bytes node := by
  have htlv : ∀ tag content, (tlv tag content).length < 2 ^ 31 →
      ∃ node, IsElement (tlv tag content) node := fun tag content hlength =>
    ⟨_, isElement_tlv tag ((length_tlv tag content).trans hlength)⟩
  cases h with
  | raw h => exact ⟨_, h⟩
  | _ => exact htlv _ _ hlength

/-- Each of some bytes is shorter than all of them. -/
theorem length_le_flatten {items : List (List UInt8)} {item : List UInt8} (h : item ∈ items) :
    item.length ≤ items.flatten.length :=
  (List.sublist_flatten_of_mem h).length_le

theorem forall₂_isElement {items : List (List UInt8)} (h : ∀ item ∈ items, Built item)
    (hlength : items.flatten.length < 2 ^ 31) : ∃ nodes, List.Forall₂ IsElement items nodes := by
  induction items with
  | nil => exact ⟨[], .nil⟩
  | cons item items ih =>
    have hitem := length_le_flatten (List.mem_cons_self (a := item) (l := items))
    rw [List.flatten_cons, List.length_append] at hlength
    obtain ⟨node, hnode⟩ := (h item List.mem_cons_self).isElement (by omega)
    obtain ⟨nodes, hnodes⟩ := ih (fun item' hi => h item' (List.mem_cons_of_mem _ hi)) (by omega)
    exact ⟨node :: nodes, .cons hnode hnodes⟩

/-- **The items of a built sequence or set are read back**, in their order. -/
theorem readChildren_built {items : List (List UInt8)} (h : ∀ item ∈ items, Built item)
    (hlength : items.flatten.length < 2 ^ 31) (tag : UInt8) :
    CertParser.readTlv (tlv tag items.flatten) 0 = .ok (written tag items.flatten) ∧
      ∃ nodes, List.Forall₂ IsElement items nodes ∧
        CertParser.readChildren items.flatten = .ok (placed 0 nodes) := by
  obtain ⟨nodes, hnodes⟩ := forall₂_isElement h hlength
  exact ⟨(isElement_tlv tag hlength).read, nodes, hnodes, readChildren_items hnodes⟩

/-! ## Reading a certificate request -/

/-- An attribute of a name: its type, and the tag and the bytes of its value. -/
abbrev NameAttribute := List UInt8 × UInt8 × List UInt8

/-- What a certificate request says. -/
structure CsrParts where
  version : List UInt8
  subject : List NameAttribute
  /-- The tag and the content of the public key. -/
  key : UInt8 × List UInt8
  /-- The type of the attribute, and of the extension in it. -/
  attributeType : List UInt8
  extensionType : List UInt8
  /-- The tags and the bytes of the alternative names. -/
  alternativeNames : List (UInt8 × List UInt8)
  signatureAlgorithm : List UInt8
  signature : List UInt8

/-- The attributes of a name that has one in each of its sets. -/
def readName : List CertParser.Tlv → Except Failure (List NameAttribute)
  | [] => return []
  | set :: sets => do
    let [pair] ← CertParser.readChildren set.content | fail "set"
    let [type, value] ← CertParser.readChildren pair.content | fail "attribute"
    return (type.content, value.tag, value.content) :: (← readName sets)

/-- The type of the attribute that requests extensions, the type of the one it requests, and the
names in it. -/
def readAttributes (content : List UInt8) :
    Except Failure (List UInt8 × List UInt8 × List (UInt8 × List UInt8)) := do
  let request ← CertParser.readTlv content 0
  let [type, values] ← CertParser.readChildren request.content | fail "attribute"
  let [extensions] ← CertParser.readChildren values.content | fail "values"
  let [extension] ← CertParser.readChildren extensions.content | fail "extensions"
  let [extensionType, octet] ← CertParser.readChildren extension.content | fail "extension"
  let names ← CertParser.readTlv octet.content 0
  let names ← CertParser.readChildren names.content
  return (type.content, extensionType.content, names.map fun name => (name.tag, name.content))

/-- A certificate request, read with the certificate parser. -/
def readCsr (csr : List UInt8) : Except Failure CsrParts := do
  let request ← CertParser.readTlv csr 0
  let [info, algorithm, signature] ← CertParser.readChildren request.content | fail "request"
  let [version, subject, key, attributes] ← CertParser.readChildren info.content | fail "info"
  let subject ← readName (← CertParser.readChildren subject.content)
  let (attributeType, extensionType, alternativeNames) ← readAttributes attributes.content
  let type :: _ ← CertParser.readChildren algorithm.content | fail "algorithm"
  return {
    version := version.content, subject, key := (key.tag, key.content), attributeType,
    extensionType, alternativeNames, signatureAlgorithm := type.content,
    signature := signature.content.tail }

/-! ## Certificate requests are read back -/

section ReadBack

/-- The content of an element that is not too long is not too long. -/
theorem content_lt {tag : UInt8} {content : List UInt8} {bound : ℕ}
    (h : (tlv tag content).length < bound) : content.length < bound :=
  (length_tlv tag content).trans h

/-- Each item of a sequence or set that is not too long is not too long. -/
theorem item_lt {tag : UInt8} {items : List (List UInt8)} {bound : ℕ}
    (h : (tlv tag items.flatten).length < bound) {item : List UInt8} (hmem : item ∈ items) :
    item.length < bound :=
  (length_le_flatten hmem).trans_lt (content_lt h)

/-- An item that is not too long is read back. -/
theorem isElement_item {tag outer : UInt8} {content : List UInt8} {items : List (List UInt8)}
    (h : (tlv outer items.flatten).length < 2 ^ 31) (hmem : tlv tag content ∈ items) :
    IsElement (tlv tag content) (written tag content) :=
  isElement_tlv tag (content_lt (item_lt h hmem))

/-- A sequence or set of one item. -/
theorem readChildren_one {item : List UInt8} {node : CertParser.Tlv} (h : IsElement item node) :
    CertParser.readChildren [item].flatten = .ok [node.moved 0] :=
  readChildren_items (.cons h .nil)

/-- A sequence or set of two items. -/
theorem readChildren_two {item item' : List UInt8} {node node' : CertParser.Tlv}
    (h : IsElement item node) (h' : IsElement item' node') :
    CertParser.readChildren [item, item'].flatten =
      .ok [node.moved 0, node'.moved (0 + node.stop)] :=
  readChildren_items (.cons h (.cons h' .nil))

/-- A set with one attribute of a name is read back. -/
theorem readName_cons {type value : List UInt8} {tag : UInt8} {sets : List CertParser.Tlv}
    {parts : List NameAttribute} (off : ℕ)
    (hlength : (der.set [der.sequence [der.oid type, tlv tag value]]).length < 2 ^ 31)
    (hsets : readName sets = .ok parts) :
    readName ((written 0x31 [der.sequence [der.oid type, tlv tag value]].flatten).moved off ::
      sets) = .ok ((type, tag, value) :: parts) := by
  have hpair := item_lt hlength List.mem_cons_self
  refine bind_eq_ok.mpr ⟨_, readChildren_one (isElement_item hlength List.mem_cons_self), ?_⟩
  refine bind_eq_ok.mpr ⟨_, readChildren_two (isElement_item hpair List.mem_cons_self)
    (isElement_item hpair (List.mem_cons_of_mem _ List.mem_cons_self)), ?_⟩
  exact bind_eq_ok.mpr ⟨_, hsets, rfl⟩

/-- The content of the name of a subject. -/
def subjectContent (subject : CsrSubject) : List UInt8 :=
  [der.set [der.sequence [der.oid oidCommonName, der.utf8String subject.commonName]],
    der.set [der.sequence [der.oid oidEmailAddress, der.ia5String subject.email]]].flatten

/-- The name of a subject is read back. -/
theorem readName_subject (subject : CsrSubject)
    (hlength : (buildSubjectName subject).length < 2 ^ 31) :
    ∃ nodes, CertParser.readChildren (subjectContent subject) = .ok nodes ∧
      readName nodes = .ok [(oidCommonName, 0x0c, utf8 subject.commonName),
        (oidEmailAddress, 0x16, utf8 subject.email)] := by
  have hcn := item_lt hlength List.mem_cons_self
  have hemail := item_lt hlength (List.mem_cons_of_mem _ List.mem_cons_self)
  refine ⟨_, readChildren_two (isElement_item hlength List.mem_cons_self)
    (isElement_item hlength (List.mem_cons_of_mem _ List.mem_cons_self)), ?_⟩
  exact readName_cons 0 hcn (readName_cons _ hemail rfl)

/-- The attributes are read back. -/
theorem readAttributes_subject (subject : CsrSubject)
    (hlength : (buildAttributes subject).length < 2 ^ 31) :
    ∃ content, IsElement (buildAttributes subject) (written 0xa0 content) ∧
      readAttributes content =
        .ok (oidExtensionRequest, oidSubjectAltName, [(0x81, utf8 subject.email)]) := by
  have hsecond : ∀ {a b : List UInt8}, b ∈ [a, b] := List.mem_cons_of_mem _ List.mem_cons_self
  refine ⟨_, isElement_tlv 0xa0 (content_lt hlength), ?_⟩
  have hrequest := content_lt hlength
  have hvalues := item_lt hrequest hsecond
  have hextensions := item_lt hvalues List.mem_cons_self
  have hextension := item_lt hextensions List.mem_cons_self
  have hoctet := item_lt hextension hsecond
  have hnames := content_lt hoctet
  refine bind_eq_ok.mpr ⟨_, (isElement_tlv 0x30 (content_lt hrequest)).read, ?_⟩
  refine bind_eq_ok.mpr ⟨_, readChildren_two (isElement_item hrequest List.mem_cons_self)
    (isElement_item hrequest hsecond), ?_⟩
  refine bind_eq_ok.mpr ⟨_, readChildren_one (isElement_item hvalues List.mem_cons_self), ?_⟩
  refine bind_eq_ok.mpr ⟨_, readChildren_one (isElement_item hextensions List.mem_cons_self), ?_⟩
  refine bind_eq_ok.mpr ⟨_, readChildren_two (isElement_item hextension List.mem_cons_self)
    (isElement_item hextension hsecond), ?_⟩
  refine bind_eq_ok.mpr ⟨_, (isElement_tlv 0x30 (content_lt hnames)).read, ?_⟩
  exact bind_eq_ok.mpr ⟨_, readChildren_one (isElement_item hnames List.mem_cons_self), rfl⟩

/-- **A certificate request is read back**: its version, its subject, its key and its
attributes. -/
theorem readCsr_buildCsrDer {spki : List UInt8} {key : CertParser.Tlv} (hkey : IsElement spki key)
    (sign : List UInt8 → List UInt8) (subject : CsrSubject)
    (hlength : (buildCsrDer spki sign subject).length < 2 ^ 31) :
    readCsr (buildCsrDer spki sign subject) = .ok {
      version := [0]
      subject := [(oidCommonName, 0x0c, utf8 subject.commonName),
        (oidEmailAddress, 0x16, utf8 subject.email)]
      key := (key.tag, key.content)
      attributeType := oidExtensionRequest
      extensionType := oidSubjectAltName
      alternativeNames := [(0x81, utf8 subject.email)]
      signatureAlgorithm := oidSha256WithRSA
      signature := sign (buildRequestInfo spki subject) } := by
  have hinfo := item_lt hlength List.mem_cons_self
  have halgorithm := item_lt hlength (List.mem_cons_of_mem _ List.mem_cons_self)
  have hbits := item_lt hlength (List.mem_cons_of_mem _ (List.mem_cons_of_mem _ List.mem_cons_self))
  have hsubject := item_lt hinfo (List.mem_cons_of_mem _ List.mem_cons_self)
  have hattributes := item_lt hinfo (List.mem_cons_of_mem _ (List.mem_cons_of_mem _
    (List.mem_cons_of_mem _ List.mem_cons_self)))
  obtain ⟨names, hnames, hname⟩ := readName_subject subject hsubject
  obtain ⟨content, hcontent, hread⟩ := readAttributes_subject subject hattributes
  refine bind_eq_ok.mpr ⟨_, (isElement_tlv 0x30 (content_lt hlength)).read, ?_⟩
  refine bind_eq_ok.mpr ⟨_, readChildren_items (.cons (isElement_tlv 0x30 (content_lt hinfo))
    (.cons (isElement_tlv 0x30 (content_lt halgorithm))
      (.cons (isElement_tlv 0x03 (content_lt hbits)) .nil))), ?_⟩
  refine bind_eq_ok.mpr ⟨_, readChildren_items (.cons (isElement_item hinfo List.mem_cons_self)
    (.cons (isElement_tlv 0x30 (content_lt hsubject)) (.cons hkey (.cons hcontent .nil)))), ?_⟩
  refine bind_eq_ok.mpr ⟨_, hnames, bind_eq_ok.mpr ⟨_, hname, bind_eq_ok.mpr ⟨_, hread, ?_⟩⟩⟩
  exact bind_eq_ok.mpr ⟨_, readChildren_two (isElement_item halgorithm List.mem_cons_self)
    (isElement_item halgorithm (List.mem_cons_of_mem _ List.mem_cons_self)), rfl⟩

end ReadBack

/-- **DER is read back**: every element with a content below 2 ^ 31 bytes, whatever follows it; the
items of every sequence and set of what the builders can write, in their order; and every
certificate request. -/
theorem der_read_back :
    (∀ (tag : UInt8) (content rest : List UInt8), content.length < 2 ^ 31 →
      CertParser.readTlv (tlv tag content ++ rest) 0 =
        .ok ⟨tag, content, (tlv tag content).length⟩) ∧
    (∀ (tag : UInt8) (items : List (List UInt8)), (∀ item ∈ items, Built item) →
      items.flatten.length < 2 ^ 31 →
        CertParser.readTlv (tlv tag items.flatten) 0 =
            .ok ⟨tag, items.flatten, (tlv tag items.flatten).length⟩ ∧
          ∃ nodes, List.Forall₂ IsElement items nodes ∧
            CertParser.readChildren items.flatten = .ok (placed 0 nodes)) ∧
    ∀ (spki : List UInt8) (key : CertParser.Tlv) (sign : List UInt8 → List UInt8)
      (subject : CsrSubject), IsElement spki key →
        (buildCsrDer spki sign subject).length < 2 ^ 31 →
          readCsr (buildCsrDer spki sign subject) = .ok {
            version := [0]
            subject := [(oidCommonName, 0x0c, utf8 subject.commonName),
              (oidEmailAddress, 0x16, utf8 subject.email)]
            key := (key.tag, key.content)
            attributeType := oidExtensionRequest
            extensionType := oidSubjectAltName
            alternativeNames := [(0x81, utf8 subject.email)]
            signatureAlgorithm := oidSha256WithRSA
            signature := sign (buildRequestInfo spki subject) } :=
  ⟨fun tag _ rest h => readTlv_tlv tag h rest,
    fun tag _ hitems hlength => readChildren_built hitems hlength tag,
    fun _ _ sign subject hkey hlength => readCsr_buildCsrDer hkey sign subject hlength⟩

/-- A sequence of two strings and a certificate request are read back. -/
theorem sample_der_read_back :
    (∃ nodes, List.Forall₂ IsElement [der.utf8String "a", der.octetString []] nodes ∧
      CertParser.readChildren [der.utf8String "a", der.octetString []].flatten =
        .ok (placed 0 nodes)) ∧
    (readCsr (buildCsrDer [0x30, 0x03, 0x02, 0x01, 0x05] (fun _ => [1, 2, 3])
      ⟨"A", "a@b"⟩)).map CsrParts.key = .ok (0x30, [0x02, 0x01, 0x05]) := by
  have hitems : ∀ item ∈ [der.utf8String "a", der.octetString []], Built item :=
    List.forall_mem_cons.mpr ⟨.utf8String "a", List.forall_mem_singleton.mpr (.octetString [])⟩
  obtain ⟨hread, hchildren, hcsr⟩ := der_read_back
  refine ⟨(hchildren 0x30 _ hitems (by decide)).2, ?_⟩
  have hkey : IsElement [0x30, 0x03, 0x02, 0x01, 0x05] ⟨0x30, [0x02, 0x01, 0x05], 5⟩ :=
    ⟨rfl, rfl⟩
  rw [hcsr _ _ (fun _ => [1, 2, 3]) ⟨"A", "a@b"⟩ hkey (by decide)]
  rfl

end Frontend
