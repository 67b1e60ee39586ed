import MiniBanking.Frontend.Exchanges
import MiniBanking.Go.Rfc3339
import MiniBanking.Js.Text

/-!
# Certificate chains in the browser

The browser reads certificates in DER itself, and verifies a chain of them up to a root that it
loads once. Every certificate is read with its signed bytes, its names in a common spelling, its
key, its validity and whether it is that of an authority.

## Main definitions

* `Platform`: the runtime of the browser and its cryptography
* `readTlv`, `children`: elements of DER, and the elements inside one
* `pemBlocks`: the certificates of a text
* `ParsedCert`, `parseCert`: a certificate as it is read
* `verifyChainToRoot`: the verification of a chain
* `Signed`, `Chain`: what a chain should be

## Main results

* `verifyLinks_ok`: the loop ends well exactly if the chain is one
* `verifyChainToRoot_sound`: a chain that is accepted is one, up to the root that is kept
-/

namespace Frontend

open Js
open Go hiding isSpace

/-! ## The platform -/

/-- The runtime of a browser, and its cryptography; what throws is `none`. -/
structure Platform where
  /-- `toLowerCase` -/
  toLowerCase : String → String
  /-- The text of a number from `10 ^ 21` on. -/
  largeNumber : ℕ → String
  /-- Public keys for RSASSA-PKCS1-v1_5 with SHA-256. -/
  Key : Type
  /-- Public keys for RSA-PSS with SHA-256. -/
  PssKey : Type
  importKey : List UInt8 → Option Key
  importPssKey : List UInt8 → Option PssKey
  /-- The signature of some bytes verifies under a key. -/
  verify : Key → (signature data : List UInt8) → Bool

/-- What throws an error with a text. -/
def fail {α : Type} (message : String) : Except Failure α := .error (.error message)

/-! ## DER -/

/-- An element: its tag, where its content begins and where it ends, and all its bytes. -/
structure Tlv where
  tag : UInt8
  contentStart : ℕ
  stop : ℕ
  raw : List UInt8

/-- `buf.subarray(from, to)` -/
def subarray (buf : List UInt8) (start stop : ℕ) : List UInt8 := (buf.take stop).drop start

/-- A length of several bytes. -/
def longLength (bytes : List UInt8) : ℕ := bytes.foldl (fun len b => len * 256 + b.toNat) 0

/-- `readTlv` -/
def readTlv (buf : List UInt8) (off : ℕ) : Except Failure Tlv :=
  match buf.drop off with
  | tag :: len :: _ =>
    if len &&& 0x80 ≠ 0 then do
      let n := (len &&& 0x7F).toNat
      check (¬ (n = 0 ∨ 4 < n ∨ buf.length < off + 2 + n)) "Độ dài DER không hợp lệ"
      element tag (off + 2 + n) (longLength (subarray buf (off + 2) (off + 2 + n)))
    else element tag (off + 2) len.toNat
  | _ => fail "DER bị cắt ngắn"
where
  /-- The element with a content. -/
  element (tag : UInt8) (contentStart len : ℕ) : Except Failure Tlv := do
    check (contentStart + len ≤ buf.length) "Nội dung DER vượt quá buffer"
    return ⟨tag, contentStart, contentStart + len, subarray buf off (contentStart + len)⟩

/-- The elements from an offset to an end. Every element has two bytes at least, so that as many
rounds as there are bytes are enough. -/
def childrenFrom (buf : List UInt8) (stop : ℕ) : (rounds off : ℕ) → Except Failure (List Tlv)
  | 0, _ => return []
  | rounds + 1, off =>
    if off < stop then do
      let node ← readTlv buf off
      check (off < node.stop) "Vòng lặp DER không tiến triển"
      return node :: (← childrenFrom buf stop rounds node.stop)
    else return []

/-- More rounds than bytes find the same elements. -/
theorem childrenFrom_rounds {buf : List UInt8} {stop : ℕ} (rounds more off : ℕ)
    (h : stop ≤ off + rounds) :
    childrenFrom buf stop (rounds + more) off = childrenFrom buf stop rounds off := by
  induction rounds generalizing off with
  | zero =>
    cases more with
    | zero => rfl
    | succ more => exact if_neg (by omega)
  | succ rounds ih =>
    rw [Nat.add_right_comm]
    simp only [childrenFrom]
    split
    swap
    · rfl
    refine bind_congr fun node => ?_
    by_cases hlt : off < node.stop
    · rw [ih node.stop (by omega)]
    · -- the loop does not go on
      rw [show check (off < node.stop) "Vòng lặp DER không tiến triển" = .error _ from if_neg hlt]
      rfl

/-- `children` -/
def children (buf : List UInt8) (parent : Tlv) : Except Failure (List Tlv) :=
  childrenFrom buf parent.stop (parent.stop - parent.contentStart) parent.contentStart

/-- The arcs of an object identifier after its first byte. -/
def oidArcs : (value : ℕ) → List UInt8 → List ℕ
  | _, [] => []
  | value, b :: bytes =>
    let value := roundNat (value * 128 + (b &&& 0x7F).toNat)
    if b &&& 0x80 = 0 then value :: oidArcs 0 bytes else oidArcs value bytes

namespace Platform

variable (w : Platform)

/-- `decodeOid` -/
def decodeOid : List UInt8 → Except Failure String
  | [] => fail "OID rỗng"
  | first :: bytes =>
    let parts := first.toNat / 40 :: first.toNat % 40 :: oidArcs 0 bytes
    return String.intercalate "." (parts.map (numberText w.largeNumber))

/-- `oidOf` -/
def oidOf (buf : List UInt8) (node : Tlv) : Except Failure String :=
  w.decodeOid (subarray buf node.contentStart node.stop)

end Platform

/-! ## PEM -/

def beginCertificate : List Char := "-----BEGIN CERTIFICATE-----".toList

def endCertificate : List Char := "-----END CERTIFICATE-----".toList

/-- What stands before a mark and what stands after it. -/
def splitAtMark (mark : List Char) : List Char → Option (List Char × List Char)
  | [] => if mark = [] then some ([], []) else none
  | c :: cs =>
    if mark.isPrefixOf (c :: cs) then some ([], (c :: cs).drop mark.length)
    else (splitAtMark mark cs).map fun (before, after) => (c :: before, after)

/-- What stands between the marks of certificates. -/
def pemBodies : (rounds : ℕ) → List Char → List (List Char)
  | 0, _ => []
  | rounds + 1, text =>
    match splitAtMark beginCertificate text with
    | none => []
    | some (_, text) => match splitAtMark endCertificate text with
      | none => []
      | some (body, text) => body :: pemBodies rounds text

/-- `pemBlocks` -/
def pemBlocks (pem : String) : Except Failure (List (List UInt8)) :=
  ((pemBodies pem.length pem.toList).map (List.filter fun c => !isSpace c)).filter (· ≠ [])
    |>.mapM fun b64 => attempt (atob b64)

/-- The text of a certificate. -/
def pemChars (der : List UInt8) : List Char :=
  beginCertificate ++ '\n' :: base64Chars der ++ ['\n'] ++ endCertificate ++ ['\n']

section Pem

variable {c : Char} {mark before after : List Char}

theorem splitAtMark_append (hmark : mark.head? = some c) (h : c ∉ before) :
    splitAtMark mark (before ++ (mark ++ after)) = some (before, after) := by
  obtain ⟨mark, rfl⟩ := List.head?_eq_some_iff.mp hmark
  induction before with
  | nil => simp [splitAtMark]
  | cons d before ih =>
    obtain ⟨hne, hrest⟩ := not_or.mp (mt List.mem_cons.mpr h)
    rw [List.cons_append, splitAtMark, ih hrest]
    simp [hne]

theorem splitAtMark_eq_none (hmark : mark.head? = some c) (h : c ∉ before) :
    splitAtMark mark before = none := by
  obtain ⟨mark, rfl⟩ := List.head?_eq_some_iff.mp hmark
  induction before with
  | nil => rfl
  | cons d before ih =>
    obtain ⟨hne, hrest⟩ := not_or.mp (mt List.mem_cons.mpr h)
    simp [splitAtMark, hne, ih hrest]

theorem head_beginCertificate : beginCertificate.head? = some '-' := by decide +kernel

theorem head_endCertificate : endCertificate.head? = some '-' := by decide +kernel

/-- The signs of a mark are not in the text of bytes. -/
theorem dash_not_mem (der : List UInt8) : '-' ∉ '\n' :: base64Chars der ++ ['\n'] := by
  have hdigit : ∀ n < 64, base64Digit n ≠ '-' := by decide
  intro h
  simp only [List.cons_append, List.mem_cons, List.mem_append, List.not_mem_nil, or_false] at h
  rcases h with h | h | h
  · cases h
  · obtain h | ⟨n, hn, h⟩ := mem_base64Chars h
    · cases h
    · exact hdigit n hn h.symm
  · cases h

theorem pemBodies_pemChars {ders : List (List UInt8)} {rounds : ℕ} (hrounds : ders.length ≤ rounds)
    (hbefore : '-' ∉ before) : pemBodies rounds (before ++ ders.flatMap pemChars) =
      ders.map fun der => '\n' :: base64Chars der ++ ['\n'] := by
  induction ders generalizing rounds before with
  | nil =>
    rw [List.flatMap_nil, List.append_nil]
    cases rounds with
    | zero => rfl
    | succ rounds =>
      rw [pemBodies, splitAtMark_eq_none head_beginCertificate hbefore]
      rfl
  | cons der ders ih =>
    cases rounds with
    | zero => cases hrounds
    | succ rounds =>
      have hbegin : splitAtMark beginCertificate (before ++ (der :: ders).flatMap pemChars) =
          some (before, ('\n' :: base64Chars der ++ ['\n']) ++
            (endCertificate ++ (['\n'] ++ ders.flatMap pemChars))) := by
        rw [List.flatMap_cons, pemChars]
        simp only [List.append_assoc]
        exact splitAtMark_append head_beginCertificate hbefore
      have hend : splitAtMark endCertificate (('\n' :: base64Chars der ++ ['\n']) ++
          (endCertificate ++ (['\n'] ++ ders.flatMap pemChars))) =
            some ('\n' :: base64Chars der ++ ['\n'], ['\n'] ++ ders.flatMap pemChars) :=
        splitAtMark_append head_endCertificate (dash_not_mem der)
      rw [pemBodies, hbegin]
      dsimp only
      rw [hend]
      exact congrArg _ (ih (Nat.le_of_succ_le_succ hrounds) (by decide))

/-- The characters of a text of bytes that are no blanks. -/
theorem filter_body (der : List UInt8) :
    ('\n' :: base64Chars der ++ ['\n']).filter (fun c => !isSpace c) = base64Chars der := by
  have hdigit : ∀ n < 64, isSpace (base64Digit n) = false := by decide
  have hkeep : (base64Chars der).filter (fun c => !isSpace c) = base64Chars der := by
    refine List.filter_eq_self.mpr fun c hc => ?_
    obtain rfl | ⟨n, hn, rfl⟩ := mem_base64Chars hc
    · rfl
    · rw [hdigit n hn]
      rfl
  rw [List.cons_append, List.filter_cons_of_neg (by decide), List.filter_append, hkeep]
  simp [isSpace]

theorem base64Chars_ne_nil {der : List UInt8} (h : der ≠ []) : base64Chars der ≠ [] := by
  rcases der with _ | ⟨a, _ | ⟨b, _ | ⟨c, rest⟩⟩⟩
  · exact absurd rfl h
  all_goals simp [base64Chars]

theorem length_le_flatMap (ders : List (List UInt8)) :
    ders.length ≤ (ders.flatMap pemChars).length := by
  induction ders with
  | nil => exact Nat.zero_le _
  | cons der ders ih =>
    simp only [List.flatMap_cons, List.length_append, List.length_cons, pemChars]
    omega

/-- **Certificates are read back from their texts.** -/
theorem pemBlocks_pemChars {ders : List (List UInt8)} (h : ∀ der ∈ ders, der ≠ []) :
    pemBlocks (String.ofList (ders.flatMap pemChars)) = .ok ders := by
  have hbodies := @pemBodies_pemChars [] ders _ (length_le_flatMap ders) List.not_mem_nil
  rw [List.nil_append] at hbodies
  have hmap : ders.map ((List.filter fun c => !isSpace c) ∘
      fun der => '\n' :: base64Chars der ++ ['\n']) = ders.map base64Chars :=
    List.map_congr_left fun der _ => filter_body der
  have hfilter : (ders.map base64Chars).filter (· ≠ []) = ders.map base64Chars := by
    refine List.filter_eq_self.mpr fun b64 hb64 => ?_
    obtain ⟨der, hder, rfl⟩ := List.mem_map.mp hb64
    exact decide_eq_true (base64Chars_ne_nil (h der hder))
  rw [pemBlocks, String.toList_ofList, String.length_ofList, hbodies, List.map_map, hmap, hfilter]
  clear h hbodies hmap hfilter
  induction ders with
  | nil => rfl
  | cons der ders ih =>
    rw [List.map_cons, List.mapM_cons, atob_base64Chars, ih]
    rfl

end Pem

/-! ## Certificates -/

def oidSha256Rsa : String := "1.2.840.113549.1.1.11"

def oidBasicConstraints : String := "2.5.29.19"

def oidCN : String := "2.5.4.3"

def tagBoolean : UInt8 := 0x01

def tagOid : UInt8 := 0x06

def tagSequence : UInt8 := 0x30

/-- `[3] EXPLICIT` -/
def tagExtensions : UInt8 := 0xa3

/-- A certificate as it is read. Times are in milliseconds. -/
structure ParsedCert where
  der : List UInt8
  /-- The bytes that are signed. -/
  tbsRaw : List UInt8
  sigAlgOid : String
  signature : List UInt8
  issuerName : String
  subjectName : String
  spkiRaw : List UInt8
  notBefore : ℤ
  notAfter : ℤ
  subjectCN : String
  isCA : Bool

/-- `Date.UTC`, where a year below 100 is one of the twentieth century. -/
def dateUTC (year month day hours minutes seconds : ℤ) : ℤ :=
  let year := if 0 ≤ year ∧ year ≤ 99 then 1900 + year else year
  let dayNumber := days (year + month / 12) (month % 12 + 1) 1 + day - 1
  (((dayNumber * 24 + hours) * 60 + minutes) * 60 + seconds) * 1000

/-- Numbers of so many digits, and then a `Z` at the end. -/
def readTime : (widths : List ℕ) → List Char → Option (List ℤ)
  | [], cs => if cs = ['Z'] then some [] else none
  | width :: widths, cs => do
    let (n, cs) ← readDigits width 0 cs
    return (n : ℤ) :: (← readTime widths cs)

/-- `parseAsn1Time` -/
def parseAsn1Time (node : Tlv) (buf : List UInt8) : Except Failure ℤ := do
  let raw := textDecode (subarray buf node.contentStart node.stop)
  if node.tag = 0x17 then
    match readTime [2, 2, 2, 2, 2, 2] raw.toList with
    | some [yy, month, day, hours, minutes, seconds] =>
      let year := if 50 ≤ yy then 1900 + yy else 2000 + yy
      return dateUTC year (month - 1) day hours minutes seconds
    | _ => fail ("UTCTime không hợp lệ: " ++ raw)
  else if node.tag = 0x18 then
    match readTime [4, 2, 2, 2, 2, 2] raw.toList with
    | some [year, month, day, hours, minutes, seconds] =>
      return dateUTC year (month - 1) day hours minutes seconds
    | _ => fail ("GeneralizedTime không hợp lệ: " ++ raw)
  else fail "Kiểu thời gian X.509 không hỗ trợ"

/-- `replace(/\s+/g, " ")` -/
def collapseSpaces : List Char → List Char
  | [] => []
  | [c] => if isSpace c then [' '] else [c]
  | c :: d :: cs =>
    if isSpace c then
      if isSpace d then collapseSpaces (d :: cs) else ' ' :: collapseSpaces (d :: cs)
    else c :: collapseSpaces (d :: cs)

namespace Platform

variable (w : Platform)

/-- The attributes of a name: their types and values. -/
def attributes (buf : List UInt8) (name : Tlv) : Except Failure (List (String × String)) := do
  let pairs ← (← children buf name).mapM fun rdn => do
    (← children buf rdn).mapM fun atv => do
      match ← children buf atv with
      | type :: value :: _ =>
        if type.tag ≠ tagOid then return none
        let oid ← w.oidOf buf type
        return some (oid, textDecode (subarray buf value.contentStart value.stop))
      | _ => return none
  return pairs.flatten.filterMap id

/-- The spelling of an attribute in which names are compared. -/
def canonicalPart (oid value : String) : String :=
  oid ++ "=" ++ String.ofList (collapseSpaces (w.toLowerCase (trim value)).toList)

/-- `parseName`: the common name and the common spelling. -/
def parseName (buf : List UInt8) (name : Tlv) : Except Failure (String × String) := do
  let parts ← w.attributes buf name
  -- the first common name that is not empty
  let cn := (parts.find? fun (oid, value) => oid = oidCN ∧ value ≠ "").elim "" (·.2)
  return (cn, String.intercalate "," (parts.map fun (oid, value) => w.canonicalPart oid value))

/-- Whether an extension says that the certificate is one of an authority, if it is the one about
basic constraints. -/
def basicConstraintsCA (buf : List UInt8) (ext : Tlv) : Except Failure (Option Bool) := do
  let parts ← children buf ext
  match parts with
  | type :: _ :: _ =>
    if type.tag ≠ tagOid then return none
    if (← w.oidOf buf type) ≠ oidBasicConstraints then return none
    let octet := parts.getLastD type
    let inner ← readTlv buf octet.contentStart
    if inner.tag ≠ tagSequence then return some false
    match ← children buf inner with
    | cA :: _ =>
      if cA.tag = tagBoolean then return some (buf[cA.contentStart]? ≠ some 0x00)
      else return some false
    | [] => return some false
  | _ => return none

/-- The first extension that decides. -/
def firstConstraint (buf : List UInt8) : List Tlv → Except Failure Bool
  | [] => return false
  | ext :: exts => do
    match ← w.basicConstraintsCA buf ext with
    | some isCA => return isCA
    | none => firstConstraint buf exts

/-- `parseBasicConstraintsCA` -/
def parseBasicConstraintsCA (buf : List UInt8) (extensions : Option Tlv) : Except Failure Bool := do
  let some extensions := extensions | return false
  match ← children buf extensions with
  | [] => return false
  | seq :: _ => w.firstConstraint buf (← children buf seq)

/-- `parseCert` -/
def parseCert (der : List UInt8) : Except Failure ParsedCert := do
  let cert ← readTlv der 0
  let kids ← children der cert
  let tbs :: sigAlg :: sigBit :: _ := kids | fail "Certificate thiếu thành phần"
  let sigAlgOid ← w.oidOf der (← attempt (← children der sigAlg).head?)
  let signature := subarray der (sigBit.contentStart + 1) sigBit.stop
  let tbsKids ← children der tbs
  let version ← attempt tbsKids.head?
  -- the version may be left out; a serial number and an algorithm come before the issuer
  let fields := tbsKids.drop (if version.tag = 0xa0 then 3 else 2)
  let extensions := (fields.drop 4).find? (·.tag = tagExtensions)
  let vKids ← children der (← attempt fields[1]?)
  let notBefore ← parseAsn1Time (← attempt vKids[0]?) der
  let notAfter ← parseAsn1Time (← attempt vKids[1]?) der
  let (_, issuerName) ← w.parseName der (← attempt fields[0]?)
  let (subjectCN, subjectName) ← w.parseName der (← attempt fields[2]?)
  let spki ← attempt fields[3]?
  let isCA ← w.parseBasicConstraintsCA der extensions
  return {
    der, tbsRaw := tbs.raw, sigAlgOid, signature, issuerName, subjectName, spkiRaw := spki.raw,
    notBefore, notAfter, subjectCN, isCA }

/-! ## Chains -/

/-- `verifySignedBy` -/
def verifySignedBy (child issuer : ParsedCert) : Except Failure Unit := do
  check (child.sigAlgOid = oidSha256Rsa)
    ("Thuật toán chữ ký cert không hỗ trợ: " ++ child.sigAlgOid)
  check (child.issuerName = issuer.subjectName) "issuer DN không khớp subject của cert cấp trên"
  let key ← attempt (w.importKey issuer.spkiRaw)
  check (w.verify key child.signature child.tbsRaw = true)
    "Chữ ký cert không hợp lệ (không do issuer ký)"

/-- `assertValidityWindow` -/
def assertValidityWindow (cert : ParsedCert) (now : ℤ) (label : String) : Except Failure Unit := do
  check (¬ now < cert.notBefore) (label ++ ": cert chưa có hiệu lực")
  check (¬ cert.notAfter < now) (label ++ ": cert đã hết hạn")

/-- The loop of `verifyChainToRoot`: every certificate is signed by the next one, the last one by
the root. -/
def verifyLinks (root : ParsedCert) (now : ℤ) : (i : ℕ) → List ParsedCert → Except Failure Unit
  | _, [] => return ()
  | i, cert :: certs => do
    assertValidityWindow cert now
      (if i = 0 then "leaf" else "intermediate[" ++ toString i ++ "]")
    check (¬ (0 < i ∧ cert.isCA = false)) ("intermediate[" ++ toString i ++ "] không phải CA")
    w.verifySignedBy cert (certs.head?.getD root)
    verifyLinks root now (i + 1) certs

/-- `VerifiedLeaf` -/
structure VerifiedLeaf where
  subjectCN : String
  publicKeyPss : w.PssKey
  publicKeySpki : List UInt8

/-- `anchor`: the root, from the text that is loaded unless it was kept before. -/
def anchor (cached : Option ParsedCert) (rootPem : Except Failure String) :
    Except Failure ParsedCert := do
  if let some root := cached then return root
  let blocks ← pemBlocks (← rootPem)
  let der :: _ := blocks | fail "Root CA PEM rỗng/không hợp lệ"
  w.parseCert der

/-- `verifyChainToRoot` up to the root: the certificates of the chain. -/
def readChain (leafPem : String) (intermediatePems : List String) :
    Except Failure (List ParsedCert) := do
  let derChain ← pemBlocks leafPem
  check (derChain ≠ []) "Không tìm thấy leaf certificate trong PEM"
  let others ← intermediatePems.mapM pemBlocks
  (derChain ++ others.flatten).mapM w.parseCert

/-- `verifyChainToRoot` from the root on. -/
def verifyChain (root : ParsedCert) (now : ℤ) (certs : List ParsedCert) :
    Except Failure w.VerifiedLeaf := do
  w.verifyLinks root now 0 certs
  assertValidityWindow root now "root"
  let leaf ← attempt certs.head?
  let publicKeyPss ← attempt (w.importPssKey leaf.spkiRaw)
  return ⟨leaf.subjectCN, publicKeyPss, leaf.spkiRaw⟩

/-- `verifyChainToRoot`, with the root that is kept before and after. -/
def verifyChainToRoot (cached : Option ParsedCert) (rootPem : Except Failure String) (now : ℤ)
    (leafPem : String) (intermediatePems : List String) :
    Except Failure w.VerifiedLeaf × Option ParsedCert :=
  match w.readChain leafPem intermediatePems with
  | .error e => (.error e, cached)
  | .ok certs => match w.anchor cached rootPem with
    | .error e => (.error e, cached)
    | .ok root => (w.verifyChain root now certs, some root)

@[simp] theorem verifyChainToRoot_fst (w : Platform) (cached : Option ParsedCert)
    (rootPem : Except Failure String) (now : ℤ) (leafPem : String) (intermediatePems : List String) :
    (w.verifyChainToRoot cached rootPem now leafPem intermediatePems).1 = (do
      let certs ← w.readChain leafPem intermediatePems
      let root ← w.anchor cached rootPem
      w.verifyChain root now certs) := by
  rw [verifyChainToRoot]
  cases w.readChain leafPem intermediatePems with
  | error e => rfl
  | ok certs => cases w.anchor cached rootPem <;> rfl

theorem readChain_of_blocks {w : Platform} {leafPem : String} {ders : List (List UInt8)}
    (h : pemBlocks leafPem = .ok ders) (hne : ders ≠ []) :
    w.readChain leafPem [] = ders.mapM w.parseCert := by
  rw [readChain, h]
  show (check (ders ≠ []) _ >>= fun _ => (ders ++ [].flatten).mapM w.parseCert) = _
  rw [check, if_pos hne, List.flatten_nil, List.append_nil]
  rfl

theorem anchor_of_blocks {w : Platform} {rootPem : String} {der : List UInt8}
    (h : pemBlocks rootPem = .ok [der]) : w.anchor none (.ok rootPem) = w.parseCert der := by
  show (pemBlocks rootPem >>= _) = _
  rw [h]
  rfl

end Platform

/-! ## What a chain should be -/

/-- A certificate is signed by the key of another one, which has the name of its issuer. -/
structure Platform.Signed (w : Platform) (child issuer : ParsedCert) : Prop where
  algorithm : child.sigAlgOid = oidSha256Rsa
  name : child.issuerName = issuer.subjectName
  signature : ∃ key, w.importKey issuer.spkiRaw = some key ∧
    w.verify key child.signature child.tbsRaw = true

/-- The time is within the validity of a certificate. -/
def ParsedCert.ValidAt (cert : ParsedCert) (now : ℤ) : Prop :=
  cert.notBefore ≤ now ∧ now ≤ cert.notAfter

/-- A chain up to a root: every certificate is signed by the one after it, the last one by the root,
all but the first are of authorities, and all are valid. -/
structure Platform.Chain (w : Platform) (root : ParsedCert) (now : ℤ) (certs : List ParsedCert) :
    Prop where
  signed : (certs ++ [root]).IsChain w.Signed
  authorities : ∀ cert ∈ certs.tail, cert.isCA = true
  valid : ∀ cert ∈ certs, cert.ValidAt now
  root_valid : root.ValidAt now

section Sound

variable {w : Platform} {root : ParsedCert} {now : ℤ} {certs : List ParsedCert}

theorem verifySignedBy_ok {child issuer : ParsedCert} :
    w.verifySignedBy child issuer = .ok () ↔ w.Signed child issuer := by
  unfold Platform.verifySignedBy
  constructor
  · intro h
    obtain ⟨_, h₁, h⟩ := bind_eq_ok.mp h
    obtain ⟨_, h₂, h⟩ := bind_eq_ok.mp h
    obtain ⟨key, h₃, h⟩ := bind_eq_ok.mp h
    exact ⟨check_eq_ok.mp h₁, check_eq_ok.mp h₂, key, attempt_eq_ok.mp h₃, check_eq_ok.mp h⟩
  · rintro ⟨h₁, h₂, key, h₃, h₄⟩
    exact bind_eq_ok.mpr ⟨(), check_eq_ok.mpr h₁, bind_eq_ok.mpr ⟨(), check_eq_ok.mpr h₂,
      bind_eq_ok.mpr ⟨key, attempt_eq_ok.mpr h₃, check_eq_ok.mpr h₄⟩⟩⟩

theorem assertValidityWindow_ok {cert : ParsedCert} {label : String} :
    Platform.assertValidityWindow cert now label = .ok () ↔ cert.ValidAt now := by
  unfold Platform.assertValidityWindow
  constructor
  · intro h
    obtain ⟨_, h₁, h⟩ := bind_eq_ok.mp h
    exact ⟨Int.not_lt.mp (check_eq_ok.mp h₁), Int.not_lt.mp (check_eq_ok.mp h)⟩
  · rintro ⟨h₁, h₂⟩
    exact bind_eq_ok.mpr ⟨(), check_eq_ok.mpr (Int.not_lt.mpr h₁),
      check_eq_ok.mpr (Int.not_lt.mpr h₂)⟩

/-- **The loop.** It ends well exactly if every certificate is signed by the next one and valid, and
one of an authority unless it is the first. -/
theorem verifyLinks_ok {i : ℕ} : w.verifyLinks root now i certs = .ok () ↔
    (certs ++ [root]).IsChain w.Signed ∧ (∀ cert ∈ certs, cert.ValidAt now) ∧
      ∀ cert ∈ certs.drop (1 - i), cert.isCA = true := by
  induction certs generalizing i with
  | nil => exact iff_of_true rfl (by simp)
  | cons cert certs ih =>
    have hnext : (cert :: certs ++ [root]).IsChain w.Signed ↔
        w.Signed cert (certs.head?.getD root) ∧ (certs ++ [root]).IsChain w.Signed := by
      cases certs <;> simp
    have hrest : certs.drop (1 - (i + 1)) = certs := by simp
    rw [hnext]
    constructor
    · intro h
      obtain ⟨_, h₁, h⟩ := bind_eq_ok.mp h
      obtain ⟨_, h₂, h⟩ := bind_eq_ok.mp h
      obtain ⟨_, h₃, h⟩ := bind_eq_ok.mp h
      obtain ⟨hchain, hvalid, hca⟩ := ih.mp h
      rw [hrest] at hca
      have hfirst := check_eq_ok.mp h₂
      refine ⟨⟨verifySignedBy_ok.mp h₃, hchain⟩, ?_, ?_⟩
      · rintro c (_ | ⟨_, hc⟩)
        · exact assertValidityWindow_ok.mp h₁
        · exact hvalid c hc
      · intro c hc
        cases i with
        | zero => exact hca c hc
        | succ i =>
          rcases List.mem_cons.mp (by simpa using hc) with rfl | hc
          · simpa using hfirst
          · exact hca c hc
    · rintro ⟨⟨hsigned, hchain⟩, hvalid, hca⟩
      refine bind_eq_ok.mpr ⟨(), assertValidityWindow_ok.mpr (hvalid cert List.mem_cons_self),
        bind_eq_ok.mpr ⟨(), check_eq_ok.mpr ?_, bind_eq_ok.mpr ⟨(), verifySignedBy_ok.mpr hsigned,
          ih.mpr ⟨hchain, fun c hc => hvalid c (List.mem_cons_of_mem _ hc), ?_⟩⟩⟩⟩
      · rintro ⟨hi, hnot⟩
        have := hca cert (by simp [Nat.sub_eq_zero_of_le hi])
        rw [hnot] at this
        cases this
      · rw [hrest]
        intro c hc
        refine hca c ?_
        cases i with
        | zero => simpa using hc
        | succ i => simp [hc]

/-- **Chain verification is sound.** If a leaf is returned, the certificates of the texts are a
chain up to the root that is kept, and what is returned is that of the first one. -/
theorem verifyChainToRoot_sound {cached cached' : Option ParsedCert}
    {rootPem : Except Failure String} {leafPem : String} {intermediatePems : List String}
    {leaf : w.VerifiedLeaf}
    (h : w.verifyChainToRoot cached rootPem now leafPem intermediatePems = (.ok leaf, cached')) :
    ∃ first certs root, w.readChain leafPem intermediatePems = .ok (first :: certs) ∧
      w.anchor cached rootPem = .ok root ∧ cached' = some root ∧
      w.Chain root now (first :: certs) ∧ leaf.subjectCN = first.subjectCN ∧
      leaf.publicKeySpki = first.spkiRaw ∧
      w.importPssKey first.spkiRaw = some leaf.publicKeyPss := by
  unfold Platform.verifyChainToRoot at h
  cases hcerts : w.readChain leafPem intermediatePems with
  | error e => simp [hcerts] at h
  | ok certs =>
  cases hroot : w.anchor cached rootPem with
  | error e => simp [hcerts, hroot] at h
  | ok root =>
  simp only [hcerts, hroot, Prod.mk.injEq] at h
  obtain ⟨h, rfl⟩ := h
  obtain ⟨_, hlinks, h⟩ := bind_eq_ok.mp h
  obtain ⟨_, hvalid, h⟩ := bind_eq_ok.mp h
  obtain ⟨first, hfirst, h⟩ := bind_eq_ok.mp h
  obtain ⟨key, hkey, h⟩ := bind_eq_ok.mp h
  cases h
  obtain ⟨certs', rfl⟩ := List.head?_eq_some_iff.mp (attempt_eq_ok.mp hfirst)
  obtain ⟨hchain, hall, hca⟩ := verifyLinks_ok.mp hlinks
  exact ⟨first, certs', root, rfl, rfl, rfl, ⟨hchain, hca, hall, assertValidityWindow_ok.mp hvalid⟩,
    rfl, rfl, attempt_eq_ok.mp hkey⟩

end Sound

/-! ## A sample chain -/

section Samples

/-- A platform on which a key is its bytes, and a signature has the last byte of its key. -/
def samplePlatform : Platform where
  toLowerCase := Js.toLowerCase
  largeNumber := toString
  Key := List UInt8
  PssKey := List UInt8
  importKey := some
  importPssKey := some
  verify key signature _ := signature = key.getLast?.toList

/-- An element of DER. -/
def derElement (tag : UInt8) (content : List UInt8) : List UInt8 :=
  tag :: (if content.length < 128 then [.ofNat content.length]
    else [0x82, .ofNat (content.length / 256), .ofNat (content.length % 256)]) ++ content

/-- A name that is a common name. -/
def derName (cn : String) : List UInt8 :=
  derElement 0x30 (derElement 0x31 (derElement 0x30
    (derElement 0x06 [0x55, 0x04, 0x03] ++ derElement 0x0C (utf8 cn))))

/-- The algorithm of a signature. -/
def derAlgorithm : List UInt8 :=
  derElement 0x30 (derElement 0x06 [42, 134, 72, 134, 247, 13, 1, 1, 11] ++ [0x05, 0x00])

/-- A certificate for ten years, with the number of its key and of the key that signed it. -/
def derCert (issuer subject : String) (isCA : Bool) (key signer : UInt8) : List UInt8 :=
  let validity := derElement 0x17 (utf8 "250101000000Z") ++ derElement 0x18 (utf8 "20350101000000Z")
  let constraints := derElement 0x06 [0x55, 0x1D, 0x13] ++ derElement 0x01 [0xFF] ++
    derElement 0x04 (derElement 0x30 (derElement 0x01 [0xFF]))
  let extensions := if isCA then derElement 0xA3 (derElement 0x30 (derElement 0x30 constraints))
    else []
  let tbs := derElement 0xA0 (derElement 0x02 [2]) ++ derElement 0x02 [1] ++ derAlgorithm ++
    derName issuer ++ derElement 0x30 validity ++ derName subject ++ derElement 0x30 [key] ++
    extensions
  derElement 0x30 (derElement 0x30 tbs ++ derAlgorithm ++ derElement 0x03 [0x00, signer])

/-- The certificates of the KDC and of the authority over it. -/
def sampleChain : List (List UInt8) :=
  [derCert "Client CA" "kdc-service" false 3 2, derCert "Root  ca" "client CA " true 2 1]

/-- The certificate of the root. -/
def sampleRoot : List UInt8 := derCert "Root CA" "Root CA" true 1 1

/-- The result for the sample chain. -/
def sampleVerified : Except Failure samplePlatform.VerifiedLeaf × Option ParsedCert :=
  samplePlatform.verifyChainToRoot none (.ok (String.ofList ([sampleRoot].flatMap pemChars)))
    1760000000000 (String.ofList (sampleChain.flatMap pemChars)) []

/-- A chain whose names differ in capital letters and blanks only. -/
theorem verifyChainToRoot_sound_of_sample : ∃ leaf first certs root,
    sampleVerified = (.ok leaf, some root) ∧ leaf.subjectCN = "kdc-service" ∧
      samplePlatform.Chain root 1760000000000 (first :: certs) := by
  have hchain : pemBlocks (String.ofList (sampleChain.flatMap pemChars)) = .ok sampleChain :=
    pemBlocks_pemChars (List.forall_mem_cons.mpr ⟨List.cons_ne_nil _ _,
      List.forall_mem_singleton.mpr (List.cons_ne_nil _ _)⟩)
  have hroot : pemBlocks (String.ofList ([sampleRoot].flatMap pemChars)) = .ok [sampleRoot] :=
    pemBlocks_pemChars (List.forall_mem_singleton.mpr (List.cons_ne_nil _ _))
  have hview : ((do
      let certs ← sampleChain.mapM samplePlatform.parseCert
      let root ← samplePlatform.parseCert sampleRoot
      samplePlatform.verifyChain root 1760000000000 certs :
        Except Failure samplePlatform.VerifiedLeaf)).toOption.map (·.subjectCN) =
          some "kdc-service" := by
    decide +kernel
  rw [← Platform.readChain_of_blocks hchain (List.cons_ne_nil _ _),
    ← Platform.anchor_of_blocks hroot, ← Platform.verifyChainToRoot_fst] at hview
  obtain ⟨leaf, hleaf, hcn⟩ := Option.map_eq_some_iff.mp hview
  cases hresult : sampleVerified with
  | mk result cached =>
  rw [sampleVerified] at hresult
  rw [hresult] at hleaf
  cases result with
  | error e => cases hleaf
  | ok leaf' =>
    obtain rfl := Option.some.inj hleaf
    obtain ⟨first, certs, root, -, -, rfl, hchain, -⟩ := verifyChainToRoot_sound hresult
    exact ⟨leaf', first, certs, root, rfl, hcn, hchain⟩

end Samples

end Frontend
