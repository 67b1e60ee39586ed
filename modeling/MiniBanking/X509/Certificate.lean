import MiniBanking.Asn1.ObjectIdentifier
import MiniBanking.Asn1.Tree
import MiniBanking.Go.Rfc3339

/-!
# Certificates of the Go standard library

What `x509.CreateCertificate` writes for a key of RSA and an authority with one. Fields that a
template leaves out are left out.

## Main definitions

* `Name`, `AlgorithmIdentifier`, `Extension`: the parts of a certificate
* `Template`, `buildCertExtensions`: what is asked for, and the extensions written for it
* `Certificate`, `Certificate.der`: a certificate, and its value of DER
* `createCertificate`: the certificate for a template
-/

namespace X509

open Asn1
open Go hiding day days

/-! ## Names and algorithms -/

/-- An object identifier as a value. -/
def oid (o : ObjectIdentifier) : Der := .primitive 0x06 o.content

@[simp] theorem tag_oid (o : ObjectIdentifier) : (oid o).tag = 0x06 := rfl

/-- The kinds of strings in a name. -/
inductive StringKind
  | utf8
  | numeric
  | printable
  | teletex
  | ia5
  | bmp
  deriving DecidableEq

def StringKind.tag : StringKind → UInt8
  | .utf8 => 0x0C
  | .numeric => 0x12
  | .printable => 0x13
  | .teletex => 0x14
  | .ia5 => 0x16
  | .bmp => 0x1E

/-- `pkix.AttributeTypeAndValue` -/
structure Attribute where
  type : ObjectIdentifier
  kind : StringKind
  value : List UInt8

def Attribute.der (a : Attribute) : Der :=
  .sequence [oid a.type, .primitive a.kind.tag a.value]

/-- `pkix.RDNSequence` -/
abbrev Name := List (List Attribute)

def nameDer (name : Name) : Der := .sequence (name.map fun rdn => .set (rdn.map Attribute.der))

/-- `isPrintable`, with an asterisk and an ampersand refused. -/
def isPrintable (b : UInt8) : Bool :=
  let n := b.toNat
  (97 ≤ n && n ≤ 122) || (65 ≤ n && n ≤ 90) || (48 ≤ n && n ≤ 57) || (39 ≤ n && n ≤ 41) ||
    (43 ≤ n && n ≤ 47) || n = 32 || n = 58 || n = 61 || n = 63

/-- The kind of string that is written for some bytes. -/
def stringKind (value : List UInt8) : StringKind :=
  if value.all isPrintable then .printable else .utf8

/-- The attribute that is written for a text. -/
def textAttribute (type : ObjectIdentifier) (value : String) : Attribute :=
  ⟨type, stringKind (utf8 value), utf8 value⟩

/-- An algorithm without parameters of its own. -/
def algorithm (o : ObjectIdentifier) : Der := .sequence [oid o, .null]

/-- An object identifier below `1.2.840.113549.1.1`. -/
def pkcs1 (n : ℕ) : ObjectIdentifier :=
  ⟨1, 2, [840, 113549, 1, 1, n], Nat.le_succ 1, fun _ => Nat.le_of_ble_eq_true rfl⟩

def oidRsaEncryption : ObjectIdentifier := pkcs1 1

def oidSha256WithRSA : ObjectIdentifier := pkcs1 11

/-- An object identifier below `1.3.6.1.5.5.7`. -/
def pkix (arcs : List ℕ) : ObjectIdentifier :=
  ⟨1, 3, 6 :: 1 :: 5 :: 5 :: 7 :: arcs, Nat.le_succ 1, fun _ => Nat.le_of_ble_eq_true rfl⟩

theorem joint_le : 2 ≤ 2 := Nat.le_refl 2

/-- Below the last arc the second number has no bound. -/
theorem joint_lt (h : 2 < 2) : 5 < 40 := absurd h (Nat.lt_irrefl 2)

/-- An object identifier below `2.5`. -/
def directory (arcs : List ℕ) : ObjectIdentifier :=
  ⟨2, 5, arcs, joint_le, joint_lt⟩

/-- The type of an attribute. -/
def oidAttribute (n : ℕ) : ObjectIdentifier := directory [4, n]

/-- The id of an extension. -/
def oidExtension (n : ℕ) : ObjectIdentifier := directory [29, n]

def oidSubjectAltName : ObjectIdentifier := oidExtension 17

/-- `pkix.Name` with one country and one organization. -/
structure Subject where
  country : String
  organization : String
  commonName : String

/-- `Name.ToRDNSequence` -/
def Subject.toRDNSequence (subject : Subject) : Name :=
  [textAttribute (oidAttribute 6) subject.country] ::
    [textAttribute (oidAttribute 10) subject.organization] ::
      if subject.commonName = "" then [] else [[textAttribute (oidAttribute 3) subject.commonName]]

/-! ## Times -/

/-- A time as it is written, with two or with four digits of its year. -/
structure TimeText where
  generalized : Bool
  text : List UInt8

def TimeText.der (t : TimeText) : Der := .primitive (if t.generalized then 0x18 else 0x17) t.text

/-- The text of a time, if its year can be written. -/
def timeText (t : Time) : Except String TimeText :=
  let (year, month, dayOfMonth) := civil t.unixDay
  let second := t.secOfDay
  let rest := padded 2 month.toNat ++ padded 2 dayOfMonth.toNat ++ padded 2 (second / 3600) ++
    padded 2 (second / 60 % 60) ++ padded 2 (second % 60) ++ "Z"
  if 1950 ≤ year ∧ year < 2050 then
    return ⟨false, utf8 (padded 2 (year % 100).toNat ++ rest)⟩
  else if 0 ≤ year ∧ year ≤ 9999 then return ⟨true, utf8 (padded 4 year.toNat ++ rest)⟩
  else throw "cannot represent time as GeneralizedTime"

/-! ## Extensions -/

/-- `pkix.Extension` -/
structure Extension where
  id : ObjectIdentifier
  critical : Bool
  value : Der

def Extension.der (e : Extension) : Der :=
  .sequence (oid e.id :: (if e.critical then [.boolean true] else []) ++
    [.octetString e.value.encode])

/-- What is asked for. -/
structure Template where
  serialNumber : ℕ
  subject : Subject
  notBefore : Time
  notAfter : Time
  /-- The bits as they are written, the number of those left over in front. -/
  keyUsage : List UInt8
  extKeyUsage : List ObjectIdentifier
  subjectKeyId : List UInt8
  authorityKeyId : List UInt8
  emailAddresses : List String
  uris : List String
  crlDistributionPoints : List String
  ocspServer : List String

/-- A text of ASCII characters. -/
def ia5String (s : String) : Except String (List UInt8) :=
  if s.toList.all (·.toNat < 128) then return utf8 s
  else throw ("x509: " ++ s ++ " cannot be encoded as an IA5String")

/-- `marshalSANs` -/
def marshalSANs (emailAddresses uris : List String) : Except String Der := do
  let emails ← emailAddresses.mapM ia5String
  let uris ← uris.mapM ia5String
  return .sequence (emails.map (.implicit 1) ++ uris.map (.implicit 6))

/-- An extension, unless what it is about is left out. -/
def extension {α : Type} [DecidableEq α] (n : ℕ) (critical : Bool) (about : List α)
    (value : Der) : List Extension :=
  if about = [] then [] else [⟨oidExtension n, critical, value⟩]

/-- The extensions in front of the names, of a certificate that is not one of an authority. -/
def extensionsBefore (template : Template) (authorityKeyId : List UInt8) : List Extension :=
  extension 15 true template.keyUsage (.primitive 0x03 template.keyUsage) ++
    extension 37 false template.extKeyUsage (.sequence (template.extKeyUsage.map oid)) ++
      [⟨oidExtension 19, true, .sequence []⟩] ++
        extension 14 false template.subjectKeyId (.octetString template.subjectKeyId) ++
          extension 35 false authorityKeyId (.sequence [.implicit 0 authorityKeyId]) ++
            if template.ocspServer = [] then []
            else [⟨pkix [1, 1], false, .sequence (template.ocspServer.map fun name =>
              .sequence [oid (pkix [48, 1]), .implicit 6 (utf8 name)])⟩]

/-- The extension with the names. -/
def subjectAltName (template : Template) : Except String (List Extension) :=
  if template.emailAddresses = [] ∧ template.uris = [] then return []
  else do
    let names ← marshalSANs template.emailAddresses template.uris
    return [⟨oidSubjectAltName, template.subject.toRDNSequence = [], names⟩]

/-- The extensions behind the names. -/
def extensionsAfter (template : Template) : List Extension :=
  extension 31 false template.crlDistributionPoints
    (.sequence (template.crlDistributionPoints.map fun name =>
      .sequence [.explicit 0 [.explicit 0 [.implicit 6 (utf8 name)]]]))

/-- `buildCertExtensions` -/
def buildCertExtensions (template : Template) (authorityKeyId : List UInt8) :
    Except String (List Extension) := do
  let names ← subjectAltName template
  return extensionsBefore template authorityKeyId ++ names ++ extensionsAfter template

/-! ## Certificates -/

/-- What is signed. -/
structure TbsCertificate where
  serialNumber : ℕ
  issuer : Name
  notBefore : TimeText
  notAfter : TimeText
  subject : Name
  /-- The bytes of the key. -/
  publicKey : List UInt8
  extensions : List Extension

def TbsCertificate.der (tbs : TbsCertificate) : Der :=
  .sequence ([.explicit 0 [.integer 2], .integer tbs.serialNumber, algorithm oidSha256WithRSA,
    nameDer tbs.issuer, .sequence [tbs.notBefore.der, tbs.notAfter.der], nameDer tbs.subject,
    .sequence [algorithm oidRsaEncryption, .bitString tbs.publicKey]] ++
      (if tbs.extensions = [] then []
        else [.explicit 3 [.sequence (tbs.extensions.map Extension.der)]]))

/-- A certificate with its signature. -/
def certificateDer (tbs : TbsCertificate) (signature : List UInt8) : Der :=
  .sequence [tbs.der, algorithm oidSha256WithRSA, .bitString signature]

/-- The authority that signs. -/
structure Parent where
  subject : Name
  subjectKeyId : List UInt8
  sign : List UInt8 → List UInt8

/-- What `CreateCertificate` signs. -/
def tbsCertificate (template : Template) (parent : Parent) (publicKey : List UInt8) :
    Except String TbsCertificate := do
  let subject := template.subject.toRDNSequence
  let authorityKeyId := if (nameDer parent.subject).encode ≠ (nameDer subject).encode ∧
    parent.subjectKeyId ≠ [] then parent.subjectKeyId else template.authorityKeyId
  let extensions ← buildCertExtensions template authorityKeyId
  let notBefore ← timeText template.notBefore
  let notAfter ← timeText template.notAfter
  return { serialNumber := template.serialNumber, issuer := parent.subject, notBefore, notAfter,
           subject, publicKey, extensions }

/-- `x509.CreateCertificate` -/
def createCertificate (template : Template) (parent : Parent) (publicKey : List UInt8) :
    Except String (List UInt8) := do
  let tbs ← tbsCertificate template parent publicKey
  return (certificateDer tbs (parent.sign tbs.der.encode)).encode

end X509
