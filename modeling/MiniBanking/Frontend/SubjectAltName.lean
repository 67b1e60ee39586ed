import MiniBanking.Asn1.Tree
import MiniBanking.Frontend.CertParser
import Mathlib.Data.List.Forall2

/-!
# The alternative names of a certificate

The login looks for an extension in all the elements of a certificate, and reads the names of its
owner from it. On the bytes of a tree, the search finds what stands first in the tree.

## Main definitions

* `CertParser.findExtensionValue`: the search for an extension
* `CertParser.parseSubjectAltName`: the alternative names
* `CertParser.valueIn`: the value of an extension that is looked for, in a tree

## Main results

* `readChildren_encodeAll`: values are read as the elements they were written as
* `findExtensionValue_encodeAll`: the search finds what stands first in the tree
-/

namespace Frontend

open Asn1 Js

namespace CertParser

/-! ## The search for an extension -/

def tagOctetString : UInt8 := 0x04

/-- `isConstructed` -/
def isConstructed (tag : UInt8) : Bool := tag &&& 0x20 ≠ 0

/-- The value of an element, if it is the extension that is looked for. -/
def ownValue (oid : List UInt8) (node : Tlv) : Except Failure (Option (List UInt8)) :=
  if node.tag = tagSequence then do
    match ← readChildren node.content with
    | first :: second :: rest =>
      if first.tag = tagOid ∧ first.content = oid then
        return ((first :: second :: rest).find? (·.tag = tagOctetString)).map (·.content)
      else return none
    | _ => return none
  else return none

/-- The search from an offset on. Every element has two bytes at least, and its content is shorter,
so that as many rounds as there are bytes are enough. -/
def findFrom (oid : List UInt8) : (rounds : ℕ) → (bytes : List UInt8) → (off : ℕ) →
    Except Failure (Option (List UInt8))
  | 0, _, _ => return none
  | rounds + 1, bytes, off =>
    if off < bytes.length then do
      let node ← readTlv bytes off
      match ← ownValue oid node with
      | some value => return some value
      | none =>
        match ← (if isConstructed node.tag then findFrom oid rounds node.content 0
          else .ok none) with
        | some value => return some value
        | none => findFrom oid rounds bytes node.stop
    else return none

/-- `findExtensionValue` -/
def findExtensionValue (bytes oid : List UInt8) : Except Failure (Option (List UInt8)) :=
  findFrom oid bytes.length bytes 0

/-! ## The alternative names -/

/-- `SAN_OID` -/
def sanOid : List UInt8 := [0x55, 0x1D, 0x11]

/-- The `subjectAltName` of a certificate. -/
structure SubjectAltName where
  emails : List String := []
  dnsNames : List String := []
  uris : List String := []
  ipAddresses : List String := []

/-- The names of an extension, by their kinds. -/
def SubjectAltName.ofNames (names : List Tlv) : SubjectAltName :=
  let texts (tag : UInt8) := (names.filter (·.tag = tag)).map fun name => textDecode name.content
  { emails := texts 0x81
    dnsNames := texts 0x82
    uris := texts 0x86
    ipAddresses := (names.filter (·.tag = 0x87)).map fun name =>
      ".".intercalate (name.content.map fun b => toString b.toNat) }

/-- `parseSubjectAltName` -/
def parseSubjectAltName (der : List UInt8) : Except Failure SubjectAltName := do
  match ← findExtensionValue der sanOid with
  | none => return {}
  | some extension =>
    let sequence ← requireTag (← readTlv extension 0) tagSequence "SubjectAltName"
    return .ofNames (← readChildren sequence.content)

/-! ## Reading the values of a tree -/

/-- An element is a value. -/
structure Tlv.Reads (node : Tlv) (value : Der) : Prop where
  tag : node.tag = value.tag
  content : node.content = value.content

/-- The element that a value is written as. -/
def nodeOf (value : Der) : Tlv := ⟨value.tag, value.content, value.encode.length⟩

theorem isElement_encode {value : Der} (h : value.encode.length < 2 ^ 32) :
    IsElement value.encode (nodeOf value) := by
  have hlength := value.length_content_lt
  have hread := readTlv_element value.tag (show value.content.length < 2 ^ 32 by omega) []
  rw [List.append_nil, ← value.encode_eq] at hread
  exact ⟨hread, rfl⟩

theorem placed_reads (off : ℕ) (values : List Der) :
    List.Forall₂ Tlv.Reads (placed off (values.map nodeOf)) values := by
  induction values generalizing off with
  | nil => exact .nil
  | cons value values ih => exact .cons ⟨rfl, rfl⟩ (ih _)

theorem length_encode_le {value : Der} {values : List Der} (h : value ∈ values) :
    value.encode.length ≤ (encodeAll values).length := by
  obtain ⟨before, after, rfl⟩ := List.append_of_mem h
  rw [Der.encodeAll_eq, List.map_append, List.map_cons, List.flatten_append, List.flatten_cons,
    List.length_append, List.length_append]
  omega

/-- **Values are read** as the elements they were written as. -/
theorem readChildren_encodeAll {values : List Der} (h : (encodeAll values).length < 2 ^ 32) :
    ∃ nodes, readChildren (encodeAll values) = .ok nodes ∧
      List.Forall₂ Tlv.Reads nodes values := by
  refine ⟨placed 0 (values.map nodeOf), ?_, placed_reads 0 values⟩
  rw [Der.encodeAll_eq]
  refine readChildren_items ?_
  rw [List.forall₂_map_left_iff, List.forall₂_map_right_iff, List.forall₂_same]
  intro value hvalue
  exact isElement_encode (Nat.lt_of_le_of_lt (length_encode_le hvalue) h)

/-! ## The search in a tree -/

/-- The value of an extension, if it is the one that is looked for. -/
def valueIn (oid : List UInt8) : Der → Option (List UInt8)
  | .constructed tag (first :: second :: rest) =>
    if (tag ||| 0x20) = tagSequence ∧ first.tag = tagOid ∧ first.content = oid then
      ((first :: second :: rest).find? (·.tag = tagOctetString)).map (·.content)
    else none
  | _ => none

theorem find?_reads {nodes : List Tlv} {values : List Der}
    (h : List.Forall₂ Tlv.Reads nodes values) (tag : UInt8) :
    (nodes.find? (·.tag = tag)).map (·.content) = (values.find? (·.tag = tag)).map (·.content) := by
  induction h with
  | nil => rfl
  | @cons node value nodes values hnode _ ih =>
    rw [List.find?_cons, List.find?_cons, hnode.tag]
    split
    · rw [Option.map_some, Option.map_some, hnode.content]
    · exact ih

/-- What an element says of itself is what the value says that it was written as. -/
theorem ownValue_reads {node : Tlv} {value : Der} (hnode : node.Reads value)
    (hlength : value.encode.length < 2 ^ 32) (oid : List UInt8) :
    ownValue oid node = .ok (valueIn oid value) := by
  have hcontent := value.length_content_lt
  cases value with
  | primitive tag content =>
    have htag : node.tag ≠ tagSequence := by
      intro heq
      have hbit := Der.tag_primitive_and tag content
      rw [← hnode.tag, heq] at hbit
      exact absurd hbit (by decide)
    exact if_neg htag
  | constructed tag children =>
    obtain ⟨nodes, hread, hnodes⟩ := readChildren_encodeAll
      (show (encodeAll children).length < 2 ^ 32 from Nat.lt_trans (by
        show (Der.constructed tag children).content.length < _
        omega) hlength)
    unfold ownValue
    rw [hnode.tag, hnode.content]
    show (if (tag ||| 0x20) = tagSequence then _ else _) = _
    split
    · next htag =>
      refine bind_eq_ok.mpr ⟨nodes, hread, ?_⟩
      rcases hnodes with _ | ⟨hfirst, _ | ⟨hsecond, hrest⟩⟩
      · rfl
      · rfl
      · have hfind := find?_reads (.cons hfirst (.cons hsecond hrest)) tagOctetString
        simp only [valueIn, htag, true_and, hfirst.tag, hfirst.content, hfind]
        split <;> rfl
    · next htag =>
      rcases children with _ | ⟨first, _ | ⟨second, rest⟩⟩
      · rfl
      · rfl
      · exact congrArg Except.ok (if_neg fun h => htag h.1).symm

theorem isConstructed_reads {node : Tlv} {value : Der} (hnode : node.Reads value) :
    isConstructed node.tag = true ↔ ∃ tag children, value = .constructed tag children := by
  rw [isConstructed, decide_eq_true_iff, hnode.tag]
  cases value with
  | primitive tag content => simp [Der.tag_primitive_and tag content]
  | constructed tag children => simp [Der.tag_constructed_and tag children]

/-- The search from where some values begin on. -/
theorem findFrom_encodeAll (oid : List UInt8) {rounds : ℕ} {values : List Der}
    (hrounds : (encodeAll values).length ≤ rounds) (hlength : (encodeAll values).length < 2 ^ 32)
    (front : List UInt8) :
    findFrom oid rounds (front ++ encodeAll values) front.length =
      .ok (Der.searchAll (valueIn oid) values) := by
  induction rounds generalizing values front with
  | zero =>
    rcases values with _ | ⟨value, values⟩
    · rw [Der.searchAll_nil]
      rfl
    · have := value.length_content_lt
      rw [encodeAll, List.length_append] at hrounds
      omega
  | succ rounds ih =>
    rcases values with _ | ⟨value, values⟩
    · rw [Der.searchAll_nil, encodeAll, List.append_nil]
      exact if_neg (Nat.lt_irrefl _)
    rw [encodeAll, List.length_append] at hrounds hlength
    have hcontent := value.length_content_lt
    have helement := isElement_encode (show value.encode.length < 2 ^ 32 by omega)
    have hread : readTlv (front ++ (value.encode ++ encodeAll values)) front.length =
        .ok ((nodeOf value).moved front.length) := by
      rw [readTlv_append_left, readTlv_append_right helement.read]
      rfl
    have hreads : ((nodeOf value).moved front.length).Reads value := ⟨rfl, rfl⟩
    -- behind the value, and in it
    have hrest := @ih values (by omega) (by omega) (front ++ value.encode)
    rw [List.append_assoc, List.length_append] at hrest
    have hin : (if isConstructed ((nodeOf value).moved front.length).tag then
        findFrom oid rounds ((nodeOf value).moved front.length).content 0 else .ok none) =
          Except.ok (Der.searchInside (valueIn oid) value) := by
      rcases value with ⟨tag, content⟩ | ⟨tag, children⟩
      · refine if_neg fun h => ?_
        obtain ⟨_, _, h⟩ := (isConstructed_reads hreads).mp h
        cases h
      · have hchildren : (encodeAll children).length + 2 ≤ _ := hcontent
        have hall := @ih children (by omega) (by omega) []
        rw [List.nil_append] at hall
        exact (if_pos ((isConstructed_reads hreads).mpr ⟨tag, children, rfl⟩)).trans hall
    rw [encodeAll, findFrom, if_pos (by simp only [List.length_append]; omega), Der.searchAll_cons,
      Der.search_eq]
    refine bind_eq_ok.mpr ⟨_, hread, bind_eq_ok.mpr ⟨_, ownValue_reads hreads (by omega) oid, ?_⟩⟩
    cases valueIn oid value with
    | some found => rfl
    | none =>
      refine bind_eq_ok.mpr ⟨_, hin, ?_⟩
      cases Der.searchInside (valueIn oid) value with
      | some found => rfl
      | none => exact hrest

/-- **The search finds what stands first in the tree.** -/
theorem findExtensionValue_encodeAll (oid : List UInt8) {values : List Der}
    (h : (encodeAll values).length < 2 ^ 32) :
    findExtensionValue (encodeAll values) oid = .ok (Der.searchAll (valueIn oid) values) :=
  findFrom_encodeAll oid (Nat.le_refl _) h []

end CertParser

end Frontend
