import MiniBanking.Asn1.Der
import MiniBanking.Frontend.ChainVerify

/-!
# The certificate parser of the login

A second reader of DER, which the login uses to show a certificate and to find its owner. Its
elements carry their content instead of offsets.

## Main definitions

* `CertParser.readTlv`, `CertParser.readChildren`: elements of DER, and the elements inside one
* `CertParser.decodeOid`: the dotted name of an object identifier

## Main results

* `readTlv_element`: an element is read back, whatever follows it
* `readChildren_items`: the elements inside an element are read back
-/

namespace Frontend

open Asn1 Js

namespace CertParser

/-! ## Elements -/

/-- An element: its tag, its content and the offset behind it. -/
structure Tlv where
  tag : UInt8
  content : List UInt8
  stop : ℕ
  deriving DecidableEq

/-- `readTlv` -/
def readTlv (buf : List UInt8) (off : ℕ) : Except Failure Tlv :=
  match buf.drop off with
  | tag :: len :: _ =>
    if len &&& 0x80 ≠ 0 then do
      let numBytes := (len &&& 0x7F).toNat
      check (¬ (numBytes = 0 ∨ 4 < numBytes ∨ buf.length < off + 2 + numBytes))
        "Độ dài ASN.1 không hợp lệ"
      element tag (off + 2 + numBytes)
        (longLength (subarray buf (off + 2) (off + 2 + numBytes)))
    else element tag (off + 2) len.toNat
  | _ => fail "Certificate DER bị cắt ngắn"
where
  /-- The element with a content. -/
  element (tag : UInt8) (i len : ℕ) : Except Failure Tlv := do
    check (i + len ≤ buf.length) "Nội dung ASN.1 vượt quá certificate"
    return ⟨tag, subarray buf i (i + len), i + len⟩

/-- The elements from an offset on. Every element has two bytes at least, so that as many rounds
as there are bytes are enough. -/
def childrenFrom (content : List UInt8) : (rounds off : ℕ) → Except Failure (List Tlv)
  | 0, _ => return []
  | rounds + 1, off =>
    if off < content.length then do
      let node ← readTlv content off
      check (off < node.stop) "Cấu trúc ASN.1 không hợp lệ"
      return node :: (← childrenFrom content rounds node.stop)
    else return []

/-- `readChildren` -/
def readChildren (content : List UInt8) : Except Failure (List Tlv) :=
  childrenFrom content content.length 0

/-- `requireTag` -/
def requireTag (node : Tlv) (tag : UInt8) (label : String) : Except Failure Tlv := do
  check (node.tag = tag) (label ++ " không đúng định dạng ASN.1")
  return node

/-! ## Object identifiers -/

/-- `decodeOid` -/
def decodeOid (w : Platform) : List UInt8 → Except Failure String
  | [] => fail "OID rỗng"
  | first :: bytes => do
    let parts := min 2 (first.toNat / 40) ::
      (if first < 80 then first.toNat % 40 else first.toNat - 80) :: oidArcs 0 bytes
    check ((first :: bytes).getLast? |>.all fun b => b &&& 0x80 = 0) "OID bị cắt ngắn"
    return String.intercalate "." (parts.map (numberText w.largeNumber))

/-! ## Reading what was written -/

/-- What is read of the bytes after an offset does not depend on the bytes in front of it. -/
theorem subarray_append_left (front back : List UInt8) (i j : ℕ) :
    subarray (front ++ back) (front.length + i) (front.length + j) = subarray back i j := by
  rw [subarray, subarray, List.take_length_add_append, List.drop_length_add_append]

/-- An element that is moved to an offset. -/
def Tlv.moved (off : ℕ) (node : Tlv) : Tlv := ⟨node.tag, node.content, off + node.stop⟩

theorem check_congr {c c' : Prop} [Decidable c] [Decidable c'] (h : c ↔ c') (message : String) :
    check c message = check c' message := by
  unfold check
  by_cases hc : c
  · rw [if_pos hc, if_pos (h.mp hc)]
  · rw [if_neg hc, if_neg (mt h.mpr hc)]

theorem element_append_left (front buf : List UInt8) (tag : UInt8) (i len : ℕ) :
    readTlv.element (front ++ buf) tag (front.length + i) len =
      (readTlv.element buf tag i len).map (Tlv.moved front.length) := by
  unfold readTlv.element
  have hcheck : front.length + i + len ≤ (front ++ buf).length ↔ i + len ≤ buf.length := by
    rw [List.length_append]
    omega
  rw [check_congr hcheck, Nat.add_assoc, subarray_append_left]
  cases check (i + len ≤ buf.length) "Nội dung ASN.1 vượt quá certificate" <;> rfl

/-- **What is read at an offset** does not depend on the bytes in front of it. -/
theorem readTlv_append_left (front buf : List UInt8) :
    readTlv (front ++ buf) front.length = (readTlv buf 0).map (Tlv.moved front.length) := by
  unfold readTlv
  rw [List.drop_left, List.drop_zero]
  split
  · next tag len rest =>
    split
    · have hcheck : (¬ ((len &&& 0x7F).toNat = 0 ∨ 4 < (len &&& 0x7F).toNat ∨
          (front ++ (tag :: len :: rest)).length < front.length + 2 + (len &&& 0x7F).toNat)) ↔
          ¬ ((len &&& 0x7F).toNat = 0 ∨ 4 < (len &&& 0x7F).toNat ∨
            (tag :: len :: rest).length < 0 + 2 + (len &&& 0x7F).toNat) := by
        rw [List.length_append]
        omega
      simp only [check_congr hcheck]
      cases check (¬ ((len &&& 0x7F).toNat = 0 ∨ 4 < (len &&& 0x7F).toNat ∨
        (tag :: len :: rest).length < 0 + 2 + (len &&& 0x7F).toNat))
        "Độ dài ASN.1 không hợp lệ" with
      | error e => rfl
      | ok _ =>
        have hlength := subarray_append_left front (tag :: len :: rest) 2
          (2 + (len &&& 0x7F).toNat)
        rw [← Nat.add_assoc] at hlength
        show readTlv.element _ tag _ (longLength (subarray _ _ _)) = _
        rw [hlength, Nat.add_assoc, Nat.zero_add]
        exact element_append_left front _ tag _ _
    · exact element_append_left front _ tag 2 _
  · rfl

theorem element_ok {buf : List UInt8} {tag : UInt8} {i len : ℕ} {node : Tlv} :
    readTlv.element buf tag i len = .ok node ↔
      i + len ≤ buf.length ∧ node = ⟨tag, subarray buf i (i + len), i + len⟩ := by
  unfold readTlv.element
  constructor
  · intro h
    obtain ⟨_, hcheck, h⟩ := bind_eq_ok.mp h
    cases h
    exact ⟨check_eq_ok.mp hcheck, rfl⟩
  · rintro ⟨hle, rfl⟩
    exact bind_eq_ok.mpr ⟨(), check_eq_ok.mpr hle, rfl⟩

/-- An element has a tag and a length at least. -/
theorem lt_stop {buf : List UInt8} {off : ℕ} {node : Tlv} (h : readTlv buf off = .ok node) :
    off + 2 ≤ node.stop := by
  unfold readTlv at h
  split at h
  · split at h
    · obtain ⟨_, -, h⟩ := bind_eq_ok.mp h
      obtain ⟨-, rfl⟩ := element_ok.mp h
      show off + 2 ≤ off + 2 + _ + _
      omega
    · obtain ⟨-, rfl⟩ := element_ok.mp h
      show off + 2 ≤ off + 2 + _
      omega
  · cases h

theorem subarray_append_right {front : List UInt8} (rest : List UInt8) {j : ℕ}
    (h : j ≤ front.length) (i : ℕ) : subarray (front ++ rest) i j = subarray front i j := by
  rw [subarray, subarray, List.take_append_of_le_length h]

theorem element_append_right {buf : List UInt8} {tag : UInt8} {i len : ℕ} {node : Tlv}
    (h : readTlv.element buf tag i len = .ok node) (rest : List UInt8) :
    readTlv.element (buf ++ rest) tag i len = .ok node := by
  obtain ⟨hle, rfl⟩ := element_ok.mp h
  refine element_ok.mpr ⟨?_, ?_⟩
  · rw [List.length_append]
    omega
  · rw [subarray_append_right rest hle]

/-- **What is read of some bytes** is read of them with more bytes behind. -/
theorem readTlv_append_right {buf : List UInt8} {node : Tlv} (h : readTlv buf 0 = .ok node)
    (rest : List UInt8) : readTlv (buf ++ rest) 0 = .ok node := by
  rcases buf with _ | ⟨tag, _ | ⟨len, tail⟩⟩
  · cases h
  · cases h
  unfold readTlv at h ⊢
  simp only [List.drop_zero, List.cons_append] at h ⊢
  split at h
  · next hlong =>
    rw [if_pos hlong]
    obtain ⟨_, hcheck, h⟩ := bind_eq_ok.mp h
    have hcheck := check_eq_ok.mp hcheck
    refine bind_eq_ok.mpr ⟨(), check_eq_ok.mpr ?_, ?_⟩
    · rw [← List.cons_append, ← List.cons_append, List.length_append]
      omega
    · rw [← List.cons_append, ← List.cons_append, subarray_append_right rest (by omega)]
      exact element_append_right h rest
  · next hshort =>
    rw [if_neg hshort]
    exact element_append_right h rest

theorem subarray_content (front content : List UInt8) :
    subarray (front ++ content) front.length (front.length + content.length) = content := by
  rw [subarray, ← List.length_append, List.take_length, List.drop_left]

/-- **An element is read back**, whatever follows it. -/
theorem readTlv_element (tag : UInt8) {content : List UInt8} (h : content.length < 2 ^ 32)
    (rest : List UInt8) :
    readTlv (element tag content ++ rest) 0 =
      .ok ⟨tag, content, (element tag content).length⟩ := by
  refine readTlv_append_right ?_ rest
  by_cases hshort : content.length < 128
  · have hbyte : (UInt8.ofNat content.length).toNat = content.length := by
      rw [UInt8.toNat_ofNat']
      omega
    have hbit : ¬ (UInt8.ofNat content.length &&& 0x80 ≠ 0) := by
      rw [not_not, and_128_eq_zero, hbyte]
      exact hshort
    rw [element_of_lt tag hshort]
    unfold readTlv
    simp only [List.drop_zero, if_neg hbit, hbyte]
    refine element_ok.mpr ⟨?_, ?_⟩
    · simp only [List.length_cons]
      omega
    · have hcontent := subarray_content [tag, UInt8.ofNat content.length] content
      refine (Tlv.mk.injEq ..).mpr ⟨rfl, hcontent.symm, ?_⟩
      simp only [List.length_cons]
      omega
  · have hcount : (base256 content.length).length ≤ 4 := length_base256_le h
    have hne : (base256 content.length).length ≠ 0 := by
      rw [Ne, List.length_eq_zero_iff]
      exact base256_ne_nil (by omega)
    have hbyte : (UInt8.ofNat (128 + (base256 content.length).length)).toNat =
        128 + (base256 content.length).length := by
      rw [UInt8.toNat_ofNat']
      omega
    have hbit : UInt8.ofNat (128 + (base256 content.length).length) &&& 0x80 ≠ 0 := by
      rw [Ne, and_128_eq_zero, hbyte]
      omega
    have hnum : (UInt8.ofNat (128 + (base256 content.length).length) &&& 0x7F).toNat =
        (base256 content.length).length := by
      rw [toNat_and_127, hbyte]
      omega
    rw [element_of_le tag (by omega)]
    generalize hbytes : base256 content.length = bytes at hcount hne hbit hnum
    have hlength : longLength bytes = content.length := by
      rw [← hbytes]
      exact foldl_base256 content.length
    have hsub : subarray (tag :: UInt8.ofNat (128 + bytes.length) :: (bytes ++ content)) (0 + 2)
        (0 + 2 + bytes.length) = bytes := by
      have hright := @subarray_append_right (tag :: UInt8.ofNat (128 + bytes.length) :: bytes)
        content (0 + 2 + bytes.length) (by simp only [List.length_cons]; omega) (0 + 2)
      exact hright.trans (subarray_content [tag, UInt8.ofNat (128 + bytes.length)] bytes)
    have hcontent := subarray_content
      (tag :: UInt8.ofNat (128 + bytes.length) :: bytes) content
    unfold readTlv
    simp only [List.drop_zero, if_pos hbit, hnum]
    refine bind_eq_ok.mpr ⟨(), check_eq_ok.mpr ?_, ?_⟩
    · simp only [List.length_cons, List.length_append]
      omega
    · rw [hsub, hlength]
      have hstart : (tag :: UInt8.ofNat (128 + bytes.length) :: bytes).length =
          0 + 2 + bytes.length := by
        simp only [List.length_cons]
        omega
      rw [hstart] at hcontent
      refine element_ok.mpr ⟨?_, (Tlv.mk.injEq ..).mpr ⟨rfl, hcontent.symm, ?_⟩⟩
      all_goals
        simp only [List.length_cons, List.length_append]
        omega

/-! ## The elements inside an element -/

/-- Some bytes are one element. -/
structure IsElement (bytes : List UInt8) (node : Tlv) : Prop where
  read : readTlv bytes 0 = .ok node
  whole : node.stop = bytes.length

/-- Elements that stand one after the other from an offset on. -/
def placed : ℕ → List Tlv → List Tlv
  | _, [] => []
  | off, node :: nodes => node.moved off :: placed (off + node.stop) nodes

theorem childrenFrom_items {items : List (List UInt8)} {nodes : List Tlv}
    (h : List.Forall₂ IsElement items nodes) (front : List UInt8) {rounds : ℕ}
    (hrounds : items.flatten.length ≤ rounds) :
    childrenFrom (front ++ items.flatten) rounds front.length =
      .ok (placed front.length nodes) := by
  induction h generalizing front rounds with
  | nil =>
    cases rounds with
    | zero => rfl
    | succ rounds =>
      rw [List.flatten_nil, List.append_nil]
      exact if_neg (Nat.lt_irrefl _)
  | @cons item node items nodes hitem hitems ih =>
    obtain ⟨hread, hwhole⟩ := hitem
    have htwo := lt_stop hread
    rw [List.flatten_cons, List.length_append] at hrounds
    obtain ⟨rounds, rfl⟩ : ∃ n, rounds = n + 1 := ⟨rounds - 1, by omega⟩
    have hnode : readTlv (front ++ (item ++ items.flatten)) front.length =
        .ok (node.moved front.length) := by
      rw [readTlv_append_left, readTlv_append_right hread]
      rfl
    have hrest := @ih (front ++ item) rounds (by omega)
    rw [List.append_assoc, List.length_append, ← hwhole] at hrest
    rw [List.flatten_cons, childrenFrom, if_pos (by simp only [List.length_append]; omega)]
    refine bind_eq_ok.mpr ⟨_, hnode, bind_eq_ok.mpr ⟨(), check_eq_ok.mpr ?_, ?_⟩⟩
    · show front.length < front.length + node.stop
      omega
    · exact bind_eq_ok.mpr ⟨_, hrest, rfl⟩

/-- **The elements inside an element are read back**, in their order. -/
theorem readChildren_items {items : List (List UInt8)} {nodes : List Tlv}
    (h : List.Forall₂ IsElement items nodes) :
    readChildren items.flatten = .ok (placed 0 nodes) :=
  childrenFrom_items h [] (Nat.le_refl _)

end CertParser

end Frontend
