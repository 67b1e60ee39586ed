import MiniBanking.Frontend.CertParser

/-!
# The signed bytes of a certificate

Chain verification reads a certificate with offsets into all its bytes. The length of an element is
checked against the end of these bytes, not against the end of the element around it, so that what
is read of a certificate may lie behind the bytes that are signed. The parser of the login reads the
parts of an element from its content alone.

## Main definitions

* `Opened`: the elements of a certificate whose parts are read
* `Trusted`: the bytes that the names, the validity, the key and the flag of an authority are from
* `Nested`, `AllSigned`: every part lies within its element, and the trusted bytes are signed
* `Bounded`: the parts of every element can be read from its content alone

## Main results

* `readTlv_subarray`: an element within some bytes is what is read of these bytes alone
* `children_bounded`: the parts lie within an element exactly if they can be read from its content
* `opened_children`: a certificate is read only if the parts of all these elements are
* `trusted_bytes_signed_iff`: the trusted bytes are signed exactly if all is bounded
-/

namespace Frontend

open Js

/-! ## Elements at an offset -/

/-- The tag and the length that stand at an offset, and where the content begins. -/
inductive Header (buf : List UInt8) (off : ℕ) (tag : UInt8) : (contentStart len : ℕ) → Prop
  | short {b : UInt8} {tail : List UInt8} (hbytes : buf.drop off = tag :: b :: tail)
      (hbit : b &&& 0x80 = 0) : Header buf off tag (off + 2) b.toNat
  | long {b : UInt8} {tail : List UInt8} {n : ℕ} (hbytes : buf.drop off = tag :: b :: tail)
      (hbit : b &&& 0x80 ≠ 0) (hn : n = (b &&& 0x7F).toNat)
      (hlength : ¬ (n = 0 ∨ 4 < n ∨ buf.length < off + 2 + n)) :
      Header buf off tag (off + 2 + n) (longLength (subarray buf (off + 2) (off + 2 + n)))

section Header

variable {buf : List UInt8} {off start stop i j len : ℕ} {tag : UInt8}

theorem Header.le (h : Header buf off tag i len) : off + 2 ≤ i := by
  cases h with
  | short => exact Nat.le_refl _
  | long => exact Nat.le_add_right _ _

theorem readTlv_eq_ok {node : Tlv} : readTlv buf off = .ok node ↔
    ∃ tag i len, Header buf off tag i len ∧ i + len ≤ buf.length ∧
      node = ⟨tag, i, i + len, subarray buf off (i + len)⟩ := by
  constructor
  · intro h
    unfold readTlv at h
    split at h
    · next tag b tail hbytes =>
      split at h
      · next hbit =>
        obtain ⟨_, hlength, h⟩ := bind_eq_ok.mp h
        obtain ⟨_, hle, h⟩ := bind_eq_ok.mp h
        cases h
        exact ⟨tag, _, _, .long hbytes hbit rfl (check_eq_ok.mp hlength), check_eq_ok.mp hle, rfl⟩
      · next hbit =>
        obtain ⟨_, hle, h⟩ := bind_eq_ok.mp h
        cases h
        exact ⟨tag, _, _, .short hbytes (not_not.mp hbit), check_eq_ok.mp hle, rfl⟩
    · cases h
  · rintro ⟨tag, i, len, hheader, hle, rfl⟩
    cases hheader with
    | short hbytes hbit =>
      simp only [readTlv, hbytes, hbit, ne_eq, not_true_eq_false, if_false]
      exact bind_eq_ok.mpr ⟨(), check_eq_ok.mpr hle, rfl⟩
    | long hbytes hbit hn hlength =>
      subst hn
      simp only [readTlv, hbytes, ne_eq, hbit, not_false_eq_true, if_true]
      exact bind_eq_ok.mpr ⟨(), check_eq_ok.mpr hlength,
        bind_eq_ok.mpr ⟨(), check_eq_ok.mpr hle, rfl⟩⟩

theorem CertParser.readTlv_eq_ok {node : CertParser.Tlv} : CertParser.readTlv buf off = .ok node ↔
    ∃ tag i len, Header buf off tag i len ∧ i + len ≤ buf.length ∧
      node = ⟨tag, subarray buf i (i + len), i + len⟩ := by
  constructor
  · intro h
    unfold CertParser.readTlv at h
    split at h
    · next tag b tail hbytes =>
      split at h
      · next hbit =>
        obtain ⟨_, hlength, h⟩ := bind_eq_ok.mp h
        obtain ⟨hle, rfl⟩ := element_ok.mp h
        exact ⟨tag, _, _, .long hbytes hbit rfl (check_eq_ok.mp hlength), hle, rfl⟩
      · next hbit =>
        obtain ⟨hle, rfl⟩ := element_ok.mp h
        exact ⟨tag, _, _, .short hbytes (not_not.mp hbit), hle, rfl⟩
    · cases h
  · rintro ⟨tag, i, len, hheader, hle, rfl⟩
    cases hheader with
    | short hbytes hbit =>
      simp only [CertParser.readTlv, hbytes, hbit, ne_eq, not_true_eq_false, if_false]
      exact element_ok.mpr ⟨hle, rfl⟩
    | long hbytes hbit hn hlength =>
      subst hn
      simp only [CertParser.readTlv, hbytes, ne_eq, hbit, not_false_eq_true, if_true]
      exact bind_eq_ok.mpr ⟨(), check_eq_ok.mpr hlength, element_ok.mpr ⟨hle, rfl⟩⟩

variable {e o : ℕ}

theorem length_subarray (he : e ≤ buf.length) (s : ℕ) : (subarray buf s e).length = e - s := by
  rw [subarray, List.length_drop, List.length_take, Nat.min_eq_left he]

theorem subarray_subarray (s i j : ℕ) (h : s + j ≤ e) :
    subarray (subarray buf s e) i j = subarray buf (s + i) (s + j) := by
  rw [subarray, subarray, subarray, List.take_drop, List.take_take, Nat.min_eq_left h,
    List.drop_drop]

/-- A tag and a length that end within some bytes stand in these bytes alone. -/
theorem Header.subarray {s : ℕ} (h : Header buf (s + o) tag i len) (hi : i ≤ e)
    (he : e ≤ buf.length) : Header (subarray buf s e) o tag (i - s) len := by
  have hdrop : ∀ b tail, buf.drop (s + o) = tag :: b :: tail → s + o + 2 ≤ e →
      (Frontend.subarray buf s e).drop o = tag :: b :: tail.take (e - (s + o) - 2) := by
    intro b tail hbytes htwo
    obtain ⟨k, hk⟩ : ∃ k, e - (s + o) = k + 2 := ⟨e - (s + o) - 2, by omega⟩
    rw [Frontend.subarray, List.drop_drop, List.drop_take, hbytes, hk]
    rfl
  cases h with
  | short hbytes hbit =>
    rw [show s + o + 2 - s = o + 2 by omega]
    exact .short (hdrop _ _ hbytes hi) hbit
  | @long b tail n hbytes hbit hn hlength =>
    have hbits : Frontend.subarray buf (s + o + 2) (s + o + 2 + n) =
        Frontend.subarray (Frontend.subarray buf s e) (o + 2) (o + 2 + n) := by
      rw [subarray_subarray s _ _ (by omega), ← Nat.add_assoc, ← Nat.add_assoc, ← Nat.add_assoc]
    rw [show s + o + 2 + n - s = o + 2 + n by omega, hbits]
    refine .long (hdrop _ _ hbytes (by omega)) hbit hn ?_
    rw [length_subarray he]
    omega

theorem Header.of_subarray {s : ℕ} (h : Header (Frontend.subarray buf s e) o tag i len)
    (he : e ≤ buf.length) : Header buf (s + o) tag (s + i) len ∧ s + i ≤ e := by
  have hdrop : ∀ b tail, (Frontend.subarray buf s e).drop o = tag :: b :: tail →
      buf.drop (s + o) = tag :: b :: (tail ++ buf.drop e) ∧ s + o + 2 ≤ e := by
    intro b tail hbytes
    have hlength := congrArg List.length hbytes
    rw [List.length_drop, length_subarray he, List.length_cons, List.length_cons] at hlength
    rw [Frontend.subarray, List.drop_drop] at hbytes
    refine ⟨?_, by omega⟩
    conv_lhs => rw [← List.take_append_drop e buf]
    rw [List.drop_append_of_le_length (by rw [List.length_take]; omega), hbytes]
    rfl
  cases h with
  | short hbytes hbit =>
    obtain ⟨hbytes, htwo⟩ := hdrop _ _ hbytes
    exact ⟨.short hbytes hbit, htwo⟩
  | @long b tail n hbytes hbit hn hlength =>
    obtain ⟨hbytes, htwo⟩ := hdrop _ _ hbytes
    rw [length_subarray he] at hlength
    have hbits : Frontend.subarray (Frontend.subarray buf s e) (o + 2) (o + 2 + n) =
        Frontend.subarray buf (s + o + 2) (s + o + 2 + n) := by
      rw [subarray_subarray s _ _ (by omega), ← Nat.add_assoc, ← Nat.add_assoc, ← Nat.add_assoc]
    rw [hbits, show s + (o + 2 + n) = s + o + 2 + n by omega]
    exact ⟨.long hbytes hbit hn (by omega), by omega⟩

/-- **An element within some bytes** is what is read of these bytes alone. -/
theorem readTlv_subarray {s : ℕ} (hs : s ≤ e) (he : e ≤ buf.length) {node' : CertParser.Tlv} :
    CertParser.readTlv (subarray buf s e) o = .ok node' ↔
      ∃ node, readTlv buf (s + o) = .ok node ∧ node.stop ≤ e ∧
        node' = ⟨node.tag, subarray buf node.contentStart node.stop, node.stop - s⟩ := by
  constructor
  · intro h
    obtain ⟨tag, i, len, hheader, hle, rfl⟩ := CertParser.readTlv_eq_ok.mp h
    obtain ⟨hheader, hi⟩ := hheader.of_subarray he
    rw [length_subarray he] at hle
    refine ⟨_, readTlv_eq_ok.mpr ⟨tag, s + i, len, hheader, by omega, rfl⟩, ?_, ?_⟩
    · show s + i + len ≤ e
      omega
    · show _ = CertParser.Tlv.mk tag (subarray buf (s + i) (s + i + len)) (s + i + len - s)
      rw [subarray_subarray s _ _ (by omega), Nat.add_assoc, Nat.add_sub_cancel_left]
  · rintro ⟨node, h, hstop, rfl⟩
    obtain ⟨tag, i, len, hheader, hle, rfl⟩ := readTlv_eq_ok.mp h
    have hstop : i + len ≤ e := hstop
    have hi := hheader.le
    refine CertParser.readTlv_eq_ok.mpr
      ⟨tag, i - s, len, hheader.subarray (by omega) he, ?_, ?_⟩
    · rw [length_subarray he]
      omega
    · have hend : s + (i - s + len) = i + len := by omega
      show CertParser.Tlv.mk tag (subarray buf i (i + len)) (i + len - s) = _
      rw [subarray_subarray s _ _ (by omega), hend, show s + (i - s) = i by omega,
        show i + len - s = i - s + len by omega]

theorem childrenFrom_bounded {s rounds : ℕ} (hs : s ≤ e) (he : e ≤ buf.length) {nodes : List Tlv}
    (h : childrenFrom buf e rounds (s + o) = .ok nodes) :
    (∀ node ∈ nodes, node.stop ≤ e) ↔
      ∃ nodes', CertParser.childrenFrom (subarray buf s e) rounds o = .ok nodes' := by
  induction rounds generalizing o nodes with
  | zero =>
    cases h
    exact iff_of_true (by simp) ⟨[], rfl⟩
  | succ rounds ih =>
    have hlength : o < (subarray buf s e).length ↔ s + o < e := by
      rw [length_subarray he]
      omega
    simp only [childrenFrom, CertParser.childrenFrom, hlength] at h ⊢
    by_cases hlt : s + o < e
    swap
    · -- both loops are at their end
      rw [if_neg hlt] at h
      cases h
      exact iff_of_true (by simp) ⟨[], if_neg hlt⟩
    rw [if_pos hlt] at h ⊢
    obtain ⟨node, hnode, h⟩ := bind_eq_ok.mp h
    obtain ⟨_, hcheck, h⟩ := bind_eq_ok.mp h
    obtain ⟨nodes, hnodes, h⟩ := bind_eq_ok.mp h
    cases h
    have hgt : s + o < node.stop := check_eq_ok.mp hcheck
    -- the next element begins where this one ends, in both counts
    have hnext : node.stop = s + (node.stop - s) := by omega
    rw [hnext] at hnodes
    rw [List.forall_mem_cons, ih hnodes]
    constructor
    · rintro ⟨hstop, nodes', hnodes'⟩
      exact ⟨_, bind_eq_ok.mpr ⟨_, (readTlv_subarray hs he).mpr ⟨node, hnode, hstop, rfl⟩,
        bind_eq_ok.mpr ⟨(), check_eq_ok.mpr (by show o < node.stop - s; omega),
          bind_eq_ok.mpr ⟨nodes', hnodes', rfl⟩⟩⟩⟩
    · rintro ⟨_, h⟩
      obtain ⟨node', hnode', h⟩ := bind_eq_ok.mp h
      obtain ⟨_, -, h⟩ := bind_eq_ok.mp h
      obtain ⟨nodes', hnodes', -⟩ := bind_eq_ok.mp h
      obtain ⟨_, hsame, hstop, rfl⟩ := (readTlv_subarray hs he).mp hnode'
      obtain rfl := Except.ok.inj (hnode.symm.trans hsame)
      exact ⟨hstop, nodes', hnodes'⟩

end Header

/-! ## What is read of a certificate -/

/-- The offset of an element. -/
def Tlv.start (node : Tlv) : ℕ := node.stop - node.raw.length

/-- An element is read inside another one. -/
def PartOf (der : List UInt8) (parent node : Tlv) : Prop :=
  ∃ nodes, children der parent = .ok nodes ∧ node ∈ nodes

/-- An element lies within the content of another one. -/
structure Tlv.Within (node parent : Tlv) : Prop where
  start : parent.contentStart ≤ node.start
  stop : node.stop ≤ parent.stop

/-- The bytes that are signed. -/
def IsTbs (der : List UInt8) (tbs : Tlv) : Prop :=
  ∃ cert rest, readTlv der 0 = .ok cert ∧ children der cert = .ok (tbs :: rest)

/-- The fields from the issuer on. -/
def fieldsOf (kids : List Tlv) : List Tlv :=
  kids.drop (if (kids.head?.any fun version => version.tag = 0xa0) then 3 else 2)

/-- A field: the issuer, the validity, the subject and the key have the first four numbers. -/
def IsField (der : List UInt8) (i : ℕ) (node : Tlv) : Prop :=
  ∃ tbs kids, IsTbs der tbs ∧ children der tbs = .ok kids ∧ (fieldsOf kids)[i]? = some node

/-- The issuer or the subject. -/
def IsName (der : List UInt8) (name : Tlv) : Prop := IsField der 0 name ∨ IsField der 2 name

/-- The element around the extensions. -/
def IsExtensions (der : List UInt8) (node : Tlv) : Prop :=
  ∃ tbs kids, IsTbs der tbs ∧ children der tbs = .ok kids ∧
    ((fieldsOf kids).drop 4).find? (·.tag = tagExtensions) = some node

/-- The list of the extensions. -/
def IsExtensionList (der : List UInt8) (seq : Tlv) : Prop :=
  ∃ extensions rest, IsExtensions der extensions ∧ children der extensions = .ok (seq :: rest)

namespace Platform

variable (w : Platform) (der : List UInt8)

/-- An extension that is looked at: none before it decides whether the certificate is one of an
authority. -/
def IsExtension (ext : Tlv) : Prop :=
  ∃ seq before after, IsExtensionList der seq ∧ children der seq = .ok (before ++ ext :: after) ∧
    ∀ other ∈ before, w.basicConstraintsCA der other = .ok none

/-- The string of the extension about basic constraints, and the element read from it. -/
def IsConstraints (octet inner : Tlv) : Prop :=
  ∃ ext type second rest, w.IsExtension der ext ∧
    children der ext = .ok (type :: second :: rest) ∧ type.tag = tagOid ∧
    w.oidOf der type = .ok oidBasicConstraints ∧ octet = (second :: rest).getLastD type ∧
    readTlv der octet.contentStart = .ok inner

/-- The flag of an authority. -/
def IsFlag (flag : Tlv) : Prop :=
  ∃ octet inner rest, w.IsConstraints der octet inner ∧ inner.tag = tagSequence ∧
    children der inner = .ok (flag :: rest) ∧ flag.tag = tagBoolean

/-- The elements of a certificate whose parts are read. -/
inductive Opened : Tlv → Prop
  | cert {cert : Tlv} (h : readTlv der 0 = .ok cert) : Opened cert
  | algorithm {cert tbs sigAlg : Tlv} {rest : List Tlv} (h : readTlv der 0 = .ok cert)
      (hkids : children der cert = .ok (tbs :: sigAlg :: rest)) : Opened sigAlg
  | tbs {tbs : Tlv} (h : IsTbs der tbs) : Opened tbs
  | validity {node : Tlv} (h : IsField der 1 node) : Opened node
  | name {name : Tlv} (h : IsName der name) : Opened name
  | rdn {name rdn : Tlv} (h : IsName der name) (hrdn : PartOf der name rdn) : Opened rdn
  | atv {name rdn atv : Tlv} (h : IsName der name) (hrdn : PartOf der name rdn)
      (hatv : PartOf der rdn atv) : Opened atv
  | extensions {node : Tlv} (h : IsExtensions der node) : Opened node
  | extensionList {node : Tlv} (h : IsExtensionList der node) : Opened node
  | extension {ext : Tlv} (h : w.IsExtension der ext) : Opened ext
  | constraints {octet inner : Tlv} (h : w.IsConstraints der octet inner)
      (htag : inner.tag = tagSequence) : Opened inner

/-- The bytes, from an offset to another one, that the names, the validity, the key and the flag of
an authority are read from. -/
inductive Trusted : ℕ → ℕ → Prop
  | name {name rdn atv node : Tlv} (h : IsName der name) (hrdn : PartOf der name rdn)
      (hatv : PartOf der rdn atv) (hnode : PartOf der atv node) : Trusted node.start node.stop
  | time {validity node : Tlv} (h : IsField der 1 validity) (hnode : PartOf der validity node) :
      Trusted node.start node.stop
  | key {spki : Tlv} (h : IsField der 3 spki) : Trusted spki.start spki.stop
  | extension {ext node : Tlv} (h : w.IsExtension der ext) (hnode : PartOf der ext node) :
      Trusted node.start node.stop
  | constraints {octet inner : Tlv} (h : w.IsConstraints der octet inner) :
      Trusted inner.start inner.stop
  | flag {flag : Tlv} (h : w.IsFlag der flag) : Trusted flag.start (flag.contentStart + 1)

/-- Every element that is read inside another one lies within it. -/
structure Nested : Prop where
  part : ∀ parent node, w.Opened der parent → PartOf der parent node → node.Within parent
  constraints : ∀ octet inner, w.IsConstraints der octet inner → inner.Within octet

/-- The trusted bytes are all signed. -/
def AllSigned (tbs : Tlv) : Prop :=
  ∀ start stop, w.Trusted der start stop → tbs.start ≤ start ∧ stop ≤ tbs.stop

/-- The content of an element. -/
def content (node : Tlv) : List UInt8 := subarray der node.contentStart node.stop

/-- The parser of the login can read what is read of the elements from their contents, and a flag
without a content does not end the signed bytes. -/
structure Bounded : Prop where
  part : ∀ parent, w.Opened der parent →
    ∃ nodes, CertParser.readChildren (content der parent) = .ok nodes
  constraints : ∀ octet inner, w.IsConstraints der octet inner →
    ∃ node, CertParser.readTlv (content der octet) 0 = .ok node
  flag : ∀ tbs flag, IsTbs der tbs → w.IsFlag der flag →
    ¬ (flag.contentStart = flag.stop ∧ flag.stop = tbs.stop)

end Platform

/-! ## What is read of a certificate that is accepted -/

section Accepted

variable {w : Platform} {der : List UInt8}

theorem mapM_eq_ok {ε α β : Type} {f : α → Except ε β} {xs : List α} {ys : List β}
    (h : xs.mapM f = .ok ys) : ∀ x ∈ xs, ∃ y, f x = .ok y := by
  induction xs generalizing ys with
  | nil => exact fun x hx => absurd hx List.not_mem_nil
  | cons x xs ih =>
    rw [List.mapM_cons] at h
    obtain ⟨y, hy, h⟩ := bind_eq_ok.mp h
    obtain ⟨ys, hys, -⟩ := bind_eq_ok.mp h
    exact List.forall_mem_cons.mpr ⟨⟨y, hy⟩, ih hys⟩

/-- The parts of a name that is read are read, and theirs, and theirs again. -/
theorem attributes_eq_ok {name : Tlv} {pairs : List (String × String)}
    (h : w.attributes der name = .ok pairs) : ∃ rdns, children der name = .ok rdns ∧
      ∀ rdn ∈ rdns, ∃ atvs, children der rdn = .ok atvs ∧
        ∀ atv ∈ atvs, ∃ parts, children der atv = .ok parts := by
  unfold Platform.attributes at h
  obtain ⟨rdns, hrdns, h⟩ := bind_eq_ok.mp h
  obtain ⟨_, h, -⟩ := bind_eq_ok.mp h
  refine ⟨rdns, hrdns, fun rdn hrdn => ?_⟩
  obtain ⟨_, h⟩ := mapM_eq_ok h rdn hrdn
  obtain ⟨atvs, hatvs, h⟩ := bind_eq_ok.mp h
  refine ⟨atvs, hatvs, fun atv hatv => ?_⟩
  obtain ⟨_, h⟩ := mapM_eq_ok h atv hatv
  obtain ⟨parts, hparts, -⟩ := bind_eq_ok.mp h
  exact ⟨parts, hparts⟩

theorem parseName_eq_ok {name : Tlv} {names : String × String}
    (h : w.parseName der name = .ok names) : ∃ pairs, w.attributes der name = .ok pairs := by
  obtain ⟨pairs, hpairs, -⟩ := bind_eq_ok.mp h
  exact ⟨pairs, hpairs⟩

theorem firstConstraint_eq_ok {before after : List Tlv} {ext : Tlv} {isCA : Bool}
    (h : w.firstConstraint der (before ++ ext :: after) = .ok isCA)
    (hbefore : ∀ other ∈ before, w.basicConstraintsCA der other = .ok none) :
    ∃ result, w.basicConstraintsCA der ext = .ok result := by
  induction before with
  | nil =>
    obtain ⟨result, hresult, -⟩ := bind_eq_ok.mp h
    exact ⟨result, hresult⟩
  | cons other before ih =>
    -- the loop goes on behind an extension that does not decide
    obtain ⟨result, hresult, h⟩ := bind_eq_ok.mp h
    obtain rfl := Except.ok.inj ((hbefore other List.mem_cons_self).symm.trans hresult)
    exact ih h fun o ho => hbefore o (List.mem_cons_of_mem _ ho)

/-- What a certificate that is read consists of. -/
theorem parseCert_eq_ok {cert : ParsedCert} (h : w.parseCert der = .ok cert) :
    ∃ outer tbs sigAlg sigBit rest algorithm kids validity times issuer issuerNames subject
      subjectNames spki,
      readTlv der 0 = .ok outer ∧ children der outer = .ok (tbs :: sigAlg :: sigBit :: rest) ∧
      children der sigAlg = .ok algorithm ∧ children der tbs = .ok kids ∧
      (fieldsOf kids)[1]? = some validity ∧ children der validity = .ok times ∧
      (fieldsOf kids)[0]? = some issuer ∧ w.parseName der issuer = .ok issuerNames ∧
      (fieldsOf kids)[2]? = some subject ∧ w.parseName der subject = .ok subjectNames ∧
      (fieldsOf kids)[3]? = some spki ∧ cert.tbsRaw = tbs.raw ∧ cert.spkiRaw = spki.raw ∧
      cert.issuerName = issuerNames.2 ∧ cert.subjectName = subjectNames.2 ∧
      cert.subjectCN = subjectNames.1 ∧
      w.parseBasicConstraintsCA der
        (((fieldsOf kids).drop 4).find? (·.tag = tagExtensions)) = .ok cert.isCA := by
  unfold Platform.parseCert at h
  obtain ⟨outer, houter, h⟩ := bind_eq_ok.mp h
  obtain ⟨kids', hkids', h⟩ := bind_eq_ok.mp h
  rcases kids' with _ | ⟨tbs, _ | ⟨sigAlg, _ | ⟨sigBit, rest⟩⟩⟩
  iterate 3 cases h
  obtain ⟨algorithm, halgorithm, h⟩ := bind_eq_ok.mp h
  obtain ⟨_, -, h⟩ := bind_eq_ok.mp h
  obtain ⟨_, -, h⟩ := bind_eq_ok.mp h
  obtain ⟨kids, hkids, h⟩ := bind_eq_ok.mp h
  obtain ⟨version, hversion, h⟩ := bind_eq_ok.mp h
  have hfields : kids.drop (if version.tag = 0xa0 then 3 else 2) = fieldsOf kids := by
    rw [fieldsOf, attempt_eq_ok.mp hversion]
    simp
  rw [hfields] at h
  obtain ⟨validity, hvalidity, h⟩ := bind_eq_ok.mp h
  obtain ⟨times, htimes, h⟩ := bind_eq_ok.mp h
  obtain ⟨_, -, h⟩ := bind_eq_ok.mp h
  obtain ⟨_, -, h⟩ := bind_eq_ok.mp h
  obtain ⟨_, -, h⟩ := bind_eq_ok.mp h
  obtain ⟨_, -, h⟩ := bind_eq_ok.mp h
  obtain ⟨issuer, hissuer, h⟩ := bind_eq_ok.mp h
  obtain ⟨issuerNames, hissuerNames, h⟩ := bind_eq_ok.mp h
  obtain ⟨subject, hsubject, h⟩ := bind_eq_ok.mp h
  obtain ⟨subjectNames, hsubjectNames, h⟩ := bind_eq_ok.mp h
  obtain ⟨spki, hspki, h⟩ := bind_eq_ok.mp h
  obtain ⟨isCA, hisCA, h⟩ := bind_eq_ok.mp h
  cases h
  exact ⟨outer, tbs, sigAlg, sigBit, rest, algorithm, kids, validity, times, issuer, issuerNames,
    subject, subjectNames, spki, houter, hkids', halgorithm, hkids, attempt_eq_ok.mp hvalidity,
    htimes, attempt_eq_ok.mp hissuer, hissuerNames, attempt_eq_ok.mp hsubject, hsubjectNames,
    attempt_eq_ok.mp hspki, rfl, rfl, rfl, rfl, rfl, hisCA⟩

/-- What is left to read after an extension that is looked at. -/
theorem parseBasicConstraintsCA_eq_ok {extensions : Tlv} {isCA : Bool}
    (h : w.parseBasicConstraintsCA der (some extensions) = .ok isCA) :
    ∃ nodes, children der extensions = .ok nodes ∧ ∀ seq rest, nodes = seq :: rest →
      ∃ exts, children der seq = .ok exts ∧ w.firstConstraint der exts = .ok isCA := by
  obtain ⟨nodes, hnodes, h⟩ := bind_eq_ok.mp h
  refine ⟨nodes, hnodes, ?_⟩
  rintro seq rest rfl
  obtain ⟨exts, hexts, h⟩ := bind_eq_ok.mp h
  exact ⟨exts, hexts, h⟩

theorem basicConstraintsCA_children {ext : Tlv} {result : Option Bool}
    (h : w.basicConstraintsCA der ext = .ok result) : ∃ parts, children der ext = .ok parts := by
  obtain ⟨parts, hparts, -⟩ := bind_eq_ok.mp h
  exact ⟨parts, hparts⟩

/-- The extension that decides is read to its end. -/
theorem basicConstraintsCA_inner {ext type second inner : Tlv} {rest : List Tlv}
    {result : Option Bool} (h : w.basicConstraintsCA der ext = .ok result)
    (hparts : children der ext = .ok (type :: second :: rest)) (htag : type.tag = tagOid)
    (htype : w.oidOf der type = .ok oidBasicConstraints)
    (hinner : readTlv der ((second :: rest).getLastD type).contentStart = .ok inner)
    (hseq : inner.tag = tagSequence) : ∃ nodes, children der inner = .ok nodes := by
  unfold Platform.basicConstraintsCA at h
  rw [hparts] at h
  have h : (if type.tag ≠ tagOid then _ else _) = Except.ok result := h
  rw [if_neg (not_not.mpr htag)] at h
  obtain ⟨_, hoid, h⟩ := bind_eq_ok.mp h
  obtain rfl := Except.ok.inj (htype.symm.trans hoid)
  rw [if_neg (not_not.mpr rfl)] at h
  obtain ⟨_, hsame, h⟩ := bind_eq_ok.mp h
  obtain rfl := Except.ok.inj (hinner.symm.trans hsame)
  rw [if_neg (not_not.mpr hseq)] at h
  obtain ⟨nodes, hnodes, -⟩ := bind_eq_ok.mp h
  exact ⟨nodes, hnodes⟩

theorem PartOf.mem {parent node : Tlv} {nodes : List Tlv} (h : PartOf der parent node)
    (hnodes : children der parent = .ok nodes) : node ∈ nodes := by
  obtain ⟨_, hsame, hmem⟩ := h
  obtain rfl := Except.ok.inj (hnodes.symm.trans hsame)
  exact hmem

theorem isTbs_unique {tbs tbs' : Tlv} (h : IsTbs der tbs) (h' : IsTbs der tbs') : tbs' = tbs := by
  obtain ⟨cert, rest, hcert, hrest⟩ := h
  obtain ⟨cert', rest', hcert', hrest'⟩ := h'
  obtain rfl := Except.ok.inj (hcert.symm.trans hcert')
  exact (List.cons.inj (Except.ok.inj (hrest'.symm.trans hrest))).1

section Read

variable {cert : ParsedCert}

/-- The names of a certificate that is read are read. -/
theorem isName_children (h : w.parseCert der = .ok cert) {name : Tlv} (hname : IsName der name) :
    ∃ rdns, children der name = .ok rdns ∧ ∀ rdn ∈ rdns, ∃ atvs, children der rdn = .ok atvs ∧
      ∀ atv ∈ atvs, ∃ parts, children der atv = .ok parts := by
  obtain ⟨outer, tbs, sigAlg, sigBit, rest, -, kids, -, -, issuer, issuerNames, subject,
    subjectNames, -, houter, hkids', -, hkids, -, -, hissuer, hissuerNames, hsubject,
    hsubjectNames, -⟩ := parseCert_eq_ok h
  have hfield : ∀ i node, IsField der i node → (fieldsOf kids)[i]? = some node := by
    rintro i node ⟨tbs', kids'', htbs', hkids'', hnode⟩
    obtain rfl := isTbs_unique ⟨outer, _, houter, hkids'⟩ htbs'
    obtain rfl := Except.ok.inj (hkids''.symm.trans hkids)
    exact hnode
  rcases hname with hname | hname
  · obtain rfl := Option.some.inj ((hfield 0 name hname).symm.trans hissuer)
    obtain ⟨pairs, hpairs⟩ := parseName_eq_ok hissuerNames
    exact attributes_eq_ok hpairs
  · obtain rfl := Option.some.inj ((hfield 2 name hname).symm.trans hsubject)
    obtain ⟨pairs, hpairs⟩ := parseName_eq_ok hsubjectNames
    exact attributes_eq_ok hpairs

theorem isExtensions_children (h : w.parseCert der = .ok cert) {node : Tlv}
    (hnode : IsExtensions der node) : ∃ nodes, children der node = .ok nodes ∧
      ∀ seq rest, nodes = seq :: rest →
        ∃ exts, children der seq = .ok exts ∧ w.firstConstraint der exts = .ok cert.isCA := by
  obtain ⟨outer, tbs, sigAlg, sigBit, rest, -, kids, -, -, -, -, -, -, -, houter, hkids', -, hkids,
    -, -, -, -, -, -, -, -, -, -, -, -, hisCA⟩ := parseCert_eq_ok h
  obtain ⟨tbs', kids'', htbs', hkids'', hnode⟩ := hnode
  obtain rfl := isTbs_unique ⟨outer, _, houter, hkids'⟩ htbs'
  obtain rfl := Except.ok.inj (hkids''.symm.trans hkids)
  rw [hnode] at hisCA
  exact parseBasicConstraintsCA_eq_ok hisCA

theorem isExtensionList_children (h : w.parseCert der = .ok cert) {seq : Tlv}
    (hseq : IsExtensionList der seq) :
    ∃ exts, children der seq = .ok exts ∧ w.firstConstraint der exts = .ok cert.isCA := by
  obtain ⟨node, rest, hnode, hrest⟩ := hseq
  obtain ⟨nodes, hnodes, hlist⟩ := isExtensions_children h hnode
  exact hlist seq rest (Except.ok.inj (hnodes.symm.trans hrest))

/-- An extension that is looked at is read. -/
theorem isExtension_read (h : w.parseCert der = .ok cert) {ext : Tlv}
    (hext : w.IsExtension der ext) : ∃ result, w.basicConstraintsCA der ext = .ok result := by
  obtain ⟨seq, before, after, hseq, hexts, hbefore⟩ := hext
  obtain ⟨exts, hsame, hfirst⟩ := isExtensionList_children h hseq
  obtain rfl := Except.ok.inj (hexts.symm.trans hsame)
  exact firstConstraint_eq_ok hfirst hbefore

/-- **A certificate is read only if the parts of every opened element are.** -/
theorem opened_children (h : w.parseCert der = .ok cert) {parent : Tlv}
    (hopened : w.Opened der parent) : ∃ nodes, children der parent = .ok nodes := by
  obtain ⟨outer, tbs, sigAlg, sigBit, rest, algorithm, kids, validity, times, -, -, -, -, -, houter,
    hkids', halgorithm, hkids, hvalidity, htimes, -⟩ := parseCert_eq_ok h
  have htbs : IsTbs der tbs := ⟨outer, _, houter, hkids'⟩
  cases hopened with
  | cert hcert =>
    obtain rfl := Except.ok.inj (hcert.symm.trans houter)
    exact ⟨_, hkids'⟩
  | algorithm hcert hkids'' =>
    obtain rfl := Except.ok.inj (hcert.symm.trans houter)
    obtain ⟨-, hrest⟩ := List.cons.inj (Except.ok.inj (hkids''.symm.trans hkids'))
    obtain ⟨rfl, -⟩ := List.cons.inj hrest
    exact ⟨algorithm, halgorithm⟩
  | tbs htbs' =>
    obtain rfl := isTbs_unique htbs htbs'
    exact ⟨kids, hkids⟩
  | validity hfield =>
    obtain ⟨tbs', kids'', htbs', hkids'', hnode⟩ := hfield
    obtain rfl := isTbs_unique htbs htbs'
    obtain rfl := Except.ok.inj (hkids''.symm.trans hkids)
    obtain rfl := Option.some.inj (hnode.symm.trans hvalidity)
    exact ⟨times, htimes⟩
  | name hname =>
    obtain ⟨rdns, hrdns, -⟩ := isName_children h hname
    exact ⟨rdns, hrdns⟩
  | rdn hname hrdn =>
    obtain ⟨rdns, hrdns, hrest⟩ := isName_children h hname
    obtain ⟨atvs, hatvs, -⟩ := hrest _ (hrdn.mem hrdns)
    exact ⟨atvs, hatvs⟩
  | atv hname hrdn hatv =>
    obtain ⟨rdns, hrdns, hrest⟩ := isName_children h hname
    obtain ⟨atvs, hatvs, hrest⟩ := hrest _ (hrdn.mem hrdns)
    exact hrest _ (hatv.mem hatvs)
  | extensions hnode =>
    obtain ⟨nodes, hnodes, -⟩ := isExtensions_children h hnode
    exact ⟨nodes, hnodes⟩
  | extensionList hseq =>
    obtain ⟨exts, hexts, -⟩ := isExtensionList_children h hseq
    exact ⟨exts, hexts⟩
  | extension hext =>
    obtain ⟨result, hresult⟩ := isExtension_read h hext
    exact basicConstraintsCA_children hresult
  | constraints hinner htag =>
    obtain ⟨ext, type, second, rest, hext, hparts, htype, hoid, rfl, hread⟩ := hinner
    obtain ⟨result, hresult⟩ := isExtension_read h hext
    exact basicConstraintsCA_inner hresult hparts htype hoid hread htag

end Read

end Accepted

/-! ## Where the elements lie -/

section Places

variable {w : Platform} {der : List UInt8}

/-- An element that was read at some offset. -/
def IsRead (der : List UInt8) (node : Tlv) : Prop := ∃ off, readTlv der off = .ok node

theorem start_of_readTlv {off : ℕ} {node : Tlv} (h : readTlv der off = .ok node) :
    node.start = off := by
  obtain ⟨tag, i, len, hheader, hle, rfl⟩ := readTlv_eq_ok.mp h
  have hi := hheader.le
  show i + len - (subarray der off (i + len)).length = off
  rw [length_subarray hle]
  omega

/-- An element has its tag and its length, its content and an end, in this order. -/
theorem IsRead.le {node : Tlv} (h : IsRead der node) :
    node.start + 2 ≤ node.contentStart ∧ node.contentStart ≤ node.stop ∧
      node.stop ≤ der.length ∧ node.raw = subarray der node.start node.stop := by
  obtain ⟨off, h⟩ := h
  rw [start_of_readTlv h]
  obtain ⟨tag, i, len, hheader, hle, rfl⟩ := readTlv_eq_ok.mp h
  have hi := hheader.le
  exact ⟨hi, Nat.le_add_right _ _, hle, rfl⟩

theorem childrenFrom_mem {stop rounds off : ℕ} {nodes : List Tlv}
    (h : childrenFrom der stop rounds off = .ok nodes) :
    ∀ node ∈ nodes, ∃ off' ≥ off, readTlv der off' = .ok node := by
  induction rounds generalizing off nodes with
  | zero =>
    cases h
    exact fun _ hnode => absurd hnode List.not_mem_nil
  | succ rounds ih =>
    rw [childrenFrom] at h
    split at h
    · obtain ⟨node, hnode, h⟩ := bind_eq_ok.mp h
      obtain ⟨_, hcheck, h⟩ := bind_eq_ok.mp h
      obtain ⟨nodes, hnodes, h⟩ := bind_eq_ok.mp h
      cases h
      refine List.forall_mem_cons.mpr ⟨⟨off, Nat.le_refl _, hnode⟩, fun other hother => ?_⟩
      obtain ⟨off', hoff', hread⟩ := ih hnodes other hother
      exact ⟨off', Nat.le_trans (Nat.le_of_lt (check_eq_ok.mp hcheck)) hoff', hread⟩
    · cases h
      exact fun _ hnode => absurd hnode List.not_mem_nil

/-- A part begins in the content of its element. -/
theorem PartOf.read {parent node : Tlv} (h : PartOf der parent node) :
    IsRead der node ∧ parent.contentStart ≤ node.start := by
  obtain ⟨nodes, hnodes, hmem⟩ := h
  obtain ⟨off, hoff, hread⟩ := childrenFrom_mem hnodes node hmem
  exact ⟨⟨off, hread⟩, (start_of_readTlv hread).symm ▸ hoff⟩

theorem IsTbs.partOf {tbs : Tlv} (h : IsTbs der tbs) :
    ∃ cert, readTlv der 0 = .ok cert ∧ PartOf der cert tbs := by
  obtain ⟨cert, rest, hcert, hrest⟩ := h
  exact ⟨cert, hcert, _, hrest, List.mem_cons_self⟩

theorem IsField.partOf {i : ℕ} {node : Tlv} (h : IsField der i node) :
    ∃ tbs, IsTbs der tbs ∧ PartOf der tbs node := by
  obtain ⟨tbs, kids, htbs, hkids, hnode⟩ := h
  exact ⟨tbs, htbs, kids, hkids, List.mem_of_mem_drop (List.mem_of_getElem? hnode)⟩

theorem IsName.partOf {name : Tlv} (h : IsName der name) :
    ∃ tbs, IsTbs der tbs ∧ PartOf der tbs name := by
  rcases h with h | h
  · exact h.partOf
  · exact h.partOf

theorem IsExtensions.partOf {node : Tlv} (h : IsExtensions der node) :
    ∃ tbs, IsTbs der tbs ∧ PartOf der tbs node := by
  obtain ⟨tbs, kids, htbs, hkids, hnode⟩ := h
  exact ⟨tbs, htbs, kids, hkids,
    List.mem_of_mem_drop (List.mem_of_mem_drop (List.mem_of_find?_eq_some hnode))⟩

theorem IsExtensionList.partOf {seq : Tlv} (h : IsExtensionList der seq) :
    ∃ extensions, IsExtensions der extensions ∧ PartOf der extensions seq := by
  obtain ⟨extensions, rest, hextensions, hrest⟩ := h
  exact ⟨extensions, hextensions, _, hrest, List.mem_cons_self⟩

theorem Platform.IsExtension.partOf {ext : Tlv} (h : w.IsExtension der ext) :
    ∃ seq, IsExtensionList der seq ∧ PartOf der seq ext := by
  obtain ⟨seq, before, after, hseq, hexts, -⟩ := h
  exact ⟨seq, hseq, _, hexts, by simp⟩

theorem Platform.IsConstraints.partOf {octet inner : Tlv} (h : w.IsConstraints der octet inner) :
    (∃ ext, w.IsExtension der ext ∧ PartOf der ext octet) ∧
      readTlv der octet.contentStart = .ok inner := by
  obtain ⟨ext, type, second, rest, hext, hparts, -, -, rfl, hinner⟩ := h
  refine ⟨⟨ext, hext, _, hparts, ?_⟩, hinner⟩
  rw [List.getLastD_cons]
  exact List.mem_cons_of_mem _ List.getLastD_mem_cons

theorem Platform.Opened.read {node : Tlv} (h : w.Opened der node) : IsRead der node := by
  cases h with
  | cert h => exact ⟨0, h⟩
  | algorithm h hkids => exact (PartOf.read ⟨_, hkids, by simp⟩).1
  | tbs h =>
    obtain ⟨_, -, hpart⟩ := h.partOf
    exact hpart.read.1
  | validity h =>
    obtain ⟨_, -, hpart⟩ := h.partOf
    exact hpart.read.1
  | name h =>
    obtain ⟨_, -, hpart⟩ := h.partOf
    exact hpart.read.1
  | rdn h hrdn => exact hrdn.read.1
  | atv h hrdn hatv => exact hatv.read.1
  | extensions h =>
    obtain ⟨_, -, hpart⟩ := h.partOf
    exact hpart.read.1
  | extensionList h =>
    obtain ⟨_, -, hpart⟩ := h.partOf
    exact hpart.read.1
  | extension h =>
    obtain ⟨_, -, hpart⟩ := h.partOf
    exact hpart.read.1
  | constraints h htag => exact ⟨_, h.partOf.2⟩

/-- **The parts lie within an element** exactly if they can be read from its content alone. -/
theorem children_bounded {parent : Tlv} {nodes : List Tlv} (hread : IsRead der parent)
    (h : children der parent = .ok nodes) :
    (∀ node, PartOf der parent node → node.Within parent) ↔
      ∃ nodes', CertParser.readChildren (Platform.content der parent) = .ok nodes' := by
  obtain ⟨-, hle, hstop, -⟩ := hread.le
  have hiff := childrenFrom_bounded (o := 0) hle hstop h
  have hrounds : parent.stop - parent.contentStart = (Platform.content der parent).length :=
    (length_subarray hstop _).symm
  rw [hrounds] at hiff
  refine Iff.trans ?_ hiff
  constructor
  · exact fun h' node hnode => (h' node ⟨nodes, h, hnode⟩).stop
  · exact fun h' node hnode => ⟨hnode.read.2, h' node (hnode.mem h)⟩

/-! ## The trusted bytes are signed exactly if all is bounded -/

namespace Platform

/-- An element that is looked for within another one is so within the element around that one. -/
theorem Nested.within {parent node tbs : Tlv} (h : w.Nested der) (hopened : w.Opened der parent)
    (hpart : PartOf der parent node) (hparent : parent.Within tbs) : node.Within tbs := by
  obtain ⟨hstart, hstop⟩ := h.part parent node hopened hpart
  obtain ⟨hle, -, -, -⟩ := hopened.read.le
  exact ⟨by have := hparent.start; omega, Nat.le_trans hstop hparent.stop⟩

variable {tbs : Tlv}

/-- What is a part of the signed bytes lies within them. -/
theorem Nested.part_tbs {node : Tlv} (h : w.Nested der) (htbs : IsTbs der tbs)
    (hpart : ∃ tbs', IsTbs der tbs' ∧ PartOf der tbs' node) : node.Within tbs := by
  obtain ⟨tbs', htbs', hpart⟩ := hpart
  obtain rfl := isTbs_unique htbs htbs'
  exact h.part _ _ (.tbs htbs) hpart

theorem Nested.extension {ext : Tlv} (h : w.Nested der) (htbs : IsTbs der tbs)
    (hext : w.IsExtension der ext) : ext.Within tbs := by
  obtain ⟨seq, hseq, hpart⟩ := hext.partOf
  obtain ⟨extensions, hextensions, hseqPart⟩ := hseq.partOf
  have hextensionsIn := h.part_tbs htbs hextensions.partOf
  have hseqIn := h.within (.extensions hextensions) hseqPart hextensionsIn
  exact h.within (.extensionList hseq) hpart hseqIn

theorem Nested.inner {octet inner : Tlv} (h : w.Nested der) (htbs : IsTbs der tbs)
    (hinner : w.IsConstraints der octet inner) : inner.Within tbs := by
  obtain ⟨⟨ext, hext, hpart⟩, -⟩ := hinner.partOf
  have hoctet := h.within (.extension hext) hpart (h.extension htbs hext)
  obtain ⟨hle, -, -, -⟩ := hpart.read.1.le
  obtain ⟨hstart, hstop⟩ := h.constraints octet inner hinner
  exact ⟨by have := hoctet.start; omega, Nat.le_trans hstop hoctet.stop⟩

theorem IsFlag.partOf {flag : Tlv} (h : w.IsFlag der flag) :
    ∃ octet inner, w.IsConstraints der octet inner ∧ inner.tag = tagSequence ∧
      PartOf der inner flag := by
  obtain ⟨octet, inner, rest, hinner, htag, hrest, -⟩ := h
  exact ⟨octet, inner, hinner, htag, _, hrest, List.mem_cons_self⟩

/-- What lies within the signed bytes is signed. -/
theorem signed_of_within {node : Tlv} (htbs : IsTbs der tbs) (h : node.Within tbs) :
    tbs.start ≤ node.start ∧ node.stop ≤ tbs.stop := by
  obtain ⟨_, -, hpart⟩ := htbs.partOf
  obtain ⟨hle, -, -, -⟩ := hpart.read.1.le
  exact ⟨by have := h.start; omega, h.stop⟩

/-- If all is nested, the trusted bytes are signed, up to a flag without a content. -/
theorem Nested.allSigned (h : w.Nested der) (htbs : IsTbs der tbs)
    (hflag : ∀ flag, w.IsFlag der flag → ¬ (flag.contentStart = flag.stop ∧ flag.stop = tbs.stop)) :
    w.AllSigned der tbs := by
  intro start stop htrusted
  cases htrusted with
  | name hname hrdn hatv hnode =>
    have hrdnIn := h.within (.name hname) hrdn (h.part_tbs htbs hname.partOf)
    have hatvIn := h.within (.rdn hname hrdn) hatv hrdnIn
    exact signed_of_within htbs (h.within (.atv hname hrdn hatv) hnode hatvIn)
  | time hvalidity hnode =>
    exact signed_of_within htbs
      (h.within (.validity hvalidity) hnode (h.part_tbs htbs hvalidity.partOf))
  | key hspki => exact signed_of_within htbs (h.part_tbs htbs hspki.partOf)
  | extension hext hnode =>
    exact signed_of_within htbs (h.within (.extension hext) hnode (h.extension htbs hext))
  | constraints hinner => exact signed_of_within htbs (h.inner htbs hinner)
  | @flag flag h' =>
    obtain ⟨octet, inner, hinner, htag, hpart⟩ := h'.partOf
    have hwithin := h.within (.constraints hinner htag) hpart (h.inner htbs hinner)
    obtain ⟨hstart, hstop⟩ := signed_of_within htbs hwithin
    obtain ⟨-, hle, -, -⟩ := hpart.read.1.le
    have := hflag flag h'
    exact ⟨hstart, by omega⟩

end Platform

/-- An element at the beginning of a string lies within it exactly if it can be read from its
content alone. -/
theorem inner_bounded {octet inner : Tlv} (hread : IsRead der octet)
    (h : readTlv der octet.contentStart = .ok inner) : inner.Within octet ↔
      ∃ node, CertParser.readTlv (Platform.content der octet) 0 = .ok node := by
  obtain ⟨-, hle, hstop, -⟩ := hread.le
  constructor
  · intro hwithin
    exact ⟨_, (readTlv_subarray hle hstop).mpr ⟨inner, h, hwithin.stop, rfl⟩⟩
  · rintro ⟨node, hnode⟩
    obtain ⟨inner', hinner', hwithin, -⟩ := (readTlv_subarray hle hstop).mp hnode
    obtain rfl := Except.ok.inj (h.symm.trans hinner')
    exact ⟨Nat.le_of_eq (start_of_readTlv h).symm, hwithin⟩

/-- The bytes over which the signature of a certificate is verified. -/
theorem parseCert_tbsRaw {cert : ParsedCert} (h : w.parseCert der = .ok cert) :
    ∃ tbs, IsTbs der tbs ∧ cert.tbsRaw = subarray der tbs.start tbs.stop := by
  obtain ⟨outer, tbs, sigAlg, sigBit, rest, -, -, -, -, -, -, -, -, -, houter, hkids, -, -, -, -, -,
    -, -, -, -, hraw, -⟩ := parseCert_eq_ok h
  have htbs : IsTbs der tbs := ⟨outer, _, houter, hkids⟩
  obtain ⟨_, -, hpart⟩ := htbs.partOf
  obtain ⟨-, -, -, hbytes⟩ := hpart.read.1.le
  exact ⟨tbs, htbs, hraw.trans hbytes⟩

/-- **The trusted bytes are signed**, and every element lies within the one it is read in, exactly
if the parser of the login could read all of them from the contents of the elements, and no flag
without a content ends the signed bytes. -/
theorem trusted_bytes_signed_iff {cert : ParsedCert} (h : w.parseCert der = .ok cert) :
    ∃ tbs, IsTbs der tbs ∧ cert.tbsRaw = subarray der tbs.start tbs.stop ∧
      (w.AllSigned der tbs ∧ w.Nested der ↔ w.Bounded der) := by
  obtain ⟨tbs, htbs, hraw⟩ := parseCert_tbsRaw h
  have hparts : ∀ parent, w.Opened der parent →
      ((∀ node, PartOf der parent node → node.Within parent) ↔
        ∃ nodes', CertParser.readChildren (Platform.content der parent) = .ok nodes') := by
    intro parent hopened
    obtain ⟨nodes, hnodes⟩ := opened_children h hopened
    exact children_bounded hopened.read hnodes
  have hinner : ∀ octet inner, w.IsConstraints der octet inner → (inner.Within octet ↔
      ∃ node, CertParser.readTlv (Platform.content der octet) 0 = .ok node) := by
    intro octet inner hinner
    obtain ⟨⟨_, -, hpart⟩, hread⟩ := hinner.partOf
    exact inner_bounded hpart.read.1 hread
  refine ⟨tbs, htbs, hraw, ?_, ?_⟩
  · rintro ⟨hsigned, hnested⟩
    refine ⟨fun parent hopened => (hparts parent hopened).mp fun node hnode =>
      hnested.part parent node hopened hnode, fun octet inner hc => (hinner octet inner hc).mp
        (hnested.constraints octet inner hc), ?_⟩
    -- the byte of the flag would be the first one behind the signed bytes
    rintro tbs' flag htbs' hflag ⟨hempty, hend⟩
    obtain rfl := isTbs_unique htbs htbs'
    have := (hsigned _ _ (.flag hflag)).2
    omega
  · rintro ⟨hpart, hconstraints, hflag⟩
    have hnested : w.Nested der :=
      ⟨fun parent node hopened => (hparts parent hopened).mpr (hpart parent hopened) node,
        fun octet inner hc => (hinner octet inner hc).mpr (hconstraints octet inner hc)⟩
    exact ⟨hnested.allSigned htbs fun flag => hflag tbs flag htbs, hnested⟩

end Places

/-! ## A key behind the signed bytes -/

section Samples

/-- A certificate of the sample chain has its trusted bytes signed exactly if it is bounded. -/
theorem sampleRoot_trusted_bytes : ∃ cert tbs, samplePlatform.parseCert sampleRoot = .ok cert ∧
    IsTbs sampleRoot tbs ∧
      (samplePlatform.AllSigned sampleRoot tbs ∧ samplePlatform.Nested sampleRoot ↔
        samplePlatform.Bounded sampleRoot) := by
  have hview : (samplePlatform.parseCert sampleRoot).toOption.isSome = true := by decide +kernel
  cases hcert : samplePlatform.parseCert sampleRoot with
  | error e =>
    rw [hcert] at hview
    cases hview
  | ok cert =>
    obtain ⟨tbs, htbs, -, hiff⟩ := trusted_bytes_signed_iff hcert
    exact ⟨cert, tbs, rfl, htbs, hiff⟩

/-- A certificate whose key has no bytes of its own: its length reaches over the algorithm behind
the signed bytes. -/
def overlongKeyCert : List UInt8 :=
  let validity := derElement 0x17 (Go.utf8 "250101000000Z") ++
    derElement 0x17 (Go.utf8 "350101000000Z")
  let tbs := derElement 0xA0 (derElement 0x02 [2]) ++ derElement 0x02 [1] ++ derAlgorithm ++
    derName "Client CA" ++ derElement 0x30 validity ++ derName "kdc-service" ++ [0x30, 0x0F]
  derElement 0x30 (derElement 0x30 tbs ++ derAlgorithm ++ derElement 0x03 [0x00, 0x01])

/-- It is read, and its key is the algorithm behind the signed bytes. -/
theorem overlong_key_not_signed : ∃ cert tbs, samplePlatform.parseCert overlongKeyCert = .ok cert ∧
    IsTbs overlongKeyCert tbs ∧ cert.tbsRaw = subarray overlongKeyCert tbs.start tbs.stop ∧
      cert.spkiRaw = derElement 0x30 derAlgorithm ∧
        ¬ samplePlatform.AllSigned overlongKeyCert tbs ∧
          ¬ samplePlatform.Nested overlongKeyCert := by
  have hkey : (samplePlatform.parseCert overlongKeyCert).toOption.map (·.spkiRaw) =
      some (derElement 0x30 derAlgorithm) := by
    decide +kernel
  have hplaces : ((readTlv overlongKeyCert 0).toOption.bind fun outer =>
      (children overlongKeyCert outer).toOption.bind fun kids => kids.head?.bind fun tbs =>
        (children overlongKeyCert tbs).toOption.bind fun parts =>
          (fieldsOf parts)[3]?.map fun spki => spki.stop - tbs.stop) = some 15 := by
    decide +kernel
  obtain ⟨outer, houter, hplaces⟩ := Option.bind_eq_some_iff.mp hplaces
  obtain ⟨kids, hkids, hplaces⟩ := Option.bind_eq_some_iff.mp hplaces
  obtain ⟨tbs, htbs, hplaces⟩ := Option.bind_eq_some_iff.mp hplaces
  obtain ⟨parts, hparts, hplaces⟩ := Option.bind_eq_some_iff.mp hplaces
  obtain ⟨spki, hspki, hplaces⟩ := Option.map_eq_some_iff.mp hplaces
  obtain ⟨rest, rfl⟩ := List.head?_eq_some_iff.mp htbs
  obtain ⟨cert, hcert, hraw⟩ := Option.map_eq_some_iff.mp hkey
  have hcert := toOption_eq_some hcert
  have hparts := toOption_eq_some hparts
  have hisTbs : IsTbs overlongKeyCert tbs :=
    ⟨outer, rest, toOption_eq_some houter, toOption_eq_some hkids⟩
  have hisKey : IsField overlongKeyCert 3 spki := ⟨tbs, parts, hisTbs, hparts, hspki⟩
  obtain ⟨tbs', htbs', htbsRaw⟩ := parseCert_tbsRaw hcert
  obtain rfl := isTbs_unique hisTbs htbs'
  refine ⟨cert, tbs', hcert, hisTbs, htbsRaw, hraw, fun hsigned => ?_, fun hnested => ?_⟩
  · have := (hsigned _ _ (.key hisKey)).2
    omega
  · have := (hnested.part_tbs hisTbs hisKey.partOf).stop
    omega

end Samples

end Frontend
