import MiniBanking.Asn1.ObjectIdentifier
import MiniBanking.Frontend.CertParser

/-!
# How the browser reads object identifiers

Both readers of certificates take the first byte of an object identifier for its first two arcs.
That is right while the number of these two arcs fits into a byte, and for the reader of chains
while it is below 120. Neither notices that a number is not written with as few bytes as possible,
and the reader of chains ignores a number that is cut off.

## Main definitions

* `ReadsAs`: a decoder gives the dotted name of an object identifier, and throws for other bytes

## Main results

* `oidArcs_content`: the loop reads the numbers that are written
* `decodeOid_content`, `CertParser.decodeOid_content`: what the two decoders make of an object
  identifier
* `decode_oid_correct_iff`: when both are right
-/

namespace Frontend

open Asn1 Js

/-! ## The loop -/

/-- A byte with its highest bit set goes on with a number. -/
theorem oidArcs_leading {n : ℕ} (h : n < 2 ^ 53) (bytes : List UInt8) :
    oidArcs 0 (leading n ++ bytes) = oidArcs n bytes := by
  induction n using Nat.strongRecOn generalizing bytes with
  | _ n ih =>
    by_cases hzero : n = 0
    · subst hzero
      rw [leading_zero, List.nil_append]
    · have hbyte : (UInt8.ofNat (128 + n % 128)).toNat = 128 + n % 128 := by
        rw [UInt8.toNat_ofNat']
        omega
      have hround : roundNat (n / 128 * 128 + n % 128) = n := by
        rw [Nat.div_add_mod']
        exact if_pos h
      rw [leading_of_ne hzero, List.append_assoc, List.singleton_append,
        ih (n / 128) (by omega) (by omega), oidArcs]
      simp only [and_128_eq_zero, toNat_and_127, hbyte]
      rw [if_neg (by omega), show (128 + n % 128) % 128 = n % 128 by omega, hround]

/-- **The loop reads the numbers that are written**, as long as they are exact. -/
theorem oidArcs_content {ns : List ℕ} (h : ∀ n ∈ ns, n < 2 ^ 53) :
    oidArcs 0 (ns.flatMap subidentifier) = ns := by
  induction ns with
  | nil => rfl
  | cons n ns ih =>
    have hn := h n List.mem_cons_self
    have hbyte : (UInt8.ofNat (n % 128)).toNat = n % 128 := by
      rw [UInt8.toNat_ofNat']
      omega
    have hround : roundNat (n / 128 * 128 + n % 128) = n := by
      rw [Nat.div_add_mod']
      exact if_pos hn
    rw [List.flatMap_cons, subidentifier, List.append_assoc, List.singleton_append,
      oidArcs_leading (by omega), oidArcs]
    simp only [and_128_eq_zero, toNat_and_127, hbyte]
    rw [if_pos (by omega), Nat.mod_mod, hround, ih fun m hm => h m (List.mem_cons_of_mem _ hm)]

/-! ## The decoders -/

theorem numberText_of_lt (large : ℕ → String) {n : ℕ} (h : n < 2 ^ 53) :
    numberText large n = toString n :=
  if_pos (h.trans (by decide))

section Decoders

variable (w : Platform) {o : ObjectIdentifier}

/-- The dotted name of arcs that are exact. -/
theorem dotted_eq (hexact : ∀ n ∈ o.arcs, n < 2 ^ 53) :
    String.intercalate "." (o.arcs.map (numberText w.largeNumber)) = o.dotted := by
  rw [ObjectIdentifier.dotted]
  refine congrArg _ (List.map_congr_left fun n hn => ?_)
  exact numberText_of_lt _ (hexact n hn)

/-- The bytes of an object identifier whose first number has one byte. -/
theorem content_of_lt (h : 40 * o.first + o.second < 128) :
    o.content = UInt8.ofNat (40 * o.first + o.second) :: o.rest.flatMap subidentifier := by
  rw [ObjectIdentifier.content, ObjectIdentifier.subidentifiers, List.flatMap_cons,
    subidentifier_of_lt h, List.singleton_append]

/-- The arcs of an object identifier with exact numbers are exact. -/
theorem arcs_lt (h : o.Below (2 ^ 53)) : ∀ n ∈ o.arcs, n < 2 ^ 53 := by
  have hfirst := h _ List.mem_cons_self
  have hle := o.first_le
  refine List.forall_mem_cons.mpr ⟨by omega, List.forall_mem_cons.mpr ⟨by omega, ?_⟩⟩
  exact fun n hn => h n (List.mem_cons_of_mem _ hn)

/-- **The reader of chains is right** about an object identifier below `3.0`. -/
theorem decodeOid_content (h : o.Below (2 ^ 53)) (hfirst : 40 * o.first + o.second < 120) :
    w.decodeOid o.content = .ok o.dotted := by
  have hlt := o.second_lt
  have hle := o.first_le
  have hbyte : (UInt8.ofNat (40 * o.first + o.second)).toNat = 40 * o.first + o.second := by
    rw [UInt8.toNat_ofNat']
    omega
  have hrest := oidArcs_content fun n hn => h n (List.mem_cons_of_mem _ hn)
  rw [content_of_lt (by omega), Platform.decodeOid, hrest, hbyte,
    show (40 * o.first + o.second) / 40 = o.first by omega,
    show (40 * o.first + o.second) % 40 = o.second by omega]
  exact congrArg Except.ok (dotted_eq w (arcs_lt h))

/-- The last byte of an object identifier has its highest bit clear. -/
theorem getLast?_content : o.content.getLast?.all (fun b => b &&& 0x80 = 0) = true := by
  have hlast : ∀ ns : List ℕ, ∀ bytes : List UInt8,
      bytes.getLast?.all (fun b => decide (b &&& 0x80 = 0)) = true →
      (bytes ++ ns.flatMap subidentifier).getLast?.all (fun b => decide (b &&& 0x80 = 0)) =
        true := by
    intro ns
    induction ns with
    | nil => exact fun bytes h => by simpa using h
    | cons n ns ih =>
      intro bytes _
      rw [List.flatMap_cons, ← List.append_assoc]
      refine ih _ ?_
      have hbyte : (UInt8.ofNat (n % 128)).toNat = n % 128 := by
        rw [UInt8.toNat_ofNat']
        omega
      rw [subidentifier, ← List.append_assoc, List.getLast?_concat]
      simp only [Option.all_some, and_128_eq_zero, hbyte, decide_eq_true_eq]
      omega
  have := hlast o.subidentifiers [] rfl
  rwa [List.nil_append] at this

/-- **The reader of the login is right** as long as the first number has one byte. -/
theorem CertParser.decodeOid_content (h : o.Below (2 ^ 53))
    (hfirst : 40 * o.first + o.second < 128) :
    CertParser.decodeOid w o.content = .ok o.dotted := by
  have hlt := o.second_lt
  have hle := o.first_le
  have hbyte : (UInt8.ofNat (40 * o.first + o.second)).toNat = 40 * o.first + o.second := by
    rw [UInt8.toNat_ofNat']
    omega
  have hlast := @getLast?_content o
  have hrest := oidArcs_content fun n hn => h n (List.mem_cons_of_mem _ hn)
  rw [content_of_lt hfirst] at hlast ⊢
  have hdotted := dotted_eq w (arcs_lt h)
  have hfirstArc : min 2 ((40 * o.first + o.second) / 40) = o.first := by omega
  have hsecondArc : (if UInt8.ofNat (40 * o.first + o.second) < 80 then
      (40 * o.first + o.second) % 40 else 40 * o.first + o.second - 80) = o.second := by
    simp only [UInt8.lt_iff_toNat_lt, hbyte, show (80 : UInt8).toNat = 80 from rfl]
    split <;> omega
  rw [CertParser.decodeOid, hrest, hbyte, hfirstArc, hsecondArc]
  simp only [hlast, check, if_true]
  exact congrArg Except.ok hdotted

end Decoders

/-! ## When both are right -/

/-- The bytes are those of an object identifier whose numbers are exact. -/
def IsExactOid (bytes : List UInt8) : Prop :=
  ∃ o : ObjectIdentifier, o.content = bytes ∧ o.Below (2 ^ 53)

/-- A decoder gives the dotted name of the bytes of an object identifier, and throws for other
bytes. -/
structure ReadsAs (decode : List UInt8 → Except Failure String) (bytes : List UInt8) : Prop where
  name : ∀ o : ObjectIdentifier, o.content = bytes → o.Below (2 ^ 53) →
    decode bytes = .ok o.dotted
  throws : ¬ IsExactOid bytes → ∃ e, decode bytes = .error e

/-- The first byte holds the first two arcs, and they are below `3.0`. -/
def StartsBelow (bytes : List UInt8) : Prop := ∀ b ∈ bytes.head?, b.toNat < 120

section Correct

variable (w : Platform)

theorem lt_of_startsBelow {o : ObjectIdentifier} (h : StartsBelow o.content) :
    40 * o.first + o.second < 120 := by
  obtain ⟨b, rest, heq, hlt, hb⟩ := o.exists_content
  have hb' : b.toNat < 120 := h b (by rw [heq]; rfl)
  have := hb (hlt.mp (by omega))
  omega

theorem not_isExactOid_nil : ¬ IsExactOid [] := by
  rintro ⟨o, ho, -⟩
  obtain ⟨b, rest, heq, -⟩ := o.exists_content
  rw [ho] at heq
  cases heq

/-- The dotted name starts with a digit below 3. -/
theorem head?_dotted (o : ObjectIdentifier) :
    ∃ c ∈ o.dotted.toList.head?, c = '0' ∨ c = '1' ∨ c = '2' := by
  have hle := o.first_le
  have hdotted : o.dotted.toList =
      (toString o.first).toList ++ ('.' :: (".".intercalate
        ((o.second :: o.rest).map toString)).toList) := by
    rw [ObjectIdentifier.dotted, ObjectIdentifier.arcs, List.map_cons, List.map_cons,
      String.intercalate_cons_cons, String.toList_append, String.toList_append, List.append_assoc]
    rfl
  have hcases : o.first = 0 ∨ o.first = 1 ∨ o.first = 2 := by omega
  rw [hdotted]
  rcases hcases with h | h | h <;> rw [h]
  · exact ⟨'0', rfl, .inl rfl⟩
  · exact ⟨'1', rfl, .inr (.inl rfl)⟩
  · exact ⟨'2', rfl, .inr (.inr rfl)⟩

/-- The reader of chains gives a dotted name for every bytes but none, and one with a first arc
above 2 if the first byte is 120 or more. -/
theorem decodeOid_of_le {first : UInt8} {bytes : List UInt8} (h : 120 ≤ first.toNat) :
    ∃ s, w.decodeOid (first :: bytes) = .ok s ∧
      ∃ c ∈ s.toList.head?, c = '3' ∨ c = '4' ∨ c = '5' ∨ c = '6' := by
  have hlt := first.toNat_lt
  refine ⟨_, rfl, ?_⟩
  have hcases : first.toNat / 40 = 3 ∨ first.toNat / 40 = 4 ∨ first.toNat / 40 = 5 ∨
      first.toNat / 40 = 6 := by omega
  rw [List.map_cons, List.map_cons, String.intercalate_cons_cons, String.toList_append,
    String.toList_append, List.append_assoc, numberText_of_lt _ (by omega)]
  rcases hcases with h | h | h | h <;> rw [h]
  · exact ⟨'3', rfl, .inl rfl⟩
  · exact ⟨'4', rfl, .inr (.inl rfl)⟩
  · exact ⟨'5', rfl, .inr (.inr (.inl rfl))⟩
  · exact ⟨'6', rfl, .inr (.inr (.inr rfl))⟩

/-- The reader of chains throws for no bytes only. -/
theorem decodeOid_cons (first : UInt8) (bytes : List UInt8) :
    ∃ s, w.decodeOid (first :: bytes) = .ok s := ⟨_, rfl⟩

theorem readsAs_nil : ReadsAs w.decodeOid [] ∧ ReadsAs (CertParser.decodeOid w) [] :=
  ⟨⟨fun o ho hbelow => absurd ⟨o, ho, hbelow⟩ not_isExactOid_nil, fun _ => ⟨_, rfl⟩⟩,
    ⟨fun o ho hbelow => absurd ⟨o, ho, hbelow⟩ not_isExactOid_nil, fun _ => ⟨_, rfl⟩⟩⟩

/-- **Both readers are right exactly** about no bytes, and about the bytes of an object identifier
with exact numbers that start below 120. There different bytes have different dotted names. -/
theorem decode_oid_correct_iff :
    (∀ bytes, (ReadsAs w.decodeOid bytes ∧ ReadsAs (CertParser.decodeOid w) bytes) ↔
      bytes = [] ∨ IsExactOid bytes ∧ StartsBelow bytes) ∧
    ∀ bytes bytes', IsExactOid bytes ∧ StartsBelow bytes → IsExactOid bytes' ∧ StartsBelow bytes' →
      (w.decodeOid bytes = w.decodeOid bytes' ∨
        CertParser.decodeOid w bytes = CertParser.decodeOid w bytes') → bytes = bytes' := by
  refine ⟨fun bytes => ⟨fun ⟨hchain, _⟩ => ?_, ?_⟩, ?_⟩
  · cases bytes with
    | nil => exact .inl rfl
    | cons first bytes =>
      have hexact : IsExactOid (first :: bytes) := by
        by_contra hnot
        obtain ⟨e, he⟩ := hchain.throws hnot
        obtain ⟨s, hs⟩ := decodeOid_cons w first bytes
        cases hs.symm.trans he
      refine .inr ⟨hexact, fun b hb => ?_⟩
      obtain rfl : first = b := Option.some.inj hb
      by_contra hge
      -- the first arcs of the two names differ
      obtain ⟨o, ho, hbelow⟩ := hexact
      obtain ⟨s, hs, c, hc, hcases⟩ := @decodeOid_of_le w first bytes (by omega)
      obtain rfl := Except.ok.inj (hs.symm.trans (hchain.name o ho hbelow))
      obtain ⟨d, hd, hcases'⟩ := head?_dotted o
      obtain rfl := Option.some.inj (hc.symm.trans hd)
      rcases hcases' with rfl | rfl | rfl <;> revert hcases <;> decide
  · rintro (rfl | ⟨hexact, hstarts⟩)
    · exact readsAs_nil w
    · refine ⟨⟨?_, fun hnot => absurd hexact hnot⟩, ?_, fun hnot => absurd hexact hnot⟩
      all_goals
        rintro o rfl hbelow
        have hlt := lt_of_startsBelow hstarts
      · exact decodeOid_content w hbelow hlt
      · exact CertParser.decodeOid_content w hbelow (by omega)
  · rintro _ _ ⟨⟨o, rfl, hbelow⟩, hstarts⟩ ⟨⟨o', rfl, hbelow'⟩, hstarts'⟩ h
    have hlt := lt_of_startsBelow hstarts
    have hlt' := lt_of_startsBelow hstarts'
    rw [decodeOid_content w hbelow hlt, decodeOid_content w hbelow' hlt',
      CertParser.decodeOid_content w hbelow (by omega),
      CertParser.decodeOid_content w hbelow' (by omega), or_self] at h
    rw [dotted_injective (Except.ok.inj h)]

end Correct

/-- The object identifier of the basic constraints. -/
def basicConstraintsOid : ObjectIdentifier := ⟨2, 5, [29, 19], by decide, by decide⟩

theorem content_basicConstraintsOid : basicConstraintsOid.content = [0x55, 0x1d, 0x13] := by
  have hbelow : ∀ n ∈ basicConstraintsOid.subidentifiers, subidentifier n = [UInt8.ofNat n] :=
    fun n hn => subidentifier_of_lt
      ((by decide : ∀ n ∈ basicConstraintsOid.subidentifiers, n < 128) n hn)
  rw [ObjectIdentifier.content, List.flatMap_congr hbelow]
  rfl

/-- Both readers are right about the object identifier of the basic constraints. -/
theorem basicConstraintsOid_read :
    ReadsAs samplePlatform.decodeOid [0x55, 0x1d, 0x13] ∧
      ReadsAs (CertParser.decodeOid samplePlatform) [0x55, 0x1d, 0x13] :=
  ((decode_oid_correct_iff samplePlatform).1 _).mpr (.inr
    ⟨⟨basicConstraintsOid, content_basicConstraintsOid,
      (by decide : ∀ n ∈ basicConstraintsOid.subidentifiers, n < 2 ^ 53)⟩,
      fun b hb => Option.some.inj hb ▸ (by decide : (0x55 : UInt8).toNat < 120)⟩)

/-- **The reader of chains takes `2.999` for `3.16.55`.** -/
theorem oid_2_999_misread :
    ¬ ∀ (w : Platform) (bytes : List UInt8),
      ReadsAs w.decodeOid bytes ∧ ReadsAs (CertParser.decodeOid w) bytes := by
  intro h
  have hcontent : ObjectIdentifier.content ⟨2, 999, [], by decide, by decide⟩ = [0x88, 0x37] := by
    simp [ObjectIdentifier.content, ObjectIdentifier.subidentifiers, subidentifier, leading]
  have hread := (h samplePlatform [0x88, 0x37]).1.name _ hcontent
    (by decide : ∀ n ∈ [1079], n < 2 ^ 53)
  have hname : "3.16.55" = "2.999" := Except.ok.inj hread
  exact absurd hname (by decide)

end Frontend
