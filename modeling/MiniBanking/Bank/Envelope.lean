import MiniBanking.Bank.Payload
import MiniBanking.Go.JsonObject

/-!
# Envelopes and the order of map entries

The runtime visits the entries of a map in any order. A flat envelope is taken apart by a loop over
its entries, in which the signature is what was read last under one of its two names, so that the
order decides which of two different signatures counts.

## Main definitions

* `isSignature`: the entry is a signature
* `Ambiguous`: an envelope with two different signatures

## Main results

* `foldl_splitEntry`: the loop puts the payload together in any order
* `parseEnvelope_order`: the outcome depends on the order exactly if the envelope is ambiguous
-/

namespace Bank

open Go Json

/-! ## The loop -/

/-- The entry is a signature, by its name. -/
def isSignature (e : String × Json) : Bool := e.1 = "client_signature" ∨ e.1 = "signature"

/-- The payload of a flat envelope. -/
def flatPayload (envelope : List (String × Json)) : List (String × Json) :=
  envelope.filter fun e => !isSignature e

/-- The text that is left when signatures are read one after the other. -/
def readSignatures (entries : List (String × Json)) (sigText : String) : String :=
  entries.foldl (fun sigText e => intoSigText e.2 sigText) sigText

/-- The loop over a flat envelope: the entries of the payload are put into a map, the signatures
are read one after the other. -/
theorem foldl_splitEntry (entries : List (String × Json)) (m : List (String × Json))
    (sigText : String) : entries.foldl splitEntry (m, sigText) =
      ((flatPayload entries).foldl (fun m (name, v) => insertMember name v m) m,
        readSignatures (entries.filter isSignature) sigText) := by
  induction entries generalizing m sigText with
  | nil => rfl
  | cons e entries ih =>
    obtain ⟨name, v⟩ := e
    rw [List.foldl_cons]
    by_cases h : name = "client_signature" ∨ name = "signature"
    · have hsig : isSignature (name, v) = true := decide_eq_true h
      rw [splitEntry, if_pos h, ih, List.filter_cons_of_pos hsig, flatPayload, flatPayload,
        List.filter_cons_of_neg (by rw [hsig]; exact Bool.false_ne_true)]
      rfl
    · have hsig : isSignature (name, v) = false := decide_eq_false h
      rw [splitEntry, if_neg h, ih,
        List.filter_cons_of_neg (by rw [hsig]; exact Bool.false_ne_true), flatPayload, flatPayload,
        List.filter_cons_of_pos (by rw [hsig]; rfl)]
      rfl

/-- The payload does not depend on the order of the entries. -/
theorem flatPayload_of_perm {envelope entries : List (String × Json)} (h : InOrder envelope)
    (hperm : entries.Perm envelope) :
    (flatPayload entries).foldl (fun m (name, v) => insertMember name v m) [] =
      flatPayload envelope := by
  have horder : InOrder (flatPayload envelope) := h.filter _
  have hnodup : ((flatPayload entries).map Prod.fst).Nodup :=
    (((hperm.filter _).map Prod.fst).nodup_iff).mpr horder.nodup
  exact (ofMembers_perm (hperm.filter _) hnodup).trans (ofMembers_of_inOrder horder)

/-! ## Signatures -/

/-- The text of a signature, if it is one. -/
def textOf : Json → Option String
  | .string s => some s
  | _ => none

theorem intoSigText_eq (v : Json) (sigText : String) :
    intoSigText v sigText = (textOf v).getD sigText := by
  cases v <;> rfl

/-- What is not a text leaves the text that was read before. -/
theorem readSignatures_eq (entries : List (String × Json)) (sigText : String) :
    readSignatures entries sigText =
      (entries.filterMap fun e => textOf e.2).getLast?.getD sigText := by
  induction entries using List.reverseRecOn with
  | nil => rfl
  | append_singleton entries e ih =>
    rw [readSignatures] at ih
    rw [readSignatures, List.foldl_append, List.foldl_cons, List.foldl_nil, intoSigText_eq,
      List.filterMap_append]
    cases htext : textOf e.2 with
    | none => simpa [htext] using ih
    | some s => simp [htext]

/-- The text under a name of an envelope. -/
def signatureText (envelope : List (String × Json)) (name : String) : Option String :=
  (envelope.lookup name).bind textOf

/-- The entries with the signatures, one after the other. -/
theorem filter_isSignature {envelope : List (String × Json)} (h : InOrder envelope) :
    envelope.filter isSignature =
      ((envelope.lookup "client_signature").map fun v => ("client_signature", v)).toList ++
        ((envelope.lookup "signature").map fun v => ("signature", v)).toList := by
  have hnodup : ((envelope.filter isSignature).map Prod.fst).Nodup := InOrder.nodup (h.filter _)
  refine InOrder.ext (h.filter _) ?_ fun name => Option.ext fun v => ?_
  · cases envelope.lookup "client_signature" <;> cases envelope.lookup "signature" <;>
      simp [InOrder]
    decide
  · rw [lookup_eq_some_iff_mem hnodup, List.mem_filter, ← lookup_eq_some_iff_mem h.nodup]
    by_cases hclient : name = "client_signature"
    · subst hclient
      cases envelope.lookup "client_signature" <;> simp [isSignature]
      cases envelope.lookup "signature" <;> simp [List.lookup_cons]
    by_cases hsig : name = "signature"
    · subst hsig
      cases envelope.lookup "client_signature" <;> cases envelope.lookup "signature" <;>
        simp [isSignature, List.lookup_cons]
    · have hclient' : (name == "client_signature") = false := beq_false_of_ne hclient
      have hsig' : (name == "signature") = false := beq_false_of_ne hsig
      cases envelope.lookup "client_signature" <;> cases envelope.lookup "signature" <;>
        simp [isSignature, List.lookup_cons, hclient, hsig, hclient', hsig']

/-- The texts of the signatures come in one of two orders. -/
theorem texts_of_perm {envelope entries : List (String × Json)} (h : InOrder envelope)
    (hperm : entries.Perm envelope) :
    ((entries.filter isSignature).filterMap fun e => textOf e.2).Perm
      ((signatureText envelope "client_signature").toList ++
        (signatureText envelope "signature").toList) := by
  refine ((hperm.filter isSignature).filterMap _).trans (List.Perm.of_eq ?_)
  rw [filter_isSignature h, List.filterMap_append, signatureText, signatureText]
  have hone : ∀ (name : String) (v : Option Json),
      (v.map fun v => (name, v)).toList.filterMap (fun e => textOf e.2) =
        (v.bind textOf).toList := by
    intro name v
    cases v with
    | none => rfl
    | some v => cases htext : textOf v <;> simp [htext]
  rw [hone, hone]

theorem eq_or_eq_of_perm_pair {α : Type} {l : List α} {a b : α} (h : l.Perm [a, b]) :
    l = [a, b] ∨ l = [b, a] := by
  obtain ⟨x, y, rfl⟩ := List.length_eq_two.mp h.length_eq
  rcases List.mem_pair.mp (h.subset List.mem_cons_self) with hx | hx
  · rw [hx] at h ⊢
    rw [List.singleton_perm_singleton.mp (List.Perm.cons_inv h)]
    exact .inl rfl
  · rw [hx] at h ⊢
    rw [List.singleton_perm_singleton.mp (List.Perm.cons_inv (h.trans (List.Perm.swap b a [])))]
    exact .inr rfl

/-! ## Envelopes with two signatures -/

/-- The envelope has two signatures, of which the order decides, and is right in all else: it is
flat, has a text under either name of a signature that stands for another signature than the other
text, and its payload is complete. -/
def Ambiguous (envelope : List (String × Json)) : Prop :=
  envelope.lookup "payload" = none ∧
    (parsePayload (Json.object (flatPayload envelope)).marshal).isSome ∧
    ∃ client signature, signatureText envelope "client_signature" = some client ∧
      signatureText envelope "signature" = some signature ∧ client ≠ "" ∧
      decodeSignature client ≠ decodeSignature signature

/-- The signature that is left after the loop over a flat envelope and the fallback behind it. -/
def flatSigText (envelope entries : List (String × Json)) : String :=
  let sigText := ((entries.filter isSignature).filterMap fun e => textOf e.2).getLast?.getD ""
  if sigText = "" then (signatureText envelope "signature").getD "" else sigText

theorem splitEnvelope_flat {order : List ℕ} {envelope : List (String × Json)}
    (h : InOrder envelope) (hflat : envelope.lookup "payload" = none) :
    splitEnvelope order envelope =
      (.object (flatPayload envelope), flatSigText envelope (arrange order envelope)) := by
  simp only [splitEnvelope, hflat, foldl_splitEntry, flatPayload_of_perm h (arrange_perm order _),
    readSignatures_eq, flatSigText, signatureText]
  split
  · next hempty =>
    rw [hempty]
    cases envelope.lookup "signature" with
    | none => rfl
    | some v => exact Prod.ext rfl (intoSigText_eq v "")
  · rfl

/-- A nested envelope is taken apart without a loop. -/
theorem splitEnvelope_nested {order order' : List ℕ} {envelope : List (String × Json)}
    (h : envelope.lookup "payload" ≠ none) :
    splitEnvelope order envelope = splitEnvelope order' envelope := by
  obtain ⟨v, hv⟩ := Option.ne_none_iff_exists'.mp h
  simp only [splitEnvelope, hv]

/-- With one signature at most, the order does not count. -/
theorem flatSigText_of_one {envelope entries : List (String × Json)} (h : InOrder envelope)
    (hperm : entries.Perm envelope)
    (hone : signatureText envelope "client_signature" = none ∨
      signatureText envelope "signature" = none) :
    flatSigText envelope entries = flatSigText envelope envelope := by
  have htexts := texts_of_perm h hperm
  have htexts' := texts_of_perm h (List.Perm.refl envelope)
  have hsame : (entries.filter isSignature).filterMap (fun e => textOf e.2) =
      (envelope.filter isSignature).filterMap fun e => textOf e.2 := by
    have hshort : ∀ {l l' : List String} {a : Option String}, l.Perm a.toList → l'.Perm a.toList →
        l = l' := by
      intro l l' a hl hl'
      cases a with
      | none => rw [List.perm_nil.mp hl, List.perm_nil.mp hl']
      | some a => rw [List.perm_singleton.mp hl, List.perm_singleton.mp hl']
    rcases hone with hnone | hnone
    · rw [hnone] at htexts htexts'
      exact hshort htexts htexts'
    · rw [hnone, Option.toList_none, List.append_nil] at htexts htexts'
      exact hshort htexts htexts'
  rw [flatSigText, hsame, flatSigText]

/-- With two signatures, the one that is visited last counts, unless it is empty. -/
theorem flatSigText_of_two {envelope entries : List (String × Json)} {client signature : String}
    (h : InOrder envelope) (hperm : entries.Perm envelope)
    (hclient : signatureText envelope "client_signature" = some client)
    (hsig : signatureText envelope "signature" = some signature) :
    flatSigText envelope entries = signature ∨
      client ≠ "" ∧ flatSigText envelope entries = client := by
  have htexts := texts_of_perm h hperm
  rw [hclient, hsig] at htexts
  rw [flatSigText, hsig]
  rcases eq_or_eq_of_perm_pair htexts with heq | heq
  · rw [heq]
    refine .inl ?_
    simp
  · rw [heq]
    by_cases hempty : client = ""
    · exact .inl (by simp [hempty])
    · exact .inr ⟨hempty, by simp [hempty]⟩

/-- Either signature counts in some order. -/
theorem exists_order {envelope : List (String × Json)} {client signature : String}
    (h : InOrder envelope) (hclient : signatureText envelope "client_signature" = some client)
    (hsig : signatureText envelope "signature" = some signature) (hne : client ≠ "") :
    (∃ order, flatSigText envelope (arrange order envelope) = signature) ∧
      ∃ order, flatSigText envelope (arrange order envelope) = client := by
  have htexts : (envelope.filter isSignature).filterMap (fun e => textOf e.2) =
      [client, signature] := by
    obtain ⟨v, hv, hclient⟩ := Option.bind_eq_some_iff.mp hclient
    obtain ⟨w, hw, hsig⟩ := Option.bind_eq_some_iff.mp hsig
    rw [filter_isSignature h, hv, hw]
    simp [hclient, hsig]
  obtain ⟨order, horder⟩ := exists_arrange (List.Perm.refl envelope)
  obtain ⟨order', horder'⟩ := exists_arrange (List.reverse_perm envelope)
  refine ⟨⟨order, ?_⟩, order', ?_⟩
  · rw [horder, flatSigText, htexts, hsig]
    simp
  · rw [horder', flatSigText, List.filter_reverse, List.filterMap_reverse, htexts]
    simp [hne]

/-! ## Outcomes -/

theorem inOrder_of_intoMap {json : Json} {envelope : List (String × Json)}
    (h : intoMap json = some envelope) : InOrder envelope := by
  cases json with
  | null =>
    cases h
    exact List.Pairwise.nil
  | object ms =>
    cases h
    exact inOrder_ofMembers ms
  | _ => cases h

/-- What becomes of a payload and the text of its signature. -/
def outcome (payloadRaw : Json) (sigText : String) :
    Option (TransferPayload × List UInt8 × List UInt8) := do
  let signature ← decodeSignature sigText
  return (← parsePayload payloadRaw.marshal, payloadRaw.marshal, signature)

theorem parseEnvelope_eq {raw : List UInt8} {json : Json} {envelope : List (String × Json)}
    (hjson : Json.parse raw = some json) (henvelope : intoMap json = some envelope)
    (order : List ℕ) : parseEnvelope order raw =
      outcome (splitEnvelope order envelope).1 (splitEnvelope order envelope).2 := by
  simp only [parseEnvelope, hjson, henvelope, Option.bind_eq_bind, Option.bind_some, outcome]

/-- The outcome shows the signature, unless the payload is refused anyway. -/
theorem outcome_eq_iff {payloadRaw : Json} {sigText sigText' : String} :
    outcome payloadRaw sigText = outcome payloadRaw sigText' ↔
      (parsePayload payloadRaw.marshal).isSome →
        decodeSignature sigText = decodeSignature sigText' := by
  simp only [outcome, Option.bind_eq_bind]
  cases parsePayload payloadRaw.marshal with
  | none => simp
  | some payload =>
    cases decodeSignature sigText <;> cases decodeSignature sigText' <;> simp

/-- **The outcome depends on the order exactly if the envelope is ambiguous.** -/
theorem parseEnvelope_order (raw : List UInt8) :
    (∀ order order', parseEnvelope order raw = parseEnvelope order' raw) ↔
      ∀ json envelope, Json.parse raw = some json → intoMap json = some envelope →
        ¬ Ambiguous envelope := by
  constructor
  · rintro hsame json envelope hjson henvelope ⟨hflat, hpayload, client, signature, hclient, hsig,
      hne, hdiffer⟩
    have horder := inOrder_of_intoMap henvelope
    obtain ⟨⟨order, hfirst⟩, order', hsecond⟩ := exists_order horder hclient hsig hne
    have heq := hsame order' order
    rw [parseEnvelope_eq hjson henvelope, parseEnvelope_eq hjson henvelope,
      splitEnvelope_flat horder hflat, splitEnvelope_flat horder hflat, outcome_eq_iff] at heq
    rw [hfirst, hsecond] at heq
    exact hdiffer (heq hpayload)
  · intro hclear order order'
    cases hjson : Json.parse raw with
    | none => simp [parseEnvelope, hjson]
    | some json =>
    cases henvelope : intoMap json with
    | none => simp [parseEnvelope, hjson, henvelope]
    | some envelope =>
    have horder := inOrder_of_intoMap henvelope
    rw [parseEnvelope_eq hjson henvelope, parseEnvelope_eq hjson henvelope]
    by_cases hflat : envelope.lookup "payload" = none
    swap
    · rw [splitEnvelope_nested hflat]
    rw [splitEnvelope_flat horder hflat, splitEnvelope_flat horder hflat, outcome_eq_iff]
    intro hpayload
    have hperm := arrange_perm order envelope
    have hperm' := arrange_perm order' envelope
    cases hclient : signatureText envelope "client_signature" with
    | none =>
      rw [flatSigText_of_one horder hperm (.inl hclient),
        flatSigText_of_one horder hperm' (.inl hclient)]
    | some client =>
    cases hsig : signatureText envelope "signature" with
    | none =>
      rw [flatSigText_of_one horder hperm (.inr hsig),
        flatSigText_of_one horder hperm' (.inr hsig)]
    | some signature =>
      -- whichever signature counts, both stand for the same one
      have hboth : client ≠ "" → decodeSignature client = decodeSignature signature := by
        intro hne
        by_contra hdiffer
        exact hclear json envelope hjson henvelope
          ⟨hflat, hpayload, client, signature, hclient, hsig, hne, hdiffer⟩
      have hdecode : ∀ {entries : List (String × Json)}, entries.Perm envelope →
          decodeSignature (flatSigText envelope entries) = decodeSignature signature := by
        intro entries hentries
        rcases flatSigText_of_two horder hentries hclient hsig with h | ⟨hne, h⟩
        · rw [h]
        · rw [h, hboth hne]
      rw [hdecode hperm, hdecode hperm']

/-- A flat envelope with the signatures 1 and 2. -/
def sampleEnvelope : List UInt8 :=
  (Json.object [("amount", .number "5"), ("client_signature", .string "AQ=="),
    ("from_account_number", .string "1"), ("idempotency_key", .string "k"),
    ("signature", .string "Ag=="), ("to_account_number", .string "2")]).marshal

/-- Its signature is the one of the entry that is visited last. -/
theorem sampleEnvelope_order :
    ¬ ∀ raw order order', parseEnvelope order raw = parseEnvelope order' raw := by
  intro h
  have hsame : (parseEnvelope [] sampleEnvelope).map (·.2.2) =
      (parseEnvelope [4] sampleEnvelope).map (·.2.2) := by rw [h]
  exact absurd hsame (by decide +kernel)

end Bank
