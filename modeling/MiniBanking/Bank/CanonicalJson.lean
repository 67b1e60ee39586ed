import MiniBanking.Bank.Envelope
import MiniBanking.Go.JsonCanonical

/-!
# The canonical text of a payload

A client signs the text of its payload, and the bank verifies the signature against a text of its own:
the payload is decoded into maps, with numbers as they are written, and written again. However the
client spells the payload, the bank comes to the same text.

## Main definitions

* `canonicalJSON`: the text that is verified
* `nested`: an array in an array, and so on

## Main results

* `parseEnvelope_of_canonical`: what an envelope says depends on its canonical form alone
* `canonicalJSON_canonical`: the canonical text is one, for texts that are not nested too deep
* `canonicalJSON_too_deep`: other texts have none
-/

namespace Bank

open Go Json

/-- `canonicalJSON`: the first value of a text, decoded with `UseNumber` and written again. -/
def canonicalJSON (raw : List UInt8) : Option (List UInt8) := do
  let (value, _) ← Json.value (raw.length + 1) 10000 raw
  return value.marshal

section Texts

variable {v w : Json} {text : List UInt8}

/-- The canonical text of a payload is what `decryptTransferPayload` verifies. -/
theorem canonicalJSON_of_isText (h : IsText v text) (hdepth : v.depth ≤ 10000) :
    canonicalJSON text = some v.marshal := by
  obtain ⟨post, hread, -⟩ := value_of_isText h hdepth
  rw [canonicalJSON, hread]
  rfl

theorem isText_marshal (h : IsText v text) : IsText (canonical v) v.marshal := by
  rw [marshal_eq]
  exact isText_render (numerals_canonical v h.numerals)

end Texts

/-! ## Envelopes -/

section Envelopes

variable {envelope : List (String × Json)} {v w : Json} {order : List ℕ}

theorem arrange_map {α β : Type} (f : α → β) (order : List ℕ) (xs : List α) :
    arrange order (xs.map f) = (arrange order xs).map f := by
  induction order generalizing xs with
  | nil => cases xs <;> rfl
  | cons n order ih =>
    cases xs with
    | nil => rfl
    | cons x xs =>
      have hlt : n % (xs.length + 1) < (x :: xs).length := Nat.mod_lt _ (Nat.succ_pos _)
      simp only [List.map_cons, arrange, List.length_map]
      rw [← List.map_cons, List.eraseIdx_map, ih, List.getElem?_map,
        List.getElem?_eq_getElem hlt, Option.map_some, Option.getD_some, Option.getD_some]

theorem lookup_canonical (name : String) :
    (envelope.map (Prod.map id canonical)).lookup name = (envelope.lookup name).map canonical := by
  induction envelope with
  | nil => rfl
  | cons e envelope ih =>
    obtain ⟨name', v⟩ := e
    rw [List.map_cons, Prod.map_apply, id_eq, List.lookup_cons, List.lookup_cons, ih]
    split <;> rfl

/-- A signature is read from a canonical form as from the value. -/
theorem intoSigText_canonical (v : Json) (sigText : String) :
    intoSigText (canonical v) sigText = intoSigText v sigText := by
  cases v <;> rfl

theorem foldl_splitEntry_canonical (entries m : List (String × Json)) (sigText : String) :
    (entries.map (Prod.map id canonical)).foldl splitEntry
        (m.map (Prod.map id canonical), sigText) =
      Prod.map (List.map (Prod.map id canonical)) id (entries.foldl splitEntry (m, sigText)) := by
  induction entries generalizing m sigText with
  | nil => rfl
  | cons e entries ih =>
    obtain ⟨name, v⟩ := e
    rw [List.map_cons, List.foldl_cons, List.foldl_cons, Prod.map_apply, id_eq, splitEntry,
      splitEntry]
    by_cases h : name = "client_signature" ∨ name = "signature"
    · rw [if_pos h, if_pos h, intoSigText_canonical, ih]
    · rw [if_neg h, if_neg h, insertMember_map, ih]

theorem marshal_object_canonical (ms : List (String × Json)) :
    (Json.object (ms.map (Prod.map id canonical))).marshal = (Json.object ms).marshal := by
  have hmap : canonicalMembers (ms.map (Prod.map id canonical)) = canonicalMembers ms := by
    rw [canonicalMembers_eq_map, canonicalMembers_eq_map, List.map_map]
    refine List.map_congr_left fun m _ => ?_
    exact Prod.ext rfl (canonical_canonical m.2)
  rw [marshal_eq, marshal_eq, canonical, canonical, hmap]

/-- An envelope of canonical forms has the same payload text and the same signature. -/
theorem splitEnvelope_canonical (order : List ℕ) (envelope : List (String × Json)) :
    (splitEnvelope order (envelope.map (Prod.map id canonical))).1.marshal =
        (splitEnvelope order envelope).1.marshal ∧
      (splitEnvelope order (envelope.map (Prod.map id canonical))).2 =
        (splitEnvelope order envelope).2 := by
  have hfold := foldl_splitEntry_canonical (arrange order envelope) [] ""
  rw [List.map_nil] at hfold
  -- the payload and the signature that is read with it
  have hfirst : ∀ (payload payload' : Json) (sigText text : String),
      payload.marshal = payload'.marshal →
      (if sigText = "" then (payload, text) else (payload, sigText)).1.marshal =
          (if sigText = "" then (payload', text) else (payload', sigText)).1.marshal ∧
        (if sigText = "" then (payload, text) else (payload, sigText)).2 =
          (if sigText = "" then (payload', text) else (payload', sigText)).2 := by
    intro payload payload' sigText text hpayload
    split
    · exact ⟨hpayload, rfl⟩
    · exact ⟨hpayload, rfl⟩
  cases hpayload : envelope.lookup "payload" with
  | none =>
    simp only [splitEnvelope, lookup_canonical, arrange_map, hfold, hpayload, Option.map_none]
    cases envelope.lookup "signature" with
    | none => exact hfirst _ _ _ _ (marshal_object_canonical _)
    | some s =>
      simp only [Option.map_some, intoSigText_canonical]
      exact hfirst _ _ _ _ (marshal_object_canonical _)
  | some v =>
    simp only [splitEnvelope, lookup_canonical, hpayload, Option.map_some]
    cases envelope.lookup "client_signature" with
    | none =>
      cases envelope.lookup "signature" with
      | none => exact hfirst _ _ _ _ (marshal_canonical v)
      | some s =>
        simp only [Option.map_none, Option.map_some, intoSigText_canonical, if_true]
        exact ⟨marshal_canonical v, trivial⟩
    | some s =>
      simp only [Option.map_some, intoSigText_canonical]
      cases envelope.lookup "signature" with
      | none => exact hfirst _ _ _ _ (marshal_canonical v)
      | some s' =>
        simp only [Option.map_some, intoSigText_canonical]
        exact hfirst _ _ _ _ (marshal_canonical v)

theorem intoMap_canonical (v : Json) :
    intoMap (canonical v) = (intoMap v).map (List.map (Prod.map id canonical)) := by
  cases v with
  | object ms =>
    show some (ofMembers (ofMembers (canonicalMembers ms))) =
      some ((ofMembers ms).map (Prod.map id canonical))
    rw [ofMembers_of_inOrder (inOrder_ofMembers _), canonicalMembers_eq_map, ofMembers_map]
  | _ => rfl

/-- **What an envelope says depends on its canonical form alone.** -/
theorem parseEnvelope_of_canonical {raw raw' : List UInt8} (hraw : Json.parse raw = some v)
    (hraw' : Json.parse raw' = some w) (h : canonical w = canonical v) (order : List ℕ) :
    parseEnvelope order raw' = parseEnvelope order raw := by
  have hmap : (intoMap w).map (List.map (Prod.map id canonical)) =
      (intoMap v).map (List.map (Prod.map id canonical)) := by
    rw [← intoMap_canonical, ← intoMap_canonical, h]
  cases hv : intoMap v with
  | none =>
    rw [hv, Option.map_none, Option.map_eq_none_iff] at hmap
    simp only [parseEnvelope, hraw, hraw', hv, hmap, Option.bind_eq_bind, Option.bind_some]
  | some envelope =>
    rw [hv, Option.map_some, Option.map_eq_some_iff] at hmap
    obtain ⟨envelope', hw, hentries⟩ := hmap
    obtain ⟨hpayload, hsig⟩ := splitEnvelope_canonical order envelope
    obtain ⟨hpayload', hsig'⟩ := splitEnvelope_canonical order envelope'
    rw [hentries] at hpayload' hsig'
    rw [parseEnvelope_eq hraw' hw, parseEnvelope_eq hraw hv, outcome, outcome, ← hpayload',
      ← hsig', hpayload, hsig]

end Envelopes

/-! ## The canonical form -/

/-- **The canonical text of a payload is a canonical form.** A text that is not nested too deep, in
which no object has two names that are read alike, has one. It is read as the same value up to the
order of members and has itself as its canonical text, and every other text of the value, with its
members in any order, has the same one and says the same as an envelope. -/
theorem canonicalJSON_canonical {v : Json} {text : List UInt8} (h : IsText v text)
    (hnames : v.Distinct) (hdepth : v.depth ≤ 10000) :
    ∃ out w, canonicalJSON text = some out ∧ Json.parse out = some w ∧ Reordered v w ∧
      canonicalJSON out = some out ∧
      ∀ v' text', Reordered v v' → IsText v' text' → canonicalJSON text' = some out ∧
        ∀ order, parseEnvelope order text' = parseEnvelope order text := by
  have hreordered := reordered_canonical v hnames
  have hout : IsText (canonical v) v.marshal := isText_marshal h
  have hdepth' : ∀ {v'}, Reordered v v' → v'.depth ≤ 10000 := fun hv' => by
    rwa [depth_of_reordered v _ hv']
  refine ⟨v.marshal, canonical v, canonicalJSON_of_isText h hdepth,
    parse_of_isText hout (hdepth' hreordered), hreordered, ?_, ?_⟩
  · rw [canonicalJSON_of_isText hout (hdepth' hreordered), marshal_canonical]
  · intro v' text' hv' htext'
    have hcanonical := canonical_of_reordered v v' hv' hnames
    constructor
    · rw [canonicalJSON_of_isText htext' (hdepth' hv'), marshal_eq, marshal_eq, hcanonical]
    · exact parseEnvelope_of_canonical (parse_of_isText h hdepth)
        (parse_of_isText htext' (hdepth' hv')) hcanonical

section Samples

/-- A number with a zero at its end. -/
theorem numeral_sample : Numeral "1.50".toList := by
  refine ⟨[], ['1'], ['.', '5', '0'], [], by decide +kernel, .inl rfl, ?_, ?_, .inl rfl⟩
  · exact .inr ⟨⟨by decide, List.all_eq_true.mp rfl⟩, by decide⟩
  · exact .inr ⟨['5', '0'], rfl, by decide, List.all_eq_true.mp rfl⟩

/-- Two members, of which one is a character that is escaped when it is written. -/
def sampleMembers : List (String × Json) := [("b", .number "1.50"), ("a", .string "<")]

theorem isText_sampleMembers : IsText (.object sampleMembers) (encode (render (.object sampleMembers))) :=
  isText_render ⟨numeral_sample, trivial, trivial⟩

/-- A text with the members the other way around, a blank and no escape. -/
def sampleSpelling : List UInt8 := utf8 "\x7b \"a\":\"<\",\"b\":1.50\x7d"

theorem isText_sampleSpelling : IsText (.object sampleMembers.reverse) sampleSpelling := by
  have hbytes : sampleSpelling = 123 :: (([32, 34, 97, 34] ++ 58 :: [34, 60, 34]) ++
      44 :: ([34, 98, 34] ++ 58 :: encode "1.50".toList) ++ [125]) := by decide +kernel
  have ha : SpellsString "a" [34, 97, 34] :=
    ⟨[97], rfl, Chars.rune (c := 'a') (by decide) (by decide) (by decide) .nil⟩
  have hb : SpellsString "b" [34, 98, 34] :=
    ⟨[98], rfl, Chars.rune (c := 'b') (by decide) (by decide) (by decide) .nil⟩
  have hless : SpellsString "<" [34, 60, 34] :=
    ⟨[60], rfl, Chars.rune (c := '<') (by decide) (by decide) (by decide) .nil⟩
  refine .of_spells ⟨_, hbytes, _, _, rfl, ⟨_, _, rfl, ?_, .of_spells hless⟩,
    _, _, rfl, .of_spells hb, .of_spells ⟨numeral_sample, rfl⟩⟩
  exact ⟨[32], _, [], rfl, rfl, rfl, ha⟩

/-- Both texts have the same canonical text. -/
theorem canonicalJSON_canonical_of_sample :
    canonicalJSON (encode (render (.object sampleMembers))) = canonicalJSON sampleSpelling := by
  obtain ⟨out, w, hout, -, -, -, hsame⟩ := canonicalJSON_canonical isText_sampleMembers
    ⟨by decide, trivial, trivial, trivial⟩ (by decide)
  have hreordered : Reordered (.object sampleMembers) (.object sampleMembers.reverse) :=
    ⟨sampleMembers, _, rfl, ⟨_, _, rfl, rfl, _, _, rfl, rfl, rfl⟩, (List.reverse_perm _).symm⟩
  rw [hout, (hsame _ _ hreordered isText_sampleSpelling).1]

end Samples

/-! ## Texts that are nested too deep -/

/-- An array in an array, and so on. -/
def nested : ℕ → Json
  | 0 => .array []
  | n + 1 => .array [nested n]

theorem distinct_nested (n : ℕ) : (nested n).Distinct := by
  induction n with
  | zero => trivial
  | succ n ih => exact ⟨ih, trivial⟩

theorem spells_nested (n : ℕ) :
    Spells (nested n) (List.replicate (n + 1) 91 ++ List.replicate (n + 1) 93) := by
  induction n with
  | zero => exact ⟨[], rfl, rfl⟩
  | succ n ih =>
    refine ⟨_, ?_, Padded.of_spells ih⟩
    rw [List.replicate_succ, List.replicate_succ' (n := n + 1), List.cons_append, List.append_assoc]

/-- Ten thousand and one brackets are a text without a canonical one. -/
theorem canonicalJSON_too_deep : ¬ ∀ v text, IsText v text → v.Distinct →
    ∃ out, canonicalJSON text = some out := by
  intro h
  obtain ⟨out, hout⟩ := h _ _ (Padded.of_spells (spells_nested 10000)) (distinct_nested 10000)
  rw [canonicalJSON, value_replicate (by decide)] at hout
  cases hout

end Bank
