import MiniBanking.Go.JsonLex

/-!
# The grammar of JSON

Which texts a value has: any blanks between the words, any escapes in the strings, and numbers as
they are written. Every text of a value is read as that value, as long as it is not nested too deep.

## Main definitions

* `Spells`: a value and its texts, without blanks around them
* `IsText`: a value and its texts
* `depth`: how deep arrays and objects are nested

## Main results

* `value_spells`: a text of a value is read as the value, whatever follows
* `parse_of_isText`: a whole text is read as its value
* `value_replicate`: brackets that are nested too deep are not read
-/

namespace Go

namespace Json

/-! ## Texts -/

/-- White space. -/
def isBlank (b : UInt8) : Bool := b = 32 || b = 9 || b = 10 || b = 13

/-- A text with blanks around it. -/
def Padded (spells : List UInt8 → Prop) (t : List UInt8) : Prop :=
  ∃ pre u post, t = pre ++ (u ++ post) ∧ pre.all isBlank = true ∧ post.all isBlank = true ∧ spells u

/-- The texts of a string, with its quotes. -/
def SpellsString (s : String) (t : List UInt8) : Prop :=
  ∃ body, t = 34 :: (body ++ [34]) ∧ Chars body s.toList

/-- The texts of a member of an object. -/
def SpellsMember (name : String) (spells : List UInt8 → Prop) (t : List UInt8) : Prop :=
  ∃ key u, t = key ++ 58 :: u ∧ Padded (SpellsString name) key ∧ Padded spells u

mutual

/-- The texts of a value, without blanks around them. -/
def Spells : Json → List UInt8 → Prop
  | null, t => t = encode "null".toList
  | bool b, t => t = encode (if b then "true".toList else "false".toList)
  | number literal, t => Numeral literal.toList ∧ t = encode literal.toList
  | string s, t => SpellsString s t
  | array elems, t => ∃ u, t = 91 :: (u ++ [93]) ∧ SpellsElements elems u
  | object ms, t => ∃ u, t = 123 :: (u ++ [125]) ∧ SpellsMembers ms u

/-- The texts of the elements of an array. -/
def SpellsElements : List Json → List UInt8 → Prop
  | [], t => t.all isBlank = true
  | [v], t => Padded (Spells v) t
  | v :: w :: vs, t => ∃ t₁ t₂, t = t₁ ++ 44 :: t₂ ∧ Padded (Spells v) t₁ ∧
      SpellsElements (w :: vs) t₂

/-- The texts of the members of an object. -/
def SpellsMembers : List (String × Json) → List UInt8 → Prop
  | [], t => t.all isBlank = true
  | [(name, v)], t => SpellsMember name (Spells v) t
  | (name, v) :: m :: ms, t => ∃ t₁ t₂, t = t₁ ++ 44 :: t₂ ∧ SpellsMember name (Spells v) t₁ ∧
      SpellsMembers (m :: ms) t₂

end

/-- The texts of a value. -/
def IsText (v : Json) : List UInt8 → Prop := Padded (Spells v)

mutual

/-- How deep arrays and objects are nested. -/
def depth : Json → ℕ
  | array elems => depths elems + 1
  | object ms => memberDepths ms + 1
  | _ => 0

/-- How deep arrays and objects are nested in values. -/
def depths : List Json → ℕ
  | [] => 0
  | v :: vs => max (depth v) (depths vs)

/-- How deep arrays and objects are nested in members. -/
def memberDepths : List (String × Json) → ℕ
  | [] => 0
  | (_, v) :: ms => max (depth v) (memberDepths ms)

end

/-! ## Blanks -/

section Blanks

variable {b : UInt8} {pre rest : List UInt8}

theorem skipSpace_blank (h : pre.all isBlank = true) (rest : List UInt8) :
    skipSpace (pre ++ rest) = skipSpace rest :=
  List.dropWhile_append_of_pos (List.all_eq_true.mp h)

theorem skipSpace_cons (h : isBlank b = false) (rest : List UInt8) :
    skipSpace (b :: rest) = b :: rest :=
  List.dropWhile_cons_of_neg (by rw [← isBlank, h]; exact Bool.false_ne_true)

theorem skipSpace_blank_cons (h : pre.all isBlank = true) (hb : isBlank b = false)
    (rest : List UInt8) : skipSpace (pre ++ b :: rest) = b :: rest := by
  rw [skipSpace_blank h, skipSpace_cons hb]

/-- Blanks and what ends a value end a number. -/
theorem stops_blank (h : pre.all isBlank = true) (hrest : Stops rest) : Stops (pre ++ rest) := by
  cases pre with
  | nil => exact hrest
  | cons b pre =>
    have hb : isBlank b = true := List.all_eq_true.mp h b List.mem_cons_self
    simp only [isBlank, Bool.or_eq_true, decide_eq_true_eq] at hb
    rintro _ ⟨⟩
    rcases hb with ((rfl | rfl) | rfl) | rfl <;> decide

theorem stops_nil : Stops [] := by rintro b ⟨⟩

theorem stops_cons (hb : b = 44 ∨ b = 93 ∨ b = 125) : Stops (b :: rest) := by
  rintro _ ⟨⟩
  rcases hb with rfl | rfl | rfl <;> decide

end Blanks

/-! ## First bytes -/

theorem byte_of_numeral {b : UInt8} (h : b = 45 ∨ isDigit b = true) :
    45 ≤ b.toNat ∧ b.toNat ≤ 57 := by
  rcases h with rfl | h
  · decide
  · simp only [isDigit, Bool.and_eq_true, decide_eq_true_eq, UInt8.le_iff_toNat_le] at h
    exact ⟨Nat.le_trans (by decide) h.1, h.2⟩

theorem byte_ne {b : UInt8} {n : ℕ} (h : b.toNat ≠ n) (hn : n < 256) : b ≠ UInt8.ofNat n :=
  fun heq => h (by rw [heq, toNat_byte hn])

/-- A text starts with a byte that is no blank and ends no list. -/
theorem Spells.first {v : Json} {t : List UInt8} (h : Spells v t) :
    ∃ b tail, t = b :: tail ∧ b ≠ 93 ∧ isBlank b = false := by
  cases v with
  | null =>
    subst h
    exact ⟨110, _, rfl, by decide, rfl⟩
  | bool b =>
    subst h
    cases b
    · exact ⟨102, _, rfl, by decide, rfl⟩
    · exact ⟨116, _, rfl, by decide, rfl⟩
  | number literal =>
    obtain ⟨hliteral, rfl⟩ := h
    obtain ⟨b, tail, heq, hb⟩ := hliteral.first
    have := byte_of_numeral hb
    refine ⟨b, tail, heq, byte_ne (n := 93) (by omega) (by decide), ?_⟩
    simp only [isBlank, Bool.or_eq_false_iff, decide_eq_false_iff_not]
    exact ⟨⟨⟨byte_ne (n := 32) (by omega) (by decide), byte_ne (n := 9) (by omega) (by decide)⟩,
      byte_ne (n := 10) (by omega) (by decide)⟩, byte_ne (n := 13) (by omega) (by decide)⟩
  | string s =>
    obtain ⟨body, rfl, -⟩ := h
    exact ⟨34, _, rfl, by decide, rfl⟩
  | array elems =>
    obtain ⟨u, rfl, -⟩ := h
    exact ⟨91, _, rfl, by decide, rfl⟩
  | object ms =>
    obtain ⟨u, rfl, -⟩ := h
    exact ⟨123, _, rfl, by decide, rfl⟩

/-! ## Reading -/

-- the equations of the reader are derived here, once for all proofs that rewrite with them
section Equations

attribute [local simp] value elements members

end Equations

section Steps

variable {fuel d : ℕ} {v : Json} {name : String} {pre post bytes rest tail t : List UInt8}

/-- A value is read after blanks. -/
theorem value_blank (h : pre.all isBlank = true) (bytes : List UInt8) :
    value fuel d (pre ++ bytes) = value fuel d bytes := by
  cases fuel with
  | zero => simp only [value]
  | succ fuel => simp only [value, skipSpace_blank h]

theorem value_number {literal : String} (h : Numeral literal.toList) (hrest : Stops rest) :
    value (fuel + 1) d (encode literal.toList ++ rest) = some (number literal, rest) := by
  have hread := numberText_encode h hrest
  obtain ⟨b, tail, heq, hblank⟩ := h.first
  have hb := byte_of_numeral hblank
  have hfirst := Spells.first (v := number literal) ⟨h, rfl⟩
  rw [heq, List.cons_append] at hread ⊢
  have hspace : isBlank b = false := by
    obtain ⟨b', tail', heq', -, hspace⟩ := hfirst
    rw [heq] at heq'
    rw [(List.cons.inj heq').1, hspace]
  have hne : ∀ k : ℕ, 57 < k → k < 256 → b ≠ UInt8.ofNat k := fun k hk hk' =>
    byte_ne (by omega) hk'
  rw [value, skipSpace_cons hspace]
  split
  · next h => exact absurd (List.cons.inj h).1 (hne 110 (by decide) (by decide))
  · next h => exact absurd (List.cons.inj h).1 (hne 116 (by decide) (by decide))
  · next h => exact absurd (List.cons.inj h).1 (hne 102 (by decide) (by decide))
  · next h => exact absurd (List.cons.inj h).1 (byte_ne (n := 34) (by omega) (by decide))
  · next h => exact absurd (List.cons.inj h).1 (hne 91 (by decide) (by decide))
  · next h => exact absurd (List.cons.inj h).1 (hne 123 (by decide) (by decide))
  · rw [hread]
    simp

/-- A string is read up to its closing quote. -/
theorem stringBody_text {body : List UInt8} {cs : List Char} (h : Chars body cs)
    (rest : List UInt8) :
    stringBody ((body ++ 34 :: rest).length + 1) (body ++ 34 :: rest) = some (cs, rest) := by
  have hle := h.length_le
  refine stringBody_chars h ?_ rest
  simp only [List.length_append]
  omega

theorem value_string {s : String} (h : SpellsString s t) (rest : List UInt8) :
    value (fuel + 1) d (t ++ rest) = some (string s, rest) := by
  obtain ⟨body, rfl, hbody⟩ := h
  rw [List.cons_append, List.append_assoc, List.singleton_append, value, skipSpace_cons rfl]
  simp only [stringBody_text hbody, Option.bind_eq_bind, Option.bind_some, String.ofList_toList,
    Option.pure_def]

theorem elements_last (h : value fuel d bytes = some (v, post ++ 93 :: rest))
    (hpost : post.all isBlank = true) : elements (fuel + 1) d bytes = some ([v], rest) := by
  simp only [elements, h, Option.bind_eq_bind, Option.bind_some]
  rw [skipSpace_blank_cons hpost rfl]
  rfl

theorem elements_next {vs : List Json} (h : value fuel d bytes = some (v, post ++ 44 :: rest))
    (hpost : post.all isBlank = true) (hrest : elements fuel d rest = some (vs, tail)) :
    elements (fuel + 1) d bytes = some (v :: vs, tail) := by
  simp only [elements, h, Option.bind_eq_bind, Option.bind_some]
  rw [skipSpace_blank_cons hpost rfl]
  simp only [hrest, Option.bind_some, Option.pure_def]

theorem members_last {key : List UInt8} (hkey : Padded (SpellsString name) key)
    (h : value fuel d bytes = some (v, post ++ 125 :: rest)) (hpost : post.all isBlank = true) :
    members (fuel + 1) d (key ++ 58 :: bytes) = some ([(name, v)], rest) := by
  obtain ⟨pre, _, after, rfl, hpre, hafter, body, rfl, hbody⟩ := hkey
  simp only [List.append_assoc, List.cons_append, List.nil_append]
  rw [members, skipSpace_blank_cons hpre rfl]
  simp only [stringBody_text hbody, Option.bind_eq_bind, Option.bind_some]
  rw [skipSpace_blank_cons hafter rfl]
  simp only [h, Option.bind_some]
  rw [skipSpace_blank_cons hpost rfl]
  simp only [String.ofList_toList, Option.pure_def]

theorem members_next {key : List UInt8} {ms : List (String × Json)}
    (hkey : Padded (SpellsString name) key)
    (h : value fuel d bytes = some (v, post ++ 44 :: rest)) (hpost : post.all isBlank = true)
    (hrest : members fuel d rest = some (ms, tail)) :
    members (fuel + 1) d (key ++ 58 :: bytes) = some ((name, v) :: ms, tail) := by
  obtain ⟨pre, _, after, rfl, hpre, hafter, body, rfl, hbody⟩ := hkey
  simp only [List.append_assoc, List.cons_append, List.nil_append]
  rw [members, skipSpace_blank_cons hpre rfl]
  simp only [stringBody_text hbody, Option.bind_eq_bind, Option.bind_some]
  rw [skipSpace_blank_cons hafter rfl]
  simp only [h, Option.bind_some]
  rw [skipSpace_blank_cons hpost rfl]
  simp only [hrest, Option.bind_some, String.ofList_toList, Option.pure_def]

theorem value_array {vs : List Json} {b : UInt8} (hpre : pre.all isBlank = true) (hb : b ≠ 93)
    (hblank : isBlank b = false) (h : elements fuel d (b :: bytes) = some (vs, rest)) :
    value (fuel + 1) (d + 1) (91 :: (pre ++ b :: bytes)) = some (array vs, rest) := by
  rw [value, skipSpace_cons rfl]
  simp only [skipSpace_blank_cons hpre hblank]
  split
  · next heq => exact absurd (List.cons.inj heq).1 hb
  · rw [h]
    rfl

theorem value_object {ms : List (String × Json)} (hpre : pre.all isBlank = true)
    (h : members fuel d (34 :: bytes) = some (ms, rest)) :
    value (fuel + 1) (d + 1) (123 :: (pre ++ 34 :: bytes)) = some (object ms, rest) := by
  rw [value, skipSpace_cons rfl]
  simp only [skipSpace_blank_cons (b := 34) hpre rfl]
  split
  · next heq => exact absurd (List.cons.inj heq).1 (by decide)
  · rw [h]
    rfl

theorem elements_blank (h : pre.all isBlank = true) (bytes : List UInt8) :
    elements fuel d (pre ++ bytes) = elements fuel d bytes := by
  cases fuel with
  | zero => simp only [elements]
  | succ fuel => simp only [elements, value_blank h]

theorem members_blank (h : pre.all isBlank = true) (bytes : List UInt8) :
    members fuel d (pre ++ bytes) = members fuel d bytes := by
  cases fuel with
  | zero => simp only [members]
  | succ fuel => simp only [members, skipSpace_blank h]

end Steps

/-- The elements of an array start with a byte that does not end it. -/
theorem SpellsElements.first {v : Json} {vs : List Json} {t : List UInt8}
    (h : SpellsElements (v :: vs) t) :
    ∃ pre b tail, t = pre ++ b :: tail ∧ pre.all isBlank = true ∧ b ≠ 93 ∧ isBlank b = false := by
  have hpadded : ∀ u, Padded (Spells v) u → ∃ pre b tail, u = pre ++ b :: tail ∧
      pre.all isBlank = true ∧ b ≠ 93 ∧ isBlank b = false := by
    rintro u ⟨pre, u, post, rfl, hpre, -, hu⟩
    obtain ⟨b, tail, rfl, hb, hblank⟩ := hu.first
    exact ⟨pre, b, tail ++ post, rfl, hpre, hb, hblank⟩
  cases vs with
  | nil => exact hpadded t h
  | cons w vs =>
    obtain ⟨t₁, t₂, rfl, hv, -⟩ := h
    obtain ⟨pre, b, tail, rfl, hpre, hb, hblank⟩ := hpadded t₁ hv
    exact ⟨pre, b, tail ++ 44 :: t₂, by simp, hpre, hb, hblank⟩

/-- The members of an object start with a quote. -/
theorem SpellsMembers.first {m : String × Json} {ms : List (String × Json)} {t : List UInt8}
    (h : SpellsMembers (m :: ms) t) :
    ∃ pre tail, t = pre ++ 34 :: tail ∧ pre.all isBlank = true := by
  have hmember : ∀ u, SpellsMember m.1 (Spells m.2) u → ∃ pre tail, u = pre ++ 34 :: tail ∧
      pre.all isBlank = true := by
    rintro _ ⟨_, u, rfl, ⟨pre, _, post, rfl, hpre, -, body, rfl, -⟩, -⟩
    exact ⟨pre, body ++ 34 :: (post ++ 58 :: u), by simp, hpre⟩
  cases ms with
  | nil => exact hmember t h
  | cons m' ms =>
    obtain ⟨t₁, t₂, rfl, hm, -⟩ := h
    obtain ⟨pre, tail, rfl, hpre⟩ := hmember t₁ hm
    exact ⟨pre, tail ++ 44 :: t₂, by simp, hpre⟩

mutual

/-- **A text of a value is read as the value.** -/
theorem value_spells (v : Json) {t : List UInt8} (h : Spells v t) {fuel d : ℕ} (hd : v.depth ≤ d)
    (hfuel : t.length ≤ fuel) {rest : List UInt8} (hrest : Stops rest) :
    value fuel d (t ++ rest) = some (v, rest) := by
  have hpos : 0 < fuel := by
    obtain ⟨b, tail, rfl, -⟩ := h.first
    exact Nat.lt_of_lt_of_le (Nat.succ_pos _) hfuel
  obtain ⟨fuel, rfl⟩ := Nat.exists_eq_add_one.mpr hpos
  match v with
  | null =>
    subst h
    rfl
  | bool b =>
    subst h
    cases b <;> rfl
  | number literal =>
    obtain ⟨hliteral, rfl⟩ := h
    exact value_number hliteral hrest
  | string s => exact value_string h rest
  | array [] =>
    obtain ⟨u, rfl, hu⟩ := h
    obtain ⟨d, rfl⟩ := Nat.exists_eq_add_one.mpr (Nat.lt_of_lt_of_le (Nat.succ_pos _) hd)
    rw [List.cons_append, List.append_assoc, List.singleton_append, value, skipSpace_cons rfl]
    simp only [skipSpace_blank_cons hu (show isBlank 93 = false from rfl)]
  | array (v :: vs) =>
    obtain ⟨u, rfl, hu⟩ := h
    obtain ⟨d, rfl⟩ := Nat.exists_eq_add_one.mpr (Nat.lt_of_lt_of_le (Nat.succ_pos _) hd)
    have hlt : u.length < fuel := by
      simp only [List.length_cons, List.length_append, List.length_nil] at hfuel
      omega
    have hread := elements_spells (v :: vs) (List.cons_ne_nil _ _) hu (Nat.le_of_succ_le_succ hd)
      hlt rest
    obtain ⟨pre, b, tail, rfl, hpre, hb, hblank⟩ := hu.first
    rw [List.append_assoc, elements_blank hpre, List.cons_append] at hread
    rw [List.cons_append, List.append_assoc, List.append_assoc, List.singleton_append,
      List.cons_append]
    exact value_array hpre hb hblank hread
  | object [] =>
    obtain ⟨u, rfl, hu⟩ := h
    obtain ⟨d, rfl⟩ := Nat.exists_eq_add_one.mpr (Nat.lt_of_lt_of_le (Nat.succ_pos _) hd)
    rw [List.cons_append, List.append_assoc, List.singleton_append, value, skipSpace_cons rfl]
    simp only [skipSpace_blank_cons hu (show isBlank 125 = false from rfl)]
  | object (m :: ms) =>
    obtain ⟨u, rfl, hu⟩ := h
    obtain ⟨d, rfl⟩ := Nat.exists_eq_add_one.mpr (Nat.lt_of_lt_of_le (Nat.succ_pos _) hd)
    have hlt : u.length < fuel := by
      simp only [List.length_cons, List.length_append, List.length_nil] at hfuel
      omega
    have hread := members_spells (m :: ms) (List.cons_ne_nil _ _) hu (Nat.le_of_succ_le_succ hd)
      hlt rest
    obtain ⟨pre, tail, rfl, hpre⟩ := hu.first
    rw [List.append_assoc, members_blank hpre, List.cons_append] at hread
    rw [List.cons_append, List.append_assoc, List.append_assoc, List.singleton_append,
      List.cons_append]
    exact value_object hpre hread

/-- The elements of an array are read from their text. -/
theorem elements_spells (vs : List Json) (hne : vs ≠ []) {t : List UInt8}
    (h : SpellsElements vs t) {fuel d : ℕ} (hds : depths vs ≤ d) (hfuel : t.length < fuel)
    (rest : List UInt8) : elements fuel d (t ++ 93 :: rest) = some (vs, rest) := by
  obtain ⟨fuel, rfl⟩ := Nat.exists_eq_add_one_of_ne_zero (Nat.ne_zero_of_lt hfuel)
  match vs with
  | [v] =>
    obtain ⟨pre, u, post, rfl, hpre, hpost, hu⟩ := h
    simp only [List.length_append] at hfuel
    have hstops : Stops (post ++ 93 :: rest) := stops_blank hpost (stops_cons (by simp))
    have hread := value_spells v hu (Nat.le_trans (Nat.le_max_left _ _) hds)
      (show u.length ≤ fuel by omega) hstops
    rw [← value_blank hpre] at hread
    simp only [List.append_assoc]
    exact elements_last hread hpost
  | v :: w :: vs =>
    obtain ⟨_, t₂, rfl, ⟨pre, u, post, rfl, hpre, hpost, hu⟩, hvs⟩ := h
    have hd := Nat.max_le.mp hds
    simp only [List.length_append, List.length_cons] at hfuel
    have hstops : Stops (post ++ 44 :: (t₂ ++ 93 :: rest)) :=
      stops_blank hpost (stops_cons (by simp))
    have hread := value_spells v hu hd.1 (show u.length ≤ fuel by omega) hstops
    rw [← value_blank hpre] at hread
    simp only [List.append_assoc, List.cons_append]
    exact elements_next hread hpost
      (elements_spells (w :: vs) (List.cons_ne_nil _ _) hvs hd.2 (by omega) rest)

/-- The members of an object are read from their text. -/
theorem members_spells (ms : List (String × Json)) (hne : ms ≠ []) {t : List UInt8}
    (h : SpellsMembers ms t) {fuel d : ℕ} (hds : memberDepths ms ≤ d) (hfuel : t.length < fuel)
    (rest : List UInt8) : members fuel d (t ++ 125 :: rest) = some (ms, rest) := by
  obtain ⟨fuel, rfl⟩ := Nat.exists_eq_add_one_of_ne_zero (Nat.ne_zero_of_lt hfuel)
  match ms with
  | [(name, v)] =>
    obtain ⟨key, _, rfl, hkey, pre, u, post, rfl, hpre, hpost, hu⟩ := h
    simp only [List.length_append, List.length_cons] at hfuel
    have hstops : Stops (post ++ 125 :: rest) := stops_blank hpost (stops_cons (by simp))
    have hread := value_spells v hu (Nat.le_trans (Nat.le_max_left _ _) hds)
      (show u.length ≤ fuel by omega) hstops
    rw [← value_blank hpre] at hread
    simp only [List.append_assoc, List.cons_append]
    exact members_last hkey hread hpost
  | (name, v) :: m :: ms =>
    obtain ⟨_, t₂, rfl, ⟨key, _, rfl, hkey, pre, u, post, rfl, hpre, hpost, hu⟩, hms⟩ := h
    have hd := Nat.max_le.mp hds
    simp only [List.length_append, List.length_cons] at hfuel
    have hstops : Stops (post ++ 44 :: (t₂ ++ 125 :: rest)) :=
      stops_blank hpost (stops_cons (by simp))
    have hread := value_spells v hu hd.1 (show u.length ≤ fuel by omega) hstops
    rw [← value_blank hpre] at hread
    simp only [List.append_assoc, List.cons_append]
    exact members_next hkey hread hpost
      (members_spells (m :: ms) (List.cons_ne_nil _ _) hms hd.2 (by omega) rest)

end

section Whole

variable {v : Json} {t : List UInt8}

/-- A text is read up to the blanks after it. -/
theorem value_of_isText (h : IsText v t) (hd : v.depth ≤ 10000) :
    ∃ post, value (t.length + 1) 10000 t = some (v, post) ∧ post.all isBlank = true := by
  obtain ⟨pre, u, post, rfl, hpre, hpost, hu⟩ := h
  have hread := value_spells v hu hd
    (show u.length ≤ (pre ++ (u ++ post)).length + 1 by
      simp only [List.length_append]
      omega) (stops_blank hpost stops_nil)
  rw [List.append_nil, ← value_blank hpre] at hread
  exact ⟨post, hread, hpost⟩

/-- **A text is read as its value.** -/
theorem parse_of_isText (h : IsText v t) (hd : v.depth ≤ 10000) : parse t = some v := by
  obtain ⟨post, hread, hpost⟩ := value_of_isText h hd
  have hskip := skipSpace_blank hpost []
  rw [List.append_nil] at hskip
  rw [parse, hread]
  simp only [Option.bind_eq_bind, Option.bind_some, hskip]
  rfl

/-- Brackets that are nested too deep are not read. -/
theorem value_replicate {n d : ℕ} (h : d < n) (fuel : ℕ) (rest : List UInt8) :
    value fuel d (List.replicate n 91 ++ rest) = none := by
  induction d generalizing n fuel with
  | zero =>
    obtain ⟨n, rfl⟩ := Nat.exists_eq_add_one_of_ne_zero (Nat.ne_zero_of_lt h)
    cases fuel with
    | zero => simp only [value]
    | succ fuel =>
      rw [List.replicate_succ, List.cons_append, value, skipSpace_cons rfl]
      rfl
  | succ d ih =>
    obtain ⟨n, rfl⟩ := Nat.exists_eq_add_one_of_ne_zero (Nat.ne_zero_of_lt h)
    obtain ⟨n, rfl⟩ := Nat.exists_eq_add_one_of_ne_zero (Nat.ne_zero_of_lt (Nat.lt_of_succ_lt_succ h))
    cases fuel with
    | zero => simp only [value]
    | succ fuel =>
      have hinner : elements fuel d (List.replicate (n + 1) 91 ++ rest) = none := by
        cases fuel with
        | zero => simp only [elements]
        | succ fuel =>
          simp only [elements, ih (Nat.lt_of_succ_lt_succ h), Option.bind_eq_bind, Option.bind_none]
      rw [List.replicate_succ, List.cons_append, value, skipSpace_cons rfl]
      simp only [List.replicate_succ (n := n), List.cons_append] at hinner ⊢
      simp only [skipSpace_cons (show isBlank 91 = false from rfl)]
      split
      · next heq => exact absurd (List.cons.inj heq).1 (by decide)
      · rw [hinner]
        rfl

end Whole

end Json

end Go
