import MiniBanking.Go.JsonGrammar

/-!
# Reading back what was written

`json.Marshal` writes a structure in the order of its fields, and a map in the order of its
names. What it writes is a text of the value it was written for, whatever the strings are, and so
is read back as that value.

## Main definitions

* `render`: the text of a value with its members in their order
* `Numerals`, `Integral`: what the numbers of a value are like
* `int`, `bytes`, `strings`: values of fields
* `marshalStruct`, `omitempty`: the text of a structure, and members that may be left out

## Main results

* `spells_render`: what is written is a text of the value
* `parse_render`: values are read back
* `parse_marshalStruct`: the members of a structure are read back from its text
* `parseInt64_toString`: the number of a decimal text
-/

namespace Go

namespace Json

/-! ## Values -/

mutual

/-- The text of a value with the members of its objects in their order, as `json.Marshal` writes
structures. -/
def render : Json → List Char
  | null => "null".toList
  | bool b => if b then "true".toList else "false".toList
  | number literal => literal.toList
  | string s => quote s
  | array elems => '[' :: commas (renders elems) ++ [']']
  | object ms => '{' :: commas (renderMembers ms) ++ ['}']

/-- The texts of values. -/
def renders : List Json → List (List Char)
  | [] => []
  | v :: vs => render v :: renders vs

/-- The texts of members. -/
def renderMembers : List (String × Json) → List (List Char)
  | [] => []
  | (name, v) :: ms => (quote name ++ ':' :: render v) :: renderMembers ms

end

mutual

/-- The numbers of a value are decimal integers. -/
def Integral : Json → Prop
  | number literal => ∃ n : ℤ, literal = toString n
  | array elems => IntegralAll elems
  | object ms => IntegralMembers ms
  | _ => True

/-- The numbers of values are decimal integers. -/
def IntegralAll : List Json → Prop
  | [] => True
  | v :: vs => Integral v ∧ IntegralAll vs

/-- The numbers of members are decimal integers. -/
def IntegralMembers : List (String × Json) → Prop
  | [] => True
  | (_, v) :: ms => Integral v ∧ IntegralMembers ms

end

mutual

/-- The numbers of a value are what a text may have. -/
def Numerals : Json → Prop
  | number literal => Numeral literal.toList
  | array elems => NumeralsAll elems
  | object ms => NumeralsMembers ms
  | _ => True

/-- The numbers of values are what a text may have. -/
def NumeralsAll : List Json → Prop
  | [] => True
  | v :: vs => Numerals v ∧ NumeralsAll vs

/-- The numbers of members are what a text may have. -/
def NumeralsMembers : List (String × Json) → Prop
  | [] => True
  | (_, v) :: ms => Numerals v ∧ NumeralsMembers ms

end

mutual

theorem Integral.numerals (v : Json) (h : v.Integral) : v.Numerals := by
  match v with
  | null | bool _ | string _ => trivial
  | number literal =>
    obtain ⟨n, rfl⟩ := h
    exact numeral_int n
  | array vs => exact IntegralAll.numerals vs h
  | object ms => exact IntegralMembers.numerals ms h

theorem IntegralAll.numerals (vs : List Json) (h : IntegralAll vs) : NumeralsAll vs := by
  match vs with
  | [] => trivial
  | v :: vs => exact ⟨Integral.numerals v h.1, IntegralAll.numerals vs h.2⟩

theorem IntegralMembers.numerals (ms : List (String × Json)) (h : IntegralMembers ms) :
    NumeralsMembers ms := by
  match ms with
  | [] => trivial
  | (_, v) :: ms => exact ⟨Integral.numerals v h.1, IntegralMembers.numerals ms h.2⟩

end

/-! ## What is written -/

theorem Padded.of_spells {spells : List UInt8 → Prop} {t : List UInt8} (h : spells t) :
    Padded spells t :=
  ⟨[], t, [], (List.append_nil t).symm, rfl, rfl, h⟩

theorem spells_quote (s : String) : SpellsString s (encode (quote s)) := by
  refine ⟨_, ?_, chars_flatMap_quoteChar s.toList⟩
  rw [quote, encode_append, encode_cons]
  rfl

theorem commas_cons (t : List Char) {ts : List (List Char)} (h : ts ≠ []) :
    commas (t :: ts) = t ++ ',' :: commas ts := by
  cases ts with
  | nil => exact absurd rfl h
  | cons u us => rfl

theorem encode_comma (t u : List Char) : encode (t ++ ',' :: u) = encode t ++ 44 :: encode u := by
  rw [encode_append, encode_cons]
  rfl

theorem spells_member {name : String} {spells : List UInt8 → Prop} {t : List Char}
    (h : spells (encode t)) : SpellsMember name spells (encode (quote name ++ ':' :: t)) := by
  refine ⟨encode (quote name), encode t, ?_, .of_spells (spells_quote name), .of_spells h⟩
  rw [encode_append, encode_cons]
  rfl

theorem encode_between (o c : Char) (t : List Char) :
    encode (o :: t ++ [c]) = String.utf8EncodeChar o ++ (encode t ++ String.utf8EncodeChar c) := by
  simp

mutual

/-- **What is written is a text of the value.** -/
theorem spells_render (v : Json) (hv : v.Numerals) : Spells v (encode (render v)) := by
  match v with
  | null => rfl
  | bool b => rfl
  | number literal => exact ⟨hv, rfl⟩
  | string s => exact spells_quote s
  | array vs =>
    refine ⟨encode (commas (renders vs)), ?_, spells_renders vs hv⟩
    show encode ('[' :: commas (renders vs) ++ [']']) = _
    rw [encode_between]
    rfl
  | object ms =>
    refine ⟨encode (commas (renderMembers ms)), ?_, spells_renderMembers ms hv⟩
    show encode ('\x7b' :: commas (renderMembers ms) ++ ['\x7d']) = _
    rw [encode_between]
    rfl

theorem spells_renders (vs : List Json) (hvs : NumeralsAll vs) :
    SpellsElements vs (encode (commas (renders vs))) := by
  match vs with
  | [] => rfl
  | [v] => exact .of_spells (spells_render v hvs.1)
  | v :: w :: vs =>
    refine ⟨encode (render v), encode (commas (renders (w :: vs))), ?_,
      .of_spells (spells_render v hvs.1), spells_renders (w :: vs) hvs.2⟩
    rw [renders, commas_cons _ (by rw [renders]; exact List.cons_ne_nil _ _), encode_comma]

theorem spells_renderMembers (ms : List (String × Json)) (hms : NumeralsMembers ms) :
    SpellsMembers ms (encode (commas (renderMembers ms))) := by
  match ms with
  | [] => rfl
  | [(name, v)] => exact spells_member (spells_render v hms.1)
  | (name, v) :: m :: ms =>
    refine ⟨encode (quote name ++ ':' :: render v), encode (commas (renderMembers (m :: ms))), ?_,
      spells_member (spells_render v hms.1), spells_renderMembers (m :: ms) hms.2⟩
    rw [renderMembers, commas_cons _ (by rw [renderMembers]; exact List.cons_ne_nil _ _),
      encode_comma]

end

/-- A written value may stand as a text. -/
theorem isText_render {v : Json} (hv : v.Numerals) : IsText v (encode (render v)) :=
  .of_spells (spells_render v hv)

/-- **What is written is read back**: the text of a value whose numbers are integers, and whose
arrays and objects are not nested too deep. -/
theorem parse_render {v : Json} (hv : v.Integral) (hd : v.depth ≤ 10000) :
    parse (encode (render v)) = some v :=
  parse_of_isText (isText_render hv.numerals) hd

/-! ## Fields -/

/-- The text of a member of type `int64`. -/
def int (n : Int64) : Json := .number (toString n.toInt)

/-- The number of decimal digits, with its sign. -/
theorem parse_digits {sign : ℤ} {k : ℕ} {n : Int64} (h : sign * k = n.toInt) :
    (if (Nat.toDigits 10 k).isEmpty || (Nat.toDigits 10 k).any fun c => c < '0' || '9' < c then none
      else
        let n := sign * (Nat.toDigits 10 k).foldl (fun n c => 10 * n + (c.toNat - 48 : ℕ)) 0
        if -2 ^ 63 ≤ n && n < 2 ^ 63 then some (Int64.ofInt n) else none) = some n := by
  have hle := n.le_toInt
  have hlt := n.toInt_lt
  have hdigits : ((Nat.toDigits 10 k).isEmpty ||
      (Nat.toDigits 10 k).any fun c => c < '0' || '9' < c) = false := by
    rw [Bool.or_eq_false_iff, List.any_eq_false]
    refine ⟨by simp, fun c hc => ?_⟩
    have hdigit := (digits_toDigits k).2 c hc
    simp only [Char.isDigit, Bool.and_eq_true, decide_eq_true_eq, ge_iff_le] at hdigit
    simpa [Char.le_def] using hdigit
  have hfold : (Nat.toDigits 10 k).foldl (fun n c => 10 * n + (c.toNat - 48 : ℕ)) 0 = k :=
    Nat.ofDigitChars_ten_toDigits
  have hrange : (decide (-2 ^ 63 ≤ n.toInt) && decide (n.toInt < 2 ^ 63)) = true := by
    rw [Bool.and_eq_true, decide_eq_true_eq, decide_eq_true_eq]
    omega
  rw [hdigits, if_neg Bool.false_ne_true, hfold, h, if_pos hrange, Int64.ofInt_toInt]

/-- A decimal number is read back. -/
theorem parseInt64_toString (n : Int64) : parseInt64 (toString n.toInt) = some n := by
  unfold parseInt64
  rw [toList_int]
  by_cases hn : 0 ≤ n.toInt
  · rw [if_pos hn]
    have hread := parse_digits (show 1 * (n.toInt.toNat : ℤ) = n.toInt by omega)
    obtain ⟨c, cs, hd⟩ := List.exists_cons_of_ne_nil (digits_toDigits n.toInt.toNat).1
    have hc := (digits_toDigits n.toInt.toNat).2 c (hd ▸ List.mem_cons_self)
    rw [hd] at hread ⊢
    split
    next sign ds heq =>
    split at heq
    · next h =>
      rw [(List.cons.inj h).1] at hc
      exact absurd hc (by decide)
    · cases heq
      exact hread
  · rw [if_neg hn]
    exact parse_digits (show -1 * ((-n.toInt).toNat : ℤ) = n.toInt by omega)

/-- `[]byte` is written in base64. -/
def bytes (bs : List UInt8) : Json := .string (base64 bs)

/-! ## Members that are written and read -/

@[simp] theorem intoString_string (s old : String) : intoString (.string s) old = some s := rfl

@[simp] theorem intoInt64_int (n old : Int64) : intoInt64 (int n) old = some n :=
  parseInt64_toString n

@[simp] theorem intoBytes_bytes (bs old : List UInt8) : intoBytes (bytes bs) old = some bs :=
  decodeBase64_base64 bs

/-- The text of a member of type `[]string`. -/
def strings (ss : List String) : Json := .array (ss.map .string)

theorem intoSlice_strings (ss old : List String) :
    intoSlice intoString "" (ss.map .string) old = some ss := by
  induction ss generalizing old with
  | nil => rfl
  | cons s ss ih =>
    rw [List.map_cons, intoSlice, ih]
    rfl

@[simp] theorem intoStrings_strings (ss old : List String) :
    intoStrings (strings ss) old = some ss := intoSlice_strings ss old

@[simp] theorem integral_string (s : String) : Integral (.string s) := trivial

@[simp] theorem integral_int (n : Int64) : Integral (int n) := ⟨n.toInt, rfl⟩

@[simp] theorem integral_bytes (bs : List UInt8) : Integral (bytes bs) := trivial

@[simp] theorem integral_strings (ss : List String) : Integral (strings ss) := by
  show IntegralAll (ss.map .string)
  induction ss with
  | nil => trivial
  | cons s ss ih => exact ⟨trivial, ih⟩

@[simp] theorem depth_string (s : String) : depth (.string s) = 0 := rfl

@[simp] theorem depth_int (n : Int64) : depth (int n) = 0 := rfl

@[simp] theorem depth_bytes (bs : List UInt8) : depth (bytes bs) = 0 := rfl

@[simp] theorem depth_strings (ss : List String) : depth (strings ss) = 1 := by
  have hzero : depths (ss.map .string) = 0 := by
    induction ss with
    | nil => rfl
    | cons s ss ih => rw [List.map_cons, depths, ih]; rfl
  show depths (ss.map .string) + 1 = 1
  rw [hzero]

/-! ## Structures -/

/-- `json.Marshal` of a structure with these members. -/
def marshalStruct (ms : List (String × Json)) : List UInt8 := encode (object ms).render

/-- A member with `omitempty`. -/
def omitempty (empty : Bool) (name : String) (v : Json) : List (String × Json) :=
  if empty then [] else [(name, v)]

/-- A copy of a byte slice, which is `nil` if it is empty. -/
def bytesCopy (bs : List UInt8) : Json := if bs.isEmpty then null else bytes bs

/-- A copy of a slice of strings, which is `nil` if it is empty. -/
def stringsCopy (ss : List String) : Json := if ss.isEmpty then null else strings ss

@[simp] theorem integralMembers_cons (m : String × Json) (ms : List (String × Json)) :
    IntegralMembers (m :: ms) ↔ m.2.Integral ∧ IntegralMembers ms := Iff.rfl

@[simp] theorem integralMembers_nil : IntegralMembers [] := trivial

@[simp] theorem integralMembers_append (ms ns : List (String × Json)) :
    IntegralMembers (ms ++ ns) ↔ IntegralMembers ms ∧ IntegralMembers ns := by
  induction ms with
  | nil => simp
  | cons m ms ih => simp [ih, and_assoc]

@[simp] theorem memberDepths_cons (m : String × Json) (ms : List (String × Json)) :
    memberDepths (m :: ms) = max m.2.depth (memberDepths ms) := rfl

@[simp] theorem memberDepths_nil : memberDepths [] = 0 := rfl

@[simp] theorem memberDepths_append (ms ns : List (String × Json)) :
    memberDepths (ms ++ ns) = max (memberDepths ms) (memberDepths ns) := by
  induction ms with
  | nil => simp
  | cons m ms ih => simp [ih, max_assoc]

theorem integralMembers_omitempty {empty : Bool} {name : String} {v : Json} (hv : v.Integral) :
    IntegralMembers (omitempty empty name v) := by
  cases empty
  · exact ⟨hv, trivial⟩
  · trivial

theorem memberDepths_omitempty (empty : Bool) (name : String) {v : Json} (hv : v.depth = 0) :
    memberDepths (omitempty empty name v) = 0 := by
  cases empty
  · simp [omitempty, hv]
  · rfl

@[simp] theorem integral_bytesCopy (bs : List UInt8) : (bytesCopy bs).Integral := by
  unfold bytesCopy
  split <;> trivial

@[simp] theorem depth_bytesCopy (bs : List UInt8) : (bytesCopy bs).depth = 0 := by
  unfold bytesCopy
  split <;> rfl

@[simp] theorem integral_stringsCopy (ss : List String) : (stringsCopy ss).Integral := by
  unfold stringsCopy
  split
  · trivial
  · exact integral_strings ss

theorem depth_stringsCopy (ss : List String) : (stringsCopy ss).depth ≤ 1 := by
  unfold stringsCopy
  split
  · exact Nat.zero_le 1
  · exact (depth_strings ss).le

@[simp] theorem intoBytes_bytesCopy (bs old : List UInt8) :
    intoBytes (bytesCopy bs) old = some bs := by
  unfold bytesCopy
  split
  · next h => rw [List.isEmpty_iff.mp h]; rfl
  · exact intoBytes_bytes bs old

@[simp] theorem intoStrings_stringsCopy (ss old : List String) :
    intoStrings (stringsCopy ss) old = some ss := by
  unfold stringsCopy
  split
  · next h => rw [List.isEmpty_iff.mp h]; rfl
  · exact intoStrings_strings ss old

/-- The members of a structure are read back from its text. -/
theorem parse_marshalStruct {ms : List (String × Json)} (hms : IntegralMembers ms)
    (hd : memberDepths ms ≤ 9999) : parse (marshalStruct ms) = some (object ms) :=
  parse_render hms (Nat.succ_le_succ hd)

section Fields

variable {σ : Type} {fields : List (String × (Json → σ → Option σ))} {s t u : σ}

theorem intoFields_append {ms ns : List (String × Json)}
    (hms : (object ms).intoFields fields s = some t)
    (hns : (object ns).intoFields fields t = some u) :
    (object (ms ++ ns)).intoFields fields s = some u := by
  simp only [intoFields, List.foldlM_append] at hms hns ⊢
  rw [hms]
  exact hns

/-- The members are read one after the other. -/
theorem intoFields_cons {name : String} {v : Json} {into : Json → σ → Option σ}
    {ms : List (String × Json)} (hfield : field? fields name = some into)
    (hread : into v s = some t) (hms : (object ms).intoFields fields t = some u) :
    (object ((name, v) :: ms)).intoFields fields s = some u := by
  simp only [intoFields] at hms
  simpa [intoFields, hfield, hread] using hms

/-- A member is read into its field. -/
theorem intoFields_single {name : String} {v : Json} {into : Json → σ → Option σ}
    (hfield : field? fields name = some into) (hread : into v s = some t) :
    (object [(name, v)]).intoFields fields s = some t := intoFields_cons hfield hread rfl

/-- A member that may be left out is read into its field, which is at its zero value. -/
theorem intoFields_omitempty {empty : Bool} {name : String} {v : Json}
    {into : Json → σ → Option σ} (hzero : empty = true → s = t)
    (hfield : field? fields name = some into) (hread : into v s = some t) :
    (object (omitempty empty name v)).intoFields fields s = some t := by
  cases empty
  · exact intoFields_single hfield hread
  · rw [hzero rfl]
    rfl

end Fields

end Json

end Go
