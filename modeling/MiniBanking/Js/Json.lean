import MiniBanking.Go.JsonCanonical
import Mathlib.Data.List.Sort

/-!
# JSON of JavaScript

`JSON.stringify` of an object of strings and safe integers with the names of its members given,
and what becomes of its text when the characters that HTML treats specially are escaped as the
Go standard library escapes them. A string without unpaired surrogates is a list of characters.

## Main definitions

* `SafeInteger`, `Value`, `Record`: the values
* `sortNames`: `Array.prototype.sort` of strings
* `stringify`: `JSON.stringify` with a list of names
* `escapeHTML`: the characters `<`, `>`, `&`, U+2028 and U+2029 as escapes

## Main results

* `escapeHTML_stringify`: the escaped text is the one Go writes for the same members
* `escapeHTML_eq_self`: the escapes leave exactly the texts without these characters
* `lookup_eq_of_stringify`: objects with one text have the same members
-/

namespace Js

open Go

/-! ## Values -/

/-- `Number.isSafeInteger`. -/
structure SafeInteger where
  val : ℤ
  safe : |val| ≤ 9007199254740991
  deriving DecidableEq

/-- `string | number`. -/
inductive Value where
  | string (s : String)
  | number (n : SafeInteger)
  deriving DecidableEq

/-- `Record<string, string | number>`: the properties in the order they were added. -/
abbrev Record := List (String × Value)

/-- The code units of a string in UTF-16. -/
def codeUnits (s : String) : List ℕ :=
  s.toList.flatMap fun c =>
    if c.toNat < 0x10000 then [c.toNat]
    else [0xD800 + (c.toNat - 0x10000) / 1024, 0xDC00 + (c.toNat - 0x10000) % 1024]

/-- `names.sort()`, which compares code units. -/
def sortNames (names : List String) : List String :=
  names.insertionSort fun a b => codeUnits a ≤ codeUnits b

/-! ## Texts -/

/-- A character of a string as `JSON.stringify` writes it. -/
def quoteChar (c : Char) : List Char :=
  let n := c.toNat
  if n = 8 then ['\\', 'b']
  else if n = 9 then ['\\', 't']
  else if n = 10 then ['\\', 'n']
  else if n = 12 then ['\\', 'f']
  else if n = 13 then ['\\', 'r']
  else if c = '"' || c = '\\' then ['\\', c]
  else if n < 0x20 then ['\\', 'u', '0', '0', hexDigit (n / 16), hexDigit (n % 16)]
  else [c]

/-- `JSON.stringify` of a string. -/
def quote (s : String) : List Char := '"' :: s.toList.flatMap quoteChar ++ ['"']

/-- `JSON.stringify` of a value. -/
def stringifyValue : Value → List Char
  | .string s => quote s
  | .number n => (toString n.val).toList

/-- `JSON.stringify(obj, names)`: the properties with these names, in their order. -/
def stringify (obj : Record) (names : List String) : List Char :=
  '{' :: Json.commas (names.filterMap fun name =>
    (obj.lookup name).map fun v => quote name ++ ':' :: stringifyValue v) ++ ['}']

/-- A character of a text, escaped if HTML treats it specially. -/
def escapeChar (c : Char) : List Char :=
  if c = '<' then "\\u003c".toList
  else if c = '>' then "\\u003e".toList
  else if c = '&' then "\\u0026".toList
  else if c.toNat = 0x2028 then "\\u2028".toList
  else if c.toNat = 0x2029 then "\\u2029".toList
  else [c]

/-- A text with these characters escaped. -/
def escapeHTML (text : List Char) : List Char := text.flatMap escapeChar

/-! ## The text that Go writes -/

/-- The value as Go reads it. -/
def Value.json : Value → Json
  | .string s => .string s
  | .number n => .number (toString n.val)

/-- The properties with these names as Go reads them. -/
def membersOf (obj : Record) (names : List String) : List (String × Json) :=
  names.filterMap fun name => (obj.lookup name).map fun v => (name, v.json)

@[simp] theorem escapeHTML_nil : escapeHTML [] = [] := rfl

@[simp] theorem escapeHTML_cons (c : Char) (text : List Char) :
    escapeHTML (c :: text) = escapeChar c ++ escapeHTML text := rfl

@[simp] theorem escapeHTML_append (text text' : List Char) :
    escapeHTML (text ++ text') = escapeHTML text ++ escapeHTML text' := List.flatMap_append

/-- Digits, letters and the signs of JSON stay as they are. -/
theorem escapeChar_plain {c : Char} (hc : c.toNat < 0x80) (hlt : c ≠ '<') (hgt : c ≠ '>')
    (hamp : c ≠ '&') : escapeChar c = [c] := by
  rw [escapeChar, if_neg hlt, if_neg hgt, if_neg hamp, if_neg (by omega), if_neg (by omega)]

theorem escapeHTML_plain {text : List Char} (h : ∀ c ∈ text, escapeChar c = [c]) :
    escapeHTML text = text := by
  induction text with
  | nil => rfl
  | cons c text ih =>
    rw [escapeHTML_cons, h c (List.mem_cons_self ..),
      ih fun d hd => h d (List.mem_cons_of_mem _ hd)]
    rfl

theorem escapeChar_hexDigit : ∀ m < 16, escapeChar (hexDigit m) = [hexDigit m] := by decide

/-- A control character has a short escape or the one of its code. -/
theorem escapeHTML_control : ∀ n < 0x20,
    escapeHTML (quoteChar (Char.ofNat n)) = Json.quoteChar (Char.ofNat n) := by decide

/-- **Both languages write a character alike**, once it is escaped. -/
theorem escapeHTML_quoteChar (c : Char) : escapeHTML (quoteChar c) = Json.quoteChar c := by
  by_cases hcontrol : c.toNat < 0x20
  · have h := escapeHTML_control c.toNat hcontrol
    rwa [Char.ofNat_toNat] at h
  by_cases hquote : c = '"' ∨ c = '\\'
  · rcases hquote with rfl | rfl <;> rfl
  obtain ⟨hq, hb⟩ := not_or.mp hquote
  have hlarge : quoteChar c = [c] := by
    unfold quoteChar
    simp only [hq, hb, decide_false, Bool.or_self, Bool.false_eq_true, if_false]
    split_ifs <;> first | rfl | omega
  rw [hlarge, escapeHTML_cons, escapeHTML_nil, List.append_nil]
  -- the five characters that `escapeChar` names are the ones Go escapes above the space
  by_cases hspecial : c = '<' ∨ c = '>' ∨ c = '&'
  · rcases hspecial with rfl | rfl | rfl <;> rfl
  obtain ⟨hlt, hgt, hamp⟩ : c ≠ '<' ∧ c ≠ '>' ∧ c ≠ '&' := by
    simpa only [not_or] using hspecial
  unfold escapeChar Json.quoteChar
  simp only [hq, hb, hlt, hgt, hamp, decide_false, Bool.or_self, Bool.false_eq_true, if_false,
    Bool.or_false, Bool.or_eq_true, decide_eq_true_eq]
  by_cases h28 : c.toNat = 0x2028
  · rw [h28]
    rfl
  by_cases h29 : c.toNat = 0x2029
  · rw [h29]
    rfl
  rw [if_neg h28, if_neg h29]
  split_ifs <;> first | rfl | omega

/-- Both languages write a string alike, once it is escaped. -/
theorem escapeHTML_quote (s : String) : escapeHTML (quote s) = Json.quote s := by
  have hbody : ∀ cs : List Char, escapeHTML (cs.flatMap quoteChar) = cs.flatMap Json.quoteChar := by
    intro cs
    induction cs with
    | nil => rfl
    | cons c cs ih =>
      rw [List.flatMap_cons, List.flatMap_cons, escapeHTML_append, escapeHTML_quoteChar, ih]
  rw [quote, escapeHTML_append, escapeHTML_cons, hbody]
  rfl

/-- A number has no character to escape. -/
theorem escapeHTML_int (n : ℤ) : escapeHTML (toString n).toList = (toString n).toList := by
  refine escapeHTML_plain fun c hc => ?_
  have hdigit : ∀ d : Char, d.isDigit = true → escapeChar d = [d] := by
    intro d hd
    have hrange : d.toNat ≤ '9'.toNat := (Char.isDigit_iff_toNat.mp hd).2
    refine escapeChar_plain (Nat.lt_of_le_of_lt hrange (by decide)) ?_ ?_ ?_ <;>
    · rintro rfl
      exact absurd hd (by decide)
  rw [Json.toList_int] at hc
  split at hc
  · exact hdigit c ((Json.digits_toDigits _).2 c hc)
  · rcases List.mem_cons.mp hc with rfl | hc
    · rfl
    · exact hdigit c ((Json.digits_toDigits _).2 c hc)

/-- Both languages write a value alike, once it is escaped. -/
theorem escapeHTML_value (v : Value) : escapeHTML (stringifyValue v) = v.json.render := by
  cases v with
  | string s => exact escapeHTML_quote s
  | number n => exact escapeHTML_int n.val

theorem escapeHTML_commas (texts : List (List Char)) :
    escapeHTML (Json.commas texts) = Json.commas (texts.map escapeHTML) := by
  induction texts with
  | nil => rfl
  | cons t ts ih =>
    cases ts with
    | nil => rfl
    | cons t' ts =>
      show escapeHTML (t ++ ',' :: Json.commas (t' :: ts)) = _
      rw [escapeHTML_append, escapeHTML_cons, ih]
      rfl

/-- **The escaped text is the one Go writes** for a structure with these members. -/
theorem escapeHTML_stringify (obj : Record) (names : List String) :
    escapeHTML (stringify obj names) = (Json.object (membersOf obj names)).render := by
  have hmembers : (names.filterMap fun name => (obj.lookup name).map fun v =>
      quote name ++ ':' :: stringifyValue v).map escapeHTML =
        Json.renderMembers (membersOf obj names) := by
    unfold membersOf
    induction names with
    | nil => rfl
    | cons name names ih =>
      cases hlookup : obj.lookup name with
      | none => simpa [hlookup] using ih
      | some v =>
        simp only [List.filterMap_cons, hlookup, Option.map_some, List.map_cons,
          Json.renderMembers, escapeHTML_append, escapeHTML_cons, escapeHTML_quote,
          escapeHTML_value, ih]
        rfl
  rw [stringify, escapeHTML_append, escapeHTML_cons, escapeHTML_commas, hmembers, Json.render]
  rfl

/-! ## Texts without such characters -/

/-- HTML treats the character specially. -/
def IsSpecial (c : Char) : Prop :=
  c = '<' ∨ c = '>' ∨ c = '&' ∨ c.toNat = 0x2028 ∨ c.toNat = 0x2029

instance (c : Char) : Decidable (IsSpecial c) := by unfold IsSpecial; infer_instance

/-- The characters of a text are looked at one by one, not all characters that there are. -/
instance (text : List Char) : Decidable (∀ c ∈ text, ¬ IsSpecial c) :=
  List.decidableBAll _ text

theorem escapeChar_eq {c : Char} : escapeChar c = [c] ↔ ¬ IsSpecial c := by
  unfold escapeChar IsSpecial
  constructor
  · intro h
    -- each escape has six characters
    have hlong : ∀ {text : String}, 1 < text.toList.length → text.toList ≠ [c] :=
      fun h1 heq => absurd (congrArg List.length heq) (Nat.ne_of_gt h1)
    split at h
    · exact absurd h (hlong (by decide))
    split at h
    · exact absurd h (hlong (by decide))
    split at h
    · exact absurd h (hlong (by decide))
    split at h
    · exact absurd h (hlong (by decide))
    split at h
    · exact absurd h (hlong (by decide))
    simp only [not_or]
    exact ⟨‹_›, ‹_›, ‹_›, ‹_›, ‹_›⟩
  · intro h
    simp only [not_or] at h
    rw [if_neg h.1, if_neg h.2.1, if_neg h.2.2.1, if_neg h.2.2.2.1, if_neg h.2.2.2.2]

/-- An escape is never shorter than what it stands for. -/
theorem length_escapeHTML (text : List Char) : text.length ≤ (escapeHTML text).length := by
  induction text with
  | nil => exact Nat.le_refl _
  | cons c text ih =>
    have hpos : 1 ≤ (escapeChar c).length := by
      unfold escapeChar
      split_ifs <;> first | decide | exact Nat.le_refl _
    rw [escapeHTML_cons, List.length_append, List.length_cons]
    omega

/-- **The escapes leave exactly the texts without special characters.** -/
theorem escapeHTML_eq_self {text : List Char} :
    escapeHTML text = text ↔ ∀ c ∈ text, ¬ IsSpecial c := by
  constructor
  · intro h
    induction text with
    | nil => exact fun c hc => absurd hc List.not_mem_nil
    | cons c text ih =>
      have hlen := congrArg List.length h
      have htext := length_escapeHTML text
      rw [escapeHTML_cons, List.length_append, List.length_cons] at hlen
      -- one character was escaped as itself, or the text would have become longer
      have hc : escapeChar c = [c] := by
        by_contra hne
        have hlong : 1 < (escapeChar c).length := by
          unfold escapeChar at hne ⊢
          split_ifs at hne ⊢ <;> first | decide | exact absurd rfl hne
        omega
      rw [escapeHTML_cons, hc, List.singleton_append, List.cons_inj_right] at h
      exact List.forall_mem_cons.mpr ⟨escapeChar_eq.mp hc, ih h⟩
  · exact fun h => escapeHTML_plain fun c hc => escapeChar_eq.mpr (h c hc)

/-- A character is special in its quotation as it is in itself. -/
theorem exists_special_quoteChar {c : Char} : (∃ d ∈ quoteChar c, IsSpecial d) ↔ IsSpecial c := by
  have hcontrol : ∀ n < 0x20, ∀ d ∈ quoteChar (Char.ofNat n), ¬ IsSpecial d := by decide
  by_cases hsmall : c.toNat < 0x20
  · have h := hcontrol c.toNat hsmall
    rw [Char.ofNat_toNat] at h
    refine iff_of_false (fun ⟨d, hd, hs⟩ => h d hd hs) ?_
    rintro (rfl | rfl | rfl | h | h) <;> first | exact absurd hsmall (by decide) | omega
  by_cases hquote : c = '"' ∨ c = '\\'
  · have hmarks : (∀ d ∈ quoteChar '"', ¬ IsSpecial d) ∧ ∀ d ∈ quoteChar '\\', ¬ IsSpecial d := by
      decide
    rcases hquote with rfl | rfl
    · exact iff_of_false (fun ⟨d, hd, hs⟩ => hmarks.1 d hd hs) (by decide)
    · exact iff_of_false (fun ⟨d, hd, hs⟩ => hmarks.2 d hd hs) (by decide)
  obtain ⟨hq, hb⟩ := not_or.mp hquote
  have hself : quoteChar c = [c] := by
    unfold quoteChar
    simp only [hq, hb, decide_false, Bool.or_self, Bool.false_eq_true, if_false]
    split_ifs <;> first | rfl | omega
  simp [hself]

/-- A string is quoted without special characters exactly if it has none. -/
theorem forall_quote {s : String} :
    (∀ d ∈ quote s, ¬ IsSpecial d) ↔ ∀ c ∈ s.toList, ¬ IsSpecial c := by
  have hmark : ¬ IsSpecial '"' := by decide
  have hchar : ∀ c, (∀ d ∈ quoteChar c, ¬ IsSpecial d) ↔ ¬ IsSpecial c := by
    intro c
    rw [← exists_special_quoteChar, not_exists]
    exact forall_congr' fun d => not_and.symm
  simp only [quote, List.forall_mem_append, List.forall_mem_cons, List.forall_mem_flatMap, hchar,
    hmark, not_false_eq_true, true_and, and_true, List.not_mem_nil, false_implies, implies_true]

theorem special_base64Digit : ∀ n < 64, ¬ IsSpecial (base64Digit n) := by decide

/-- Base64 has no character to escape. -/
theorem quote_base64 (bytes : List UInt8) : quote (base64 bytes) = Json.quote (base64 bytes) := by
  rw [← escapeHTML_quote, eq_comm, escapeHTML_eq_self, forall_quote]
  intro c hc
  rw [base64, String.toList_ofList] at hc
  obtain rfl | ⟨n, hn, rfl⟩ := mem_base64Chars hc
  · decide
  · exact special_base64Digit n hn

/-! ## One text, one object -/

/-- A safe integer in 64 bits. -/
def SafeInteger.int64 (n : SafeInteger) : Int64 := .ofInt n.val

@[simp] theorem SafeInteger.toInt_int64 (n : SafeInteger) : n.int64.toInt = n.val := by
  obtain ⟨hle, hlt⟩ := abs_le.mp n.safe
  exact Int64.toInt_ofInt_of_le (by omega) (by omega)

/-- The number of a safe integer is the one of its 64 bits. -/
theorem Value.json_number (n : SafeInteger) : (Value.number n).json = Json.int n.int64 := by
  rw [Value.json, Json.int, SafeInteger.toInt_int64]

theorem Value.json_injective : Function.Injective Value.json := by
  intro v w h
  cases v with
  | string s =>
    cases w with
    | string t =>
      cases h
      rfl
    | number n => cases h
  | number m =>
    cases w with
    | string t => cases h
    | number n =>
      rw [Value.json_number, Value.json_number, Json.int, Json.int] at h
      -- the decimal digits are read back
      have hread := congrArg Json.parseInt64 (Json.number.inj h)
      rw [Json.parseInt64_toString, Json.parseInt64_toString] at hread
      have hval := congrArg Int64.toInt (Option.some.inj hread)
      rw [SafeInteger.toInt_int64, SafeInteger.toInt_int64] at hval
      cases m
      cases n
      subst hval
      rfl

@[simp] theorem Value.integral_json (v : Value) : v.json.Integral := by
  cases v with
  | string s => trivial
  | number n => exact ⟨n.val, rfl⟩

@[simp] theorem Value.depth_json (v : Value) : v.json.depth = 0 := by cases v <;> rfl

section Members

variable (obj : Record) (names : List String)

theorem mem_membersOf {m : String × Json} (h : m ∈ membersOf obj names) :
    ∃ v, obj.lookup m.1 = some v ∧ m.2 = v.json := by
  obtain ⟨name, -, h⟩ := List.mem_filterMap.mp h
  obtain ⟨v, hv, rfl⟩ := Option.map_eq_some_iff.mp h
  exact ⟨v, hv, rfl⟩

theorem integralMembers_membersOf : Json.IntegralMembers (membersOf obj names) := by
  have hall : ∀ ms : List (String × Json), (∀ m ∈ ms, m.2.Integral) → Json.IntegralMembers ms := by
    intro ms h
    induction ms with
    | nil => trivial
    | cons m ms ih =>
      exact ⟨h m (List.mem_cons_self ..), ih fun m' hm' => h m' (List.mem_cons_of_mem _ hm')⟩
  refine hall _ fun m hm => ?_
  obtain ⟨v, -, hv⟩ := mem_membersOf obj names hm
  rw [hv]
  exact v.integral_json

theorem memberDepths_membersOf : Json.memberDepths (membersOf obj names) = 0 := by
  have hall : ∀ ms : List (String × Json), (∀ m ∈ ms, m.2.depth = 0) →
      Json.memberDepths ms = 0 := by
    intro ms h
    induction ms with
    | nil => rfl
    | cons m ms ih =>
      rw [Json.memberDepths_cons, h m (List.mem_cons_self ..),
        ih fun m' hm' => h m' (List.mem_cons_of_mem _ hm')]
      rfl
  refine hall _ fun m hm => ?_
  obtain ⟨v, -, hv⟩ := mem_membersOf obj names hm
  rw [hv]
  exact v.depth_json

/-- The members stand in the order of the names. -/
theorem sorted_membersOf (h : names.Pairwise fun name name' => name.toList < name'.toList) :
    (Json.object (membersOf obj names)).Sorted := by
  have hall : ∀ ms : List (String × Json), (∀ m ∈ ms, m.2.Sorted) → Json.SortedMembers ms := by
    intro ms h
    induction ms with
    | nil => trivial
    | cons m ms ih =>
      exact ⟨h m (List.mem_cons_self ..), ih fun m' hm' => h m' (List.mem_cons_of_mem _ hm')⟩
  constructor
  · refine List.pairwise_filterMap.mpr (h.imp ?_)
    intro name name' hlt m hm m' hm'
    obtain ⟨v, -, rfl⟩ := Option.map_eq_some_iff.mp hm
    obtain ⟨v', -, rfl⟩ := Option.map_eq_some_iff.mp hm'
    exact hlt
  · refine hall _ fun m hm => ?_
    obtain ⟨v, -, hv⟩ := mem_membersOf obj names hm
    rw [hv]
    cases v <;> trivial

/-- The members are the properties that are named. -/
theorem lookup_membersOf (name : String) : (membersOf obj names).lookup name =
    if name ∈ names then (obj.lookup name).map Value.json else none := by
  unfold membersOf
  induction names with
  | nil => rfl
  | cons name' names ih =>
    by_cases hname : name = name'
    · subst hname
      cases hlookup : obj.lookup name with
      | none => simp [hlookup, ih]
      | some v => simp [hlookup]
    · have hbeq : (name == name') = false := beq_eq_false_iff_ne.mpr hname
      cases hlookup : obj.lookup name' with
      | none => simpa [hlookup, hname] using ih
      | some v => simpa [hlookup, hname, List.lookup_cons, hbeq] using ih

end Members

/-- The text of an object is read as its members. -/
theorem parse_stringify (obj : Record) (names : List String) :
    Json.parse (encode (escapeHTML (stringify obj names))) =
      some (.object (membersOf obj names)) := by
  have hd : Json.memberDepths (membersOf obj names) ≤ 9999 := by
    rw [memberDepths_membersOf]
    exact Nat.zero_le _
  rw [escapeHTML_stringify]
  exact Json.parse_marshalStruct (integralMembers_membersOf obj names) hd

/-- **Objects with one text have the same members.** -/
theorem lookup_eq_of_stringify {obj obj' : Record}
    (h : escapeHTML (stringify obj (sortNames (obj.map (·.1)))) =
      escapeHTML (stringify obj' (sortNames (obj'.map (·.1))))) (name : String) :
    obj.lookup name = obj'.lookup name := by
  have hmembers : membersOf obj (sortNames (obj.map (·.1))) =
      membersOf obj' (sortNames (obj'.map (·.1))) := by
    have hread := congrArg (Json.parse ∘ encode) h
    simp only [Function.comp_apply, parse_stringify] at hread
    exact Json.object.inj (Option.some.inj hread)
  have hall : ∀ o : Record, (membersOf o (sortNames (o.map (·.1)))).lookup name =
      (o.lookup name).map Value.json := by
    intro o
    rw [lookup_membersOf]
    split
    · rfl
    · next hnot =>
      -- a name that is not among the keys has no value
      have hnone : o.lookup name = none := by
        rw [List.lookup_eq_none_iff]
        intro p hp
        refine bne_iff_ne.mpr fun heq => hnot ?_
        rw [sortNames, List.mem_insertionSort, heq]
        exact List.mem_map_of_mem hp
      rw [hnone]
      rfl
  have hjson : (obj.lookup name).map Value.json = (obj'.lookup name).map Value.json := by
    rw [← hall obj, ← hall obj', hmembers]
  exact Option.map_injective Value.json_injective hjson

end Js
