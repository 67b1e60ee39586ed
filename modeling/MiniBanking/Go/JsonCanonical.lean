import MiniBanking.Go.JsonObject
import MiniBanking.Go.JsonText
import Mathlib.Data.List.Nodup

/-!
# A canonical form of JSON

A value that is decoded into maps and written again has the members of its objects in the order of
their names. If no object has a name twice, what is written is a text of the value up to the order of
members, and values that differ in that order alone are written alike.

## Main definitions

* `canonical`: the members of all objects in the order of their names
* `Distinct`: no object has a name twice
* `Reordered`: the values differ in the order of members

## Main results

* `text_eq_render`: a value is written as its canonical form
* `canonical_canonical`: the canonical form has itself as its canonical form
* `reordered_canonical`: the canonical form of a value is the value up to the order of members
* `canonical_of_reordered`: values that differ in the order of members have one canonical form
-/

namespace Go

namespace Json

/-! ## Maps of values -/

section Maps

variable {α β : Type} {f : α → β}

theorem insertMember_map (name : String) (v : α) (m : List (String × α)) :
    insertMember name (f v) (m.map (Prod.map id f)) = (insertMember name v m).map (Prod.map id f) := by
  induction m with
  | nil => rfl
  | cons e m ih =>
    obtain ⟨name', v'⟩ := e
    rw [List.map_cons, Prod.map_apply, id_eq, insertMember, insertMember]
    split
    · rfl
    · split
      · rfl
      · rw [ih]
        rfl

theorem ofMembers_map (ms : List (String × α)) :
    ofMembers (ms.map (Prod.map id f)) = (ofMembers ms).map (Prod.map id f) := by
  induction ms using List.reverseRecOn with
  | nil => rfl
  | append_singleton ms e ih =>
    obtain ⟨name, v⟩ := e
    rw [List.map_append, List.map_singleton, Prod.map_apply, id_eq, ofMembers_concat,
      ofMembers_concat, ih, insertMember_map]

theorem mem_ofMembers {ms : List (String × α)} {e : String × α} (h : e ∈ ofMembers ms) :
    e ∈ ms := by
  induction ms using List.reverseRecOn with
  | nil => exact h
  | append_singleton ms last ih =>
    rw [ofMembers_concat] at h
    rcases mem_insertMember h with rfl | h
    · exact List.mem_append_right _ (List.mem_singleton_self _)
    · exact List.mem_append_left _ (ih h)

/-- Without a name twice, a map has all the members. -/
theorem ofMembers_perm_self {ms : List (String × α)} (h : (ms.map Prod.fst).Nodup) :
    (ofMembers ms).Perm ms := by
  have horder := inOrder_ofMembers ms
  refine (List.perm_ext_iff_of_nodup (List.Nodup.of_map Prod.fst horder.nodup)
    (List.Nodup.of_map Prod.fst h)).mpr fun e => ?_
  obtain ⟨name, v⟩ := e
  rw [← lookup_eq_some_iff_mem horder.nodup, ← lookup_eq_some_iff_mem h,
    lookup_ofMembers_of_nodup h]

end Maps

/-! ## The canonical form -/

mutual

/-- The value with the members of its objects in the order of their names, of which the last one
counts. -/
def canonical : Json → Json
  | array elems => array (canonicals elems)
  | object ms => object (ofMembers (canonicalMembers ms))
  | v => v

/-- The canonical forms of values. -/
def canonicals : List Json → List Json
  | [] => []
  | v :: vs => canonical v :: canonicals vs

/-- The members with their values in canonical form. -/
def canonicalMembers : List (String × Json) → List (String × Json)
  | [] => []
  | (name, v) :: ms => (name, canonical v) :: canonicalMembers ms

end

theorem canonicalMembers_eq_map (ms : List (String × Json)) :
    canonicalMembers ms = ms.map (Prod.map id canonical) := by
  induction ms with
  | nil => rfl
  | cons m ms ih => rw [canonicalMembers, ih]; rfl

theorem renderMembers_eq_map (ms : List (String × Json)) :
    renderMembers ms = (ms.map (Prod.map id render)).map fun (name, t) => quote name ++ ':' :: t := by
  induction ms with
  | nil => rfl
  | cons m ms ih => rw [renderMembers, ih]; rfl

theorem memberTexts_eq_foldl (ms : List (String × Json)) (m : List (String × List Char)) :
    memberTexts ms m =
      (ms.map (Prod.map id text)).foldl (fun m (name, t) => insertMember name t m) m := by
  induction ms generalizing m with
  | nil => rfl
  | cons e ms ih => rw [memberTexts, ih]; rfl

mutual

/-- **A value is written as its canonical form.** -/
theorem text_eq_render (v : Json) : text v = render (canonical v) := by
  match v with
  | null => rfl
  | bool b => rfl
  | number literal => rfl
  | string s => rfl
  | array elems => rw [text, canonical, render, texts_eq_renders elems]
  | object ms =>
    have htexts : memberTexts ms [] = (ofMembers (canonicalMembers ms)).map (Prod.map id render) := by
      rw [memberTexts_eq_foldl, memberTexts_eq ms, ← ofMembers_map]
      rfl
    rw [text, canonical, render, htexts, renderMembers_eq_map]

theorem texts_eq_renders (vs : List Json) : texts vs = renders (canonicals vs) := by
  match vs with
  | [] => rfl
  | v :: vs => rw [texts, canonicals, renders, text_eq_render v, texts_eq_renders vs]

theorem memberTexts_eq (ms : List (String × Json)) :
    ms.map (Prod.map id text) = (canonicalMembers ms).map (Prod.map id render) := by
  match ms with
  | [] => rfl
  | (name, v) :: ms =>
    rw [List.map_cons, canonicalMembers, List.map_cons, memberTexts_eq ms, Prod.map_apply,
      Prod.map_apply, text_eq_render v]

end

theorem marshal_eq (v : Json) : marshal v = encode (render (canonical v)) := by
  rw [marshal, utf8_ofList, text_eq_render]

/-! ## Names in their order -/

mutual

/-- The names in an object stand in their order, each once. -/
def Sorted : Json → Prop
  | array elems => SortedAll elems
  | object ms => ms.Pairwise (fun m m' => m.1.toList < m'.1.toList) ∧ SortedMembers ms
  | _ => True

/-- The names in the objects of values stand in their order. -/
def SortedAll : List Json → Prop
  | [] => True
  | v :: vs => Sorted v ∧ SortedAll vs

/-- The names in the objects of members stand in their order. -/
def SortedMembers : List (String × Json) → Prop
  | [] => True
  | (_, v) :: ms => Sorted v ∧ SortedMembers ms

end

mutual

/-- A value whose objects are sorted is its canonical form. -/
theorem canonical_of_sorted (v : Json) (hv : v.Sorted) : canonical v = v := by
  match v with
  | null | bool _ | number _ | string _ => rfl
  | array vs => rw [canonical, canonicals_of_sorted vs hv]
  | object ms => rw [canonical, canonicalMembers_of_sorted ms hv.2, ofMembers_of_inOrder hv.1]

theorem canonicals_of_sorted (vs : List Json) (hvs : SortedAll vs) : canonicals vs = vs := by
  match vs with
  | [] => rfl
  | v :: vs => rw [canonicals, canonical_of_sorted v hvs.1, canonicals_of_sorted vs hvs.2]

theorem canonicalMembers_of_sorted (ms : List (String × Json)) (hms : SortedMembers ms) :
    canonicalMembers ms = ms := by
  match ms with
  | [] => rfl
  | (_, v) :: ms =>
    rw [canonicalMembers, canonical_of_sorted v hms.1, canonicalMembers_of_sorted ms hms.2]

end

theorem sortedMembers_iff {ms : List (String × Json)} :
    SortedMembers ms ↔ ∀ m ∈ ms, m.2.Sorted := by
  induction ms with
  | nil => simp [SortedMembers]
  | cons m ms ih => simp [SortedMembers, ih]

mutual

/-- The canonical form is sorted. -/
theorem sorted_canonical (v : Json) : (canonical v).Sorted := by
  match v with
  | null | bool _ | number _ | string _ => trivial
  | array vs => exact sorted_canonicals vs
  | object ms =>
    refine ⟨inOrder_ofMembers _, sortedMembers_iff.mpr fun m hm => ?_⟩
    exact sortedMembers_iff.mp (sorted_canonicalMembers ms) m (mem_ofMembers hm)

theorem sorted_canonicals (vs : List Json) : SortedAll (canonicals vs) := by
  match vs with
  | [] => trivial
  | v :: vs => exact ⟨sorted_canonical v, sorted_canonicals vs⟩

theorem sorted_canonicalMembers (ms : List (String × Json)) :
    SortedMembers (canonicalMembers ms) := by
  match ms with
  | [] => trivial
  | (_, v) :: ms => exact ⟨sorted_canonical v, sorted_canonicalMembers ms⟩

end

/-- **The canonical form is its own canonical form.** -/
theorem canonical_canonical (v : Json) : canonical (canonical v) = canonical v :=
  canonical_of_sorted _ (sorted_canonical v)

theorem marshal_canonical (v : Json) : marshal (canonical v) = marshal v := by
  rw [marshal_eq, canonical_canonical, marshal_eq]

/-- **The text of a sorted object is read back.** -/
theorem parse_marshal {v : Json} (hv : v.Integral) (hsorted : v.Sorted) (hd : v.depth ≤ 10000) :
    parse (marshal v) = some v := by
  rw [marshal_eq, canonical_of_sorted v hsorted, parse_render hv hd]

/-! ## The order of members -/

mutual

/-- No object of the value has a name twice. -/
def Distinct : Json → Prop
  | array elems => DistinctAll elems
  | object ms => (ms.map Prod.fst).Nodup ∧ DistinctMembers ms
  | _ => True

/-- No object of the values has a name twice. -/
def DistinctAll : List Json → Prop
  | [] => True
  | v :: vs => Distinct v ∧ DistinctAll vs

/-- No object in the members has a name twice. -/
def DistinctMembers : List (String × Json) → Prop
  | [] => True
  | (_, v) :: ms => Distinct v ∧ DistinctMembers ms

end

mutual

/-- The values differ in the order of the members of their objects at most. -/
def Reordered : Json → Json → Prop
  | array vs, w => ∃ ws, w = array ws ∧ ReorderedAll vs ws
  | object ms, w => ∃ ms' ns, w = object ns ∧ ReorderedMembers ms ms' ∧ ms'.Perm ns
  | v, w => w = v

/-- The values differ in the order of members, one by one. -/
def ReorderedAll : List Json → List Json → Prop
  | [], ws => ws = []
  | v :: vs, ws => ∃ w ws', ws = w :: ws' ∧ Reordered v w ∧ ReorderedAll vs ws'

/-- The members have the same names, and values that differ in the order of members. -/
def ReorderedMembers : List (String × Json) → List (String × Json) → Prop
  | [], ms' => ms' = []
  | (name, v) :: ms, ms' => ∃ w ms'', ms' = (name, w) :: ms'' ∧ Reordered v w ∧
      ReorderedMembers ms ms''

end

theorem ReorderedMembers.names {ms ms' : List (String × Json)} (h : ReorderedMembers ms ms') :
    ms'.map Prod.fst = ms.map Prod.fst := by
  induction ms generalizing ms' with
  | nil => rw [show ms' = [] from h]
  | cons m ms ih =>
    obtain ⟨w, ms'', rfl, -, hms⟩ := h
    rw [List.map_cons, List.map_cons, ih hms]

mutual

/-- **Values that differ in the order of members have one canonical form.** -/
theorem canonical_of_reordered (v w : Json) (h : Reordered v w) (hv : v.Distinct) :
    canonical w = canonical v := by
  match v with
  | null | bool _ | number _ | string _ => rw [show w = _ from h]
  | array vs =>
    obtain ⟨ws, rfl, hvs⟩ := h
    rw [canonical, canonical, canonicals_of_reordered vs ws hvs hv]
  | object ms =>
    obtain ⟨ms', ns, rfl, hms, hperm⟩ := h
    have hmembers := canonicalMembers_of_reordered ms ms' hms hv.2
    -- the names are different, so that their order does not count
    have hnames : ((canonicalMembers ms').map Prod.fst).Nodup := by
      rw [canonicalMembers_eq_map, List.map_map]
      show (ms'.map Prod.fst).Nodup
      rw [hms.names]
      exact hv.1
    have hperm' : (canonicalMembers ms').Perm (canonicalMembers ns) := by
      rw [canonicalMembers_eq_map, canonicalMembers_eq_map]
      exact hperm.map _
    rw [canonical, canonical, ← ofMembers_perm hperm' hnames, hmembers]

theorem canonicals_of_reordered (vs ws : List Json) (h : ReorderedAll vs ws) (hvs : DistinctAll vs) :
    canonicals ws = canonicals vs := by
  match vs with
  | [] => rw [show ws = [] from h]
  | v :: vs =>
    obtain ⟨w, ws', rfl, hv, hrest⟩ := h
    rw [canonicals, canonicals, canonical_of_reordered v w hv hvs.1,
      canonicals_of_reordered vs ws' hrest hvs.2]

theorem canonicalMembers_of_reordered (ms ms' : List (String × Json)) (h : ReorderedMembers ms ms')
    (hms : DistinctMembers ms) : canonicalMembers ms' = canonicalMembers ms := by
  match ms with
  | [] => rw [show ms' = [] from h]
  | (name, v) :: ms =>
    obtain ⟨w, ms'', rfl, hv, hrest⟩ := h
    rw [canonicalMembers, canonicalMembers, canonical_of_reordered v w hv hms.1,
      canonicalMembers_of_reordered ms ms'' hrest hms.2]

end

mutual

/-- **The canonical form is the value up to the order of members.** -/
theorem reordered_canonical (v : Json) (hv : v.Distinct) : Reordered v (canonical v) := by
  match v with
  | null | bool _ | number _ | string _ => rfl
  | array vs => exact ⟨canonicals vs, rfl, reordered_canonicals vs hv⟩
  | object ms =>
    have hmembers := reordered_canonicalMembers ms hv.2
    refine ⟨canonicalMembers ms, _, rfl, hmembers, (ofMembers_perm_self ?_).symm⟩
    rw [hmembers.names]
    exact hv.1

theorem reordered_canonicals (vs : List Json) (hvs : DistinctAll vs) :
    ReorderedAll vs (canonicals vs) := by
  match vs with
  | [] => rfl
  | v :: vs =>
    exact ⟨canonical v, canonicals vs, rfl, reordered_canonical v hvs.1,
      reordered_canonicals vs hvs.2⟩

theorem reordered_canonicalMembers (ms : List (String × Json)) (hms : DistinctMembers ms) :
    ReorderedMembers ms (canonicalMembers ms) := by
  match ms with
  | [] => rfl
  | (name, v) :: ms =>
    exact ⟨canonical v, canonicalMembers ms, rfl, reordered_canonical v hms.1,
      reordered_canonicalMembers ms hms.2⟩

end

/-! ## What the order of members keeps -/

theorem memberDepths_perm {ms ns : List (String × Json)} (h : ms.Perm ns) :
    memberDepths ms = memberDepths ns := by
  induction h with
  | nil => rfl
  | cons m _ ih => rw [memberDepths, memberDepths, ih]
  | swap m m' ms => simp only [memberDepths, max_left_comm]
  | trans _ _ ih ih' => rw [ih, ih']

mutual

theorem depth_of_reordered (v w : Json) (h : Reordered v w) : w.depth = v.depth := by
  match v with
  | null | bool _ | number _ | string _ => rw [show w = _ from h]
  | array vs =>
    obtain ⟨ws, rfl, hvs⟩ := h
    rw [depth, depth, depths_of_reordered vs ws hvs]
  | object ms =>
    obtain ⟨ms', ns, rfl, hms, hperm⟩ := h
    rw [depth, depth, ← memberDepths_perm hperm, memberDepths_of_reordered ms ms' hms]

theorem depths_of_reordered (vs ws : List Json) (h : ReorderedAll vs ws) :
    depths ws = depths vs := by
  match vs with
  | [] => rw [show ws = [] from h]
  | v :: vs =>
    obtain ⟨w, ws', rfl, hv, hrest⟩ := h
    rw [depths, depths, depth_of_reordered v w hv, depths_of_reordered vs ws' hrest]

theorem memberDepths_of_reordered (ms ms' : List (String × Json)) (h : ReorderedMembers ms ms') :
    memberDepths ms' = memberDepths ms := by
  match ms with
  | [] => rw [show ms' = [] from h]
  | (name, v) :: ms =>
    obtain ⟨w, ms'', rfl, hv, hrest⟩ := h
    rw [memberDepths, memberDepths, depth_of_reordered v w hv,
      memberDepths_of_reordered ms ms'' hrest]

end

theorem numeralsMembers_iff {ms : List (String × Json)} :
    NumeralsMembers ms ↔ ∀ m ∈ ms, m.2.Numerals := by
  induction ms with
  | nil => simp [NumeralsMembers]
  | cons m ms ih => simp [NumeralsMembers, ih]

mutual

theorem numerals_canonical (v : Json) (hv : v.Numerals) : (canonical v).Numerals := by
  match v with
  | null | bool _ | number _ | string _ => exact hv
  | array vs => exact numerals_canonicals vs hv
  | object ms =>
    exact numeralsMembers_iff.mpr fun m hm =>
      numeralsMembers_iff.mp (numerals_canonicalMembers ms hv) m (mem_ofMembers hm)

theorem numerals_canonicals (vs : List Json) (hvs : NumeralsAll vs) :
    NumeralsAll (canonicals vs) := by
  match vs with
  | [] => trivial
  | v :: vs => exact ⟨numerals_canonical v hvs.1, numerals_canonicals vs hvs.2⟩

theorem numerals_canonicalMembers (ms : List (String × Json)) (hms : NumeralsMembers ms) :
    NumeralsMembers (canonicalMembers ms) := by
  match ms with
  | [] => trivial
  | (_, v) :: ms => exact ⟨numerals_canonical v hms.1, numerals_canonicalMembers ms hms.2⟩

end

mutual

/-- The numbers of a text are what a text may have. -/
theorem Spells.numerals (v : Json) {t : List UInt8} (h : Spells v t) : v.Numerals := by
  match v with
  | null | bool _ | string _ => trivial
  | number literal => exact h.1
  | array vs =>
    obtain ⟨u, -, hu⟩ := h
    exact SpellsElements.numerals vs hu
  | object ms =>
    obtain ⟨u, -, hu⟩ := h
    exact SpellsMembers.numerals ms hu

theorem SpellsElements.numerals (vs : List Json) {t : List UInt8} (h : SpellsElements vs t) :
    NumeralsAll vs := by
  match vs with
  | [] => trivial
  | [v] =>
    obtain ⟨_, u, _, -, -, -, hu⟩ := h
    exact ⟨Spells.numerals v hu, trivial⟩
  | v :: w :: vs =>
    obtain ⟨_, _, -, ⟨_, u, _, -, -, -, hu⟩, hvs⟩ := h
    exact ⟨Spells.numerals v hu, SpellsElements.numerals (w :: vs) hvs⟩

theorem SpellsMembers.numerals (ms : List (String × Json)) {t : List UInt8}
    (h : SpellsMembers ms t) : NumeralsMembers ms := by
  match ms with
  | [] => trivial
  | [(_, v)] =>
    obtain ⟨_, _, -, -, _, u, _, -, -, -, hu⟩ := h
    exact ⟨Spells.numerals v hu, trivial⟩
  | (_, v) :: m :: ms =>
    obtain ⟨_, _, -, ⟨_, _, -, -, _, u, _, -, -, -, hu⟩, hms⟩ := h
    exact ⟨Spells.numerals v hu, SpellsMembers.numerals (m :: ms) hms⟩

end

theorem IsText.numerals {v : Json} {t : List UInt8} (h : IsText v t) : v.Numerals := by
  obtain ⟨_, u, _, -, -, -, hu⟩ := h
  exact hu.numerals

end Json

end Go
