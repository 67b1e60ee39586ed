import MiniBanking.Asn1.Der

/-!
# Trees of DER

A value is a primitive one, whose content is bytes, or a constructed one, whose content is the
elements of other values. A bit of the tag tells them apart; it is set when a value is written.

## Main definitions

* `Der`, `Der.encode`, `encodeAll`: values and their bytes
* `Der.search`: the first result in a tree, an element before what is inside it

## Main results

* `Der.encode_eq`: a value is written as one element
-/

namespace Asn1

/-- A value. -/
inductive Der
  | primitive (tag : UInt8) (content : List UInt8)
  | constructed (tag : UInt8) (children : List Der)

mutual

/-- The bytes of a value. -/
def Der.encode : Der → List UInt8
  | .primitive tag content => element (tag &&& 0xDF) content
  | .constructed tag children => element (tag ||| 0x20) (encodeAll children)

/-- The bytes of values, one after the other. -/
def encodeAll : List Der → List UInt8
  | [] => []
  | value :: values => value.encode ++ encodeAll values

end

namespace Der

/-- The tag that is written. -/
def tag : Der → UInt8
  | .primitive tag _ => tag &&& 0xDF
  | .constructed tag _ => tag ||| 0x20

/-- The content that is written. -/
def content : Der → List UInt8
  | .primitive _ content => content
  | .constructed _ children => encodeAll children

theorem encode_eq (value : Der) : value.encode = element value.tag value.content := by
  cases value with
  | primitive tag content => rw [encode, Der.tag, Der.content]
  | constructed tag children => rw [encode, Der.tag, Der.content]

/-- The bytes of values are those of each of them. -/
theorem encodeAll_eq (values : List Der) : encodeAll values = (values.map encode).flatten := by
  induction values with
  | nil => rw [encodeAll, List.map_nil, List.flatten_nil]
  | cons value values ih => rw [encodeAll, List.map_cons, List.flatten_cons, ih]

/-- The bit of a constructed value. -/
theorem tag_constructed_and (tag : UInt8) (children : List Der) :
    (constructed tag children).tag &&& 0x20 ≠ 0 := by
  have h : ∀ n < 256, (n ||| 32) &&& 32 ≠ 0 := by decide +kernel
  rw [Ne, ← UInt8.toNat_inj, Der.tag, UInt8.toNat_and, UInt8.toNat_or]
  exact h tag.toNat tag.toNat_lt

theorem tag_primitive_and (tag : UInt8) (content : List UInt8) :
    (primitive tag content).tag &&& 0x20 = 0 := by
  have h : ∀ n < 256, (n &&& 223) &&& 32 = 0 := by decide +kernel
  rw [← UInt8.toNat_inj, Der.tag, UInt8.toNat_and, UInt8.toNat_and]
  exact h tag.toNat tag.toNat_lt

/-- A value is longer than its content. -/
theorem length_content_lt (value : Der) : value.content.length + 2 ≤ value.encode.length := by
  rw [encode_eq]
  exact length_element_gt _ _

/-! ## Common values -/

def sequence (children : List Der) : Der := constructed 0x10 children

def set (children : List Der) : Der := constructed 0x11 children

/-- A value in an explicit tag. -/
def explicit (number : UInt8) (children : List Der) : Der := constructed (0x80 ||| number) children

/-- Bytes under a tag of their context. -/
def implicit (number : UInt8) (content : List UInt8) : Der := primitive (0x80 ||| number) content

def octetString (content : List UInt8) : Der := primitive 0x04 content

/-- A string of whole bytes. -/
def bitString (content : List UInt8) : Der := primitive 0x03 (0x00 :: content)

def null : Der := primitive 0x05 []

def boolean (b : Bool) : Der := primitive 0x01 [if b then 0xFF else 0x00]

/-- A number that is not negative. -/
def integer (n : ℕ) : Der :=
  primitive 0x02 (match base256 n with
    | [] => [0x00]
    | b :: bytes => if b &&& 0x80 = 0 then b :: bytes else 0x00 :: b :: bytes)

@[simp] theorem tag_sequence (children : List Der) : (sequence children).tag = 0x30 := rfl

@[simp] theorem tag_set (children : List Der) : (set children).tag = 0x31 := rfl

@[simp] theorem tag_octetString (content : List UInt8) : (octetString content).tag = 0x04 := rfl

@[simp] theorem content_octetString (content : List UInt8) :
    (octetString content).content = content := rfl

@[simp] theorem tag_bitString (content : List UInt8) : (bitString content).tag = 0x03 := rfl

@[simp] theorem tag_null : null.tag = 0x05 := rfl

@[simp] theorem tag_boolean (b : Bool) : (boolean b).tag = 0x01 := rfl

@[simp] theorem tag_integer (n : ℕ) : (integer n).tag = 0x02 := rfl

/-! ## The first result in a tree -/

variable {β : Type} (f : Der → Option β)

mutual

/-- The first result in a tree, an element before what is inside it. -/
def search : Der → Option β
  | .primitive tag content => f (.primitive tag content)
  | .constructed tag children => (f (.constructed tag children)).or (searchAll children)

/-- The first result in some trees. -/
def searchAll : List Der → Option β
  | [] => none
  | value :: values => (search value).or (searchAll values)

end

/-- The first result inside a value. -/
def searchInside : Der → Option β
  | .primitive _ _ => none
  | .constructed _ children => searchAll f children

theorem search_eq (value : Der) : search f value = (f value).or (searchInside f value) := by
  cases value with
  | primitive tag content => rw [search, searchInside, Option.or_none]
  | constructed tag children => rw [search, searchInside]

@[simp] theorem searchAll_nil : searchAll f [] = none := by rw [searchAll]

@[simp] theorem searchAll_cons (value : Der) (values : List Der) :
    searchAll f (value :: values) = (search f value).or (searchAll f values) := by rw [searchAll]

theorem searchAll_append (values more : List Der) :
    searchAll f (values ++ more) = (searchAll f values).or (searchAll f more) := by
  induction values with
  | nil => rw [List.nil_append, searchAll_nil, Option.none_or]
  | cons value values ih =>
    rw [List.cons_append, searchAll_cons, searchAll_cons, ih, Option.or_assoc]

theorem searchAll_eq_none {values : List Der} (h : ∀ value ∈ values, search f value = none) :
    searchAll f values = none := by
  induction values with
  | nil => exact searchAll_nil f
  | cons value values ih =>
    obtain ⟨hvalue, hvalues⟩ := List.forall_mem_cons.mp h
    rw [searchAll_cons, hvalue, ih hvalues, Option.none_or]

end Der

end Asn1
