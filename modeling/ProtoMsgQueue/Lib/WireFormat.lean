import Mathlib.Data.Nat.Bitwise
import Mathlib.Tactic.Ring

/-!
# The wire format of protocol buffers

A message is the concatenation of its fields. A field is a tag, made of its number and its wire
type, and a value: a varint, or a byte string behind its length. A scalar field with its default
value is left out, an element of a repeated field is not. `length_encodeMessage` gives the
length of a message, which depends on byte strings only through their lengths.
-/

namespace WireFormat

/-! ### Varints -/

/-- Seven bits in each byte, lowest first; the first `k` bytes have the continuation bit. -/
def varintBytes : ℕ → ℕ → List UInt8
  | 0, n => [UInt8.ofNat n]
  | k + 1, n => UInt8.ofNat (n % 128 + 128) :: varintBytes k (n / 128)

/-- A number as a varint. -/
def varint (n : ℕ) : List UInt8 := varintBytes (n.log2 / 7) n

/-- The number of bytes of a varint. -/
def varintSize (n : ℕ) : ℕ := n.log2 / 7 + 1

theorem length_varintBytes (k n : ℕ) : (varintBytes k n).length = k + 1 := by
  induction k generalizing n with
  | zero => rfl
  | succ k ih => rw [varintBytes, List.length_cons, ih]

@[simp] theorem length_varint (n : ℕ) : (varint n).length = varintSize n :=
  length_varintBytes _ n

/-- A number of `7 * k` bits takes at most `k` bytes. -/
theorem varintSize_le {n k : ℕ} (hk : 0 < k) (hn : n < 2 ^ (7 * k)) : varintSize n ≤ k := by
  rw [varintSize]
  rcases eq_or_ne n 0 with rfl | hne
  · exact hk
  · have hlog : n.log2 < 7 * k := (Nat.log2_lt hne).mpr hn
    omega

/-- Read a varint: the number, and the bytes behind it. -/
def readVarint : List UInt8 → Option (ℕ × List UInt8)
  | [] => none
  | b :: bs =>
    if b.toNat < 128 then some (b.toNat, bs)
    else (readVarint bs).map fun p => (b.toNat - 128 + 128 * p.1, p.2)

theorem readVarint_varintBytes {k n : ℕ} (hn : n < 128 ^ (k + 1)) (rest : List UInt8) :
    readVarint (varintBytes k n ++ rest) = some (n, rest) := by
  induction k generalizing n with
  | zero =>
    rw [Nat.zero_add, pow_one] at hn
    have hbyte : (UInt8.ofNat n).toNat = n := UInt8.toNat_ofNat_of_lt' (lt_trans hn (by decide))
    rw [varintBytes, List.singleton_append, readVarint, hbyte, if_pos hn]
  | succ k ih =>
    have hbyte : (UInt8.ofNat (n % 128 + 128)).toNat = n % 128 + 128 :=
      UInt8.toNat_ofNat_of_lt' (show n % 128 + 128 < 256 by omega)
    have hdiv : n / 128 < 128 ^ (k + 1) := by
      rw [pow_succ] at hn
      exact Nat.div_lt_of_lt_mul (by rwa [Nat.mul_comm])
    rw [varintBytes, List.cons_append, readVarint, hbyte, if_neg (by omega), ih hdiv,
      Option.map_some, Nat.add_sub_cancel, Nat.mod_add_div]

/-- A varint is read as the number that was written. -/
theorem readVarint_varint (n : ℕ) (rest : List UInt8) :
    readVarint (varint n ++ rest) = some (n, rest) := by
  refine readVarint_varintBytes ?_ rest
  have hbits : n.log2 + 1 ≤ 7 * (n.log2 / 7 + 1) := by omega
  calc n < 2 ^ (n.log2 + 1) := Nat.lt_log2_self
    _ ≤ 2 ^ (7 * (n.log2 / 7 + 1)) := Nat.pow_le_pow_right (by decide) hbits
    _ = 128 ^ (n.log2 / 7 + 1) := pow_mul 2 7 _

/-! ### Fields -/

/-- A field of a message. -/
inductive Field where
  /-- A number; zero is left out. -/
  | uint (number value : ℕ)
  /-- A byte string or a text; an empty one is left out. -/
  | bytes (number : ℕ) (data : List UInt8)
  /-- An element of a repeated field. -/
  | element (number : ℕ) (data : List UInt8)
deriving DecidableEq

/-- A byte string with its tag and length. -/
def lengthDelimited (number : ℕ) (data : List UInt8) : List UInt8 :=
  varint (8 * number + 2) ++ varint data.length ++ data

/-- The size of a byte string with its tag and length. -/
def lengthDelimitedSize (number length : ℕ) : ℕ :=
  varintSize (8 * number + 2) + varintSize length + length

theorem length_lengthDelimited (number : ℕ) (data : List UInt8) :
    (lengthDelimited number data).length = lengthDelimitedSize number data.length := by
  rw [lengthDelimited, List.length_append, List.length_append, length_varint, length_varint]
  rfl

namespace Field

/-- A field as it is written. -/
def encode : Field → List UInt8
  | uint number value => if value = 0 then [] else varint (8 * number) ++ varint value
  | bytes number data => if data = [] then [] else lengthDelimited number data
  | element number data => lengthDelimited number data

/-- The number of bytes a field takes. -/
def size : Field → ℕ
  | uint number value => if value = 0 then 0 else varintSize (8 * number) + varintSize value
  | bytes number data => if data = [] then 0 else lengthDelimitedSize number data.length
  | element number data => lengthDelimitedSize number data.length

theorem length_encode (field : Field) : field.encode.length = field.size := by
  cases field with
  | uint number value =>
    rw [encode, size]
    split
    · rfl
    · rw [List.length_append, length_varint, length_varint]
  | bytes number data =>
    rw [encode, size]
    split
    · rfl
    · exact length_lengthDelimited number data
  | element number data => exact length_lengthDelimited number data

/-- A number of `7 * k` bits takes its tag and at most `k` bytes. -/
theorem size_uint_le {number value k : ℕ} (hk : 0 < k) (hvalue : value < 2 ^ (7 * k)) :
    (uint number value).size ≤ varintSize (8 * number) + k := by
  rw [size]
  split
  · exact Nat.zero_le _
  · exact Nat.add_le_add_left (varintSize_le hk hvalue) _

end Field

/-! ### Messages -/

/-- A message as it is written. -/
def encodeMessage (fields : List Field) : List UInt8 := fields.flatMap Field.encode

/-- The number of bytes a message takes. -/
def messageSize (fields : List Field) : ℕ := (fields.map Field.size).sum

theorem length_encodeMessage (fields : List Field) :
    (encodeMessage fields).length = messageSize fields := by
  rw [encodeMessage, List.length_flatMap, messageSize]
  exact congrArg List.sum (List.map_congr_left fun field _ => field.length_encode)

@[simp] theorem messageSize_nil : messageSize [] = 0 := rfl

@[simp] theorem messageSize_cons (field : Field) (fields : List Field) :
    messageSize (field :: fields) = field.size + messageSize fields :=
  List.sum_cons

end WireFormat
