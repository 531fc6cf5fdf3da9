import Mathlib.Algebra.Order.Ring.Nat
import ProtoMsgQueue.Common.Types

/-!
# Compression and decompression

`Decompress` of `common/compression.cpp`: zlib's `uncompress` is called with a buffer whose size
is a guess, which is doubled as long as zlib finds it too small, ten times in all. Sizes are
natural numbers first. `Zlib.compress` and `Zlib.decompress` are the two functions of the source
with its 64-bit sizes; as long as the data are smaller than `2 ^ 52` bytes the doubling does not
wrap, and `Zlib.decompress_compress` says that nothing is lost.
-/

namespace ProtoMsgQueue

/-- What zlib's `uncompress` makes of data, with a buffer of a given size. -/
inductive UncompressResult where
  /-- `Z_OK`, with the contents of the buffer. -/
  | ok (data : Payload)
  /-- `Z_BUF_ERROR`: the buffer is too small. -/
  | bufError
  /-- Another error. -/
  | error
deriving DecidableEq, Repr

section Decompress

variable (uncompress : Payload → ℕ → UncompressResult)

/-- The attempts that are left, from an estimate of the size on. -/
def decompressLoop (data : Payload) : ℕ → ℕ → Payload
  | 0, _ => []
  | attempts + 1, estimate =>
    match uncompress data estimate with
    | .ok decompressed => decompressed
    | .bufError => decompressLoop data attempts (estimate * 2)
    | .error => []

/-- Decompress data; empty for empty data and on an error. -/
def decompress (data : Payload) : Payload :=
  if data = [] then [] else decompressLoop uncompress data 10 (max (data.length * 4) 1024)

variable {uncompress} {data decompressed : Payload}

/-- The loop ends with the contents once the buffer is large enough for them. -/
theorem decompressLoop_eq {attempts estimate : ℕ}
    (h : ∀ size, uncompress data size =
      if decompressed.length ≤ size then .ok decompressed else .bufError)
    (hsize : decompressed.length ≤ estimate * 2 ^ attempts) :
    decompressLoop uncompress data (attempts + 1) estimate = decompressed := by
  induction attempts generalizing estimate with
  | zero =>
    rw [Nat.pow_zero, Nat.mul_one] at hsize
    rw [decompressLoop, h, if_pos hsize]
  | succ attempts ih =>
    rw [decompressLoop, h]
    split
    · rename_i heq
      split at heq
      · exact (UncompressResult.ok.inj heq).symm
      · cases heq
    · exact ih (by rw [Nat.mul_assoc, ← Nat.pow_succ']; exact hsize)
    · rename_i heq
      split at heq <;> cases heq

/-- Contents up to 2048 times as large as the data are found. -/
theorem decompress_eq (hne : data ≠ [])
    (h : ∀ size, uncompress data size =
      if decompressed.length ≤ size then .ok decompressed else .bufError)
    (hsize : decompressed.length ≤ 2048 * data.length) :
    decompress uncompress data = decompressed := by
  rw [decompress, if_neg hne]
  refine decompressLoop_eq h (Nat.le_trans hsize ?_)
  omega

end Decompress

/-! ### With 64-bit sizes -/

/-- The functions of zlib behind `Compress` and `Decompress`. -/
structure Zlib where
  /-- `compressBound`: the size of a buffer for data of a given size. -/
  compressBound : UInt64 → UInt64
  /-- `compress2` at the default level, into a buffer of a given size; none on an error. -/
  compress2 : Payload → UInt64 → Option Payload
  /-- `uncompress`, into a buffer of a given size. -/
  uncompress : Payload → UInt64 → UncompressResult

namespace Zlib

variable (zlib : Zlib)

/-- `Compress`: empty for empty data and on an error. -/
def compress (data : Payload) : Payload :=
  if data = [] then []
  else (zlib.compress2 data (zlib.compressBound (UInt64.ofNat data.length))).getD []

/-- The attempts of `Decompress` that are left, from an estimate of the size on. -/
def decompressLoop (data : Payload) : ℕ → UInt64 → Payload
  | 0, _ => []
  | attempts + 1, estimate =>
    match zlib.uncompress data estimate with
    | .ok decompressed => decompressed
    | .bufError => decompressLoop data attempts (estimate * 2)
    | .error => []

/-- `Decompress`: empty for empty data and on an error. -/
def decompress (data : Payload) : Payload :=
  if data = [] then []
  else
    let estimate := UInt64.ofNat data.length * 4
    zlib.decompressLoop data 10 (if estimate < 1024 then 1024 else estimate)

/-- What zlib says of non-empty data `x` and their compressed form `c`: a buffer of the size
`compressBound` suffices to compress, a buffer of the size of `x` to get it back, and nothing
grows by more than a factor of 1032. -/
structure Documented (x c : Payload) : Prop where
  compress2_eq : zlib.compress2 x (zlib.compressBound (UInt64.ofNat x.length)) = some c
  uncompress_eq : ∀ size : UInt64, zlib.uncompress c size =
    if x.length ≤ size.toNat then .ok x else .bufError
  length_le : x.length ≤ 1032 * c.length

variable {zlib} {data x c : Payload}

/-- While the last estimate is below `2 ^ 64`, the doubling does not wrap. -/
theorem decompressLoop_eq_toNat {uncompress : Payload → ℕ → UncompressResult}
    (h : ∀ size, zlib.uncompress data size = uncompress data size.toNat) {attempts : ℕ}
    {estimate : UInt64} (hsize : estimate.toNat * 2 ^ attempts < 2 ^ 64) :
    zlib.decompressLoop data attempts estimate =
      ProtoMsgQueue.decompressLoop uncompress data attempts estimate.toNat := by
  induction attempts generalizing estimate with
  | zero => rfl
  | succ attempts ih =>
    rw [Nat.pow_succ', ← Nat.mul_assoc] at hsize
    have hle : estimate.toNat * 2 ≤ estimate.toNat * 2 * 2 ^ attempts :=
      Nat.le_mul_of_pos_right _ (Nat.two_pow_pos attempts)
    have htwice : (estimate * 2).toNat = estimate.toNat * 2 := by
      rw [UInt64.toNat_mul]
      exact Nat.mod_eq_of_lt (Nat.lt_of_le_of_lt hle hsize)
    rw [decompressLoop, ProtoMsgQueue.decompressLoop, h, ih (htwice ▸ hsize), htwice]

/-- Data of less than `2 ^ 52` bytes are decompressed as with unbounded sizes. -/
theorem decompress_eq_toNat (uncompress : Payload → ℕ → UncompressResult)
    (h : ∀ size, zlib.uncompress data size = uncompress data size.toNat)
    (hdata : data.length < 2 ^ 52) :
    zlib.decompress data = ProtoMsgQueue.decompress uncompress data := by
  have hlength : (UInt64.ofNat data.length * 4).toNat = data.length * 4 := by
    have hsize : data.length < UInt64.size := Nat.lt_trans hdata (by decide)
    rw [UInt64.toNat_mul, UInt64.toNat_ofNat_of_lt' hsize]
    exact Nat.mod_eq_of_lt (show data.length * 4 < 2 ^ 64 by omega)
  have hestimate : (if UInt64.ofNat data.length * 4 < 1024 then 1024
      else UInt64.ofNat data.length * 4).toNat = max (data.length * 4) 1024 := by
    have hfloor : (1024 : UInt64).toNat = 1024 := rfl
    have hlt : UInt64.ofNat data.length * 4 < 1024 ↔ data.length * 4 < 1024 := by
      rw [UInt64.lt_iff_toNat_lt, hlength, hfloor]
    split
    · next h1024 =>
      rw [hlt] at h1024
      rw [hfloor]
      omega
    · next h1024 =>
      rw [hlt] at h1024
      rw [hlength]
      omega
  rw [decompress, ProtoMsgQueue.decompress]
  refine ite_congr rfl (fun _ => rfl) fun _ => ?_
  dsimp only
  rw [decompressLoop_eq_toNat h (by rw [hestimate]; omega), hestimate]

/-- **Nothing is lost.** What `Compress` makes of data, `Decompress` turns back into them: one
of its ten buffers is large enough. -/
theorem decompress_compress (hzlib : x ≠ [] → ∃ c, zlib.Documented x c ∧ c.length < 2 ^ 52) :
    zlib.decompress (zlib.compress x) = x := by
  by_cases hx : x = []
  · rw [hx]
    rfl
  obtain ⟨c, hc, hsize⟩ := hzlib hx
  have hpos : 0 < x.length := List.length_pos_iff.mpr hx
  have hratio := hc.length_le
  have hne : c ≠ [] := by
    rintro rfl
    rw [List.length_nil] at hratio
    omega
  rw [compress, if_neg hx, hc.compress2_eq, Option.getD_some]
  -- the last of the ten buffers has at least 2048 times the size of the compressed data
  refine (decompress_eq_toNat (fun _ size => if x.length ≤ size then .ok x else .bufError)
    hc.uncompress_eq hsize).trans ?_
  exact decompress_eq hne (fun _ => rfl) (by omega)

/-- Data that compress well, so that the first four buffers are too small. -/
def repeatedBytes : Payload := List.replicate 10000 65

/-- The compressed form of `repeatedBytes`. -/
def deflatedBytes : Payload := [120, 156, 237, 193, 1, 13, 0, 0, 0, 194, 160, 108, 239, 95, 202,
  28, 110, 64, 1, 0, 0, 0, 0, 0, 0, 0, 0, 192, 191, 1, 135, 193, 235, 152]

/-- The functions of zlib as they are on `repeatedBytes`. -/
def repeatedZlib : Zlib where
  compressBound size := size + (size >>> 12) + (size >>> 14) + (size >>> 25) + 13
  compress2 data _ := if data = repeatedBytes then some deflatedBytes else none
  uncompress data size :=
    if data = deflatedBytes then
      if repeatedBytes.length ≤ size.toNat then .ok repeatedBytes else .bufError
    else .error

theorem decompress_compress_repeatedBytes :
    repeatedZlib.decompress (repeatedZlib.compress repeatedBytes) = repeatedBytes := by
  refine decompress_compress fun _ => ⟨deflatedBytes, ⟨?_, fun size => ?_, ?_⟩, by decide⟩
  · simp only [repeatedZlib, if_true]
  · simp only [repeatedZlib, if_true]
  · rw [repeatedBytes, List.length_replicate]
    decide

end Zlib

end ProtoMsgQueue
