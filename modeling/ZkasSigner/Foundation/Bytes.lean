import Mathlib.Algebra.Order.Ring.Nat
import Mathlib.Data.List.Basic
import Mathlib.Data.List.Induction
import Mathlib.Data.Nat.Size
import Mathlib.Tactic.Ring

/-! Byte strings of a fixed length, and natural numbers as such strings with the most
significant byte first. -/
namespace Foundation

abbrev Bytes (n : ℕ) := {bs : List UInt8 // bs.length = n}

namespace Bytes

/-- `<[u8; n]>::try_from` a slice. -/
def tryFrom (n : ℕ) (bs : List UInt8) : Option (Bytes n) :=
  if h : bs.length = n then some ⟨bs,h⟩ else none

theorem tryFrom_eq_some {n : ℕ} {bs : List UInt8} {b : Bytes n} : tryFrom n bs = some b ↔ bs = b.val := by
  unfold tryFrom
  split_ifs with h
  · rw [Option.some.injEq,Subtype.ext_iff]
  · simp only [false_iff]
    rintro rfl
    exact h b.property

/-- The last `n` base-256 digits of a number, the most significant one first. -/
def toBigEndian : ℕ → ℕ → List UInt8
  | 0, _ => []
  | n+1, v => toBigEndian n (v/256) ++ [UInt8.ofNat v]

def ofBigEndian (bs : List UInt8) : ℕ := bs.foldl (fun v b => 256*v+b.toNat) 0

@[simp] theorem toBigEndian_length (n v : ℕ) : (toBigEndian n v).length = n := by
  induction n generalizing v with
  | zero => rfl
  | succ n ih => simp [toBigEndian,ih]

theorem ofBigEndian_concat (bs : List UInt8) (b : UInt8) : ofBigEndian (bs ++ [b]) = 256*ofBigEndian bs+b.toNat := by
  rw [ofBigEndian,List.foldl_append]
  rfl

/-- A number that fits its bytes is read back from them. -/
theorem ofBigEndian_toBigEndian {n v : ℕ} (h : v < 256^n) : ofBigEndian (toBigEndian n v) = v := by
  induction n generalizing v with
  | zero =>
    have hv : v = 0 := by simpa using h
    rw [hv]
    rfl
  | succ n ih =>
    rw [pow_succ] at h
    have hdiv : v/256 < 256^n := by omega
    have hlast : (UInt8.ofNat v).toNat = v % 256 := rfl
    rw [toBigEndian,ofBigEndian_concat,ih hdiv,hlast]
    omega

/-- Bytes are the digits of the number they stand for. -/
theorem toBigEndian_ofBigEndian (bs : List UInt8) : toBigEndian bs.length (ofBigEndian bs) = bs := by
  induction bs using List.reverseRecOn with
  | nil => rfl
  | append_singleton bs b ih =>
    have hb := b.toNat_lt
    have hdiv : (256*ofBigEndian bs+b.toNat)/256 = ofBigEndian bs := by omega
    have hlast : UInt8.ofNat (256*ofBigEndian bs+b.toNat) = b := by
      rw [← UInt8.toNat_inj,UInt8.toNat_ofNat']
      omega
    rw [List.length_append,List.length_singleton,toBigEndian,ofBigEndian_concat,hdiv,hlast,ih]

/-- The first byte weighs as much as there are bytes behind it. -/
theorem ofBigEndian_cons (b : UInt8) (bs : List UInt8) :
    ofBigEndian (b::bs) = b.toNat*256^bs.length+ofBigEndian bs := by
  induction bs using List.reverseRecOn with
  | nil => simp [ofBigEndian]
  | append_singleton bs last ih =>
    rw [← List.cons_append,ofBigEndian_concat,ofBigEndian_concat,ih,List.length_append,List.length_singleton,pow_succ]
    ring

theorem ofBigEndian_lt (bs : List UInt8) : ofBigEndian bs < 256^bs.length := by
  induction bs using List.reverseRecOn with
  | nil => simp [ofBigEndian]
  | append_singleton bs b ih =>
    have hb := b.toNat_lt
    rw [ofBigEndian_concat,List.length_append,List.length_singleton,pow_succ]
    omega

theorem ofBigEndian_eq_zero {bs : List UInt8} : ofBigEndian bs = 0 ↔ ∀ b ∈ bs, b = 0 := by
  induction bs using List.reverseRecOn with
  | nil => simp [ofBigEndian]
  | append_singleton bs b ih =>
    rw [ofBigEndian_concat,List.forall_mem_append,← ih,List.forall_mem_singleton,← UInt8.toNat_inj,UInt8.toNat_zero]
    omega

theorem size_mul_pow_add {a r n : ℕ} (ha : a ≠ 0) (hr : r < 2^n) : Nat.size (a*2^n+r) = Nat.size a+n := by
  apply le_antisymm
  · have hlt : a < 2^Nat.size a := Nat.lt_size_self a
    rw [Nat.size_le,pow_add]
    calc a*2^n+r < (a+1)*2^n := by
          rw [add_mul,one_mul]
          omega
      _ ≤ 2^Nat.size a*2^n := Nat.mul_le_mul_right _ hlt
  · have hpos : 0 < Nat.size a := Nat.size_pos.mpr (Nat.pos_of_ne_zero ha)
    have hle : 2^(Nat.size a-1) ≤ a := Nat.lt_size.mp (by omega)
    have hlt : Nat.size a-1+n < Nat.size (a*2^n+r) := by
      rw [Nat.lt_size,pow_add]
      exact (Nat.mul_le_mul_right _ hle).trans (Nat.le_add_right _ _)
    omega

theorem ofBigEndian_zero_cons (bs : List UInt8) : ofBigEndian (0::bs) = ofBigEndian bs := by
  simp [ofBigEndian_cons]

/-- The bits of a number are those of its first byte that is not zero and of all bytes behind it. -/
theorem size_ofBigEndian_cons {b : UInt8} (hb : b ≠ 0) (bs : List UInt8) :
    Nat.size (ofBigEndian (b::bs)) = Nat.size b.toNat+8*bs.length := by
  have hne : b.toNat ≠ 0 := fun h => hb (UInt8.toNat_inj.mp h)
  have hrest := ofBigEndian_lt bs
  rw [ofBigEndian_cons]
  rw [show 256 = 2^8 from rfl,← pow_mul] at hrest ⊢
  exact size_mul_pow_add hne hrest

end Bytes
end Foundation
