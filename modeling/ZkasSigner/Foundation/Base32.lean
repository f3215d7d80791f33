import ZkasSigner.Foundation.Bytes
import Mathlib.Data.List.Induction
import Mathlib.Tactic.Ring

/-! Bytes in groups of five bits. Both are the same bits, most significant first, but for the
zeros that fill up the last group. -/
namespace Foundation.Base32

/-- The last `w` bits of a number. -/
def digits : ℕ → ℕ → List Bool
  | 0, _ => []
  | w+1, v => digits w (v/2) ++ [decide (v % 2 = 1)]

def value (bits : List Bool) : ℕ := bits.foldl (fun v b => 2*v+b.toNat) 0

@[simp] theorem digits_length (w v : ℕ) : (digits w v).length = w := by
  induction w generalizing v with
  | zero => rfl
  | succ w ih => simp [digits,ih]

theorem value_append_singleton (bits : List Bool) (b : Bool) : value (bits ++ [b]) = 2*value bits+b.toNat := by
  simp [value]

theorem value_lt (bits : List Bool) : value bits < 2^bits.length := by
  induction bits using List.reverseRecOn with
  | nil => decide
  | append_singleton bits b ih =>
    have hb := b.toNat_lt
    rw [value_append_singleton,List.length_append,List.length_singleton,pow_succ]
    omega

theorem digits_value (bits : List Bool) : digits bits.length (value bits) = bits := by
  induction bits using List.reverseRecOn with
  | nil => rfl
  | append_singleton bits b ih =>
    have hdiv : (2*value bits+b.toNat)/2 = value bits := by
      have hb := b.toNat_lt
      omega
    have hmod : decide ((2*value bits+b.toNat) % 2 = 1) = b := by
      cases b <;> simp [Nat.add_mod]
    rw [value_append_singleton,List.length_append,List.length_singleton,digits,hdiv,ih,hmod]

theorem value_digits {w v : ℕ} (h : v < 2^w) : value (digits w v) = v := by
  induction w generalizing v with
  | zero =>
    have hv : v = 0 := by simpa using h
    rw [hv]
    rfl
  | succ w ih =>
    have hb : (decide (v % 2 = 1)).toNat = v % 2 := by
      rcases Nat.mod_two_eq_zero_or_one v with he | he <;> simp [he]
    rw [pow_succ] at h
    rw [digits,value_append_singleton,ih (by omega),hb]
    omega

theorem digits_injective {w u v : ℕ} (hu : u < 2^w) (hv : v < 2^w) (h : digits w u = digits w v) : u = v := by
  rw [← value_digits hu,h,value_digits hv]

/-! ### Groups of a fixed width -/

theorem flatMap_length {α : Type*} {f : α → List Bool} {w : ℕ} (hf : ∀ x, (f x).length = w) (xs : List α) :
    (xs.flatMap f).length = w*xs.length := by
  induction xs with
  | nil => simp
  | cons x xs ih =>
    rw [List.flatMap_cons,List.length_append,hf,ih,List.length_cons]
    ring

/-- A text of groups can be read group by group. -/
theorem flatMap_injective {α : Type*} {f : α → List Bool} {w : ℕ} (hf : ∀ x, (f x).length = w)
    (hinj : Function.Injective f) {xs ys : List α} (hlen : xs.length = ys.length)
    (h : xs.flatMap f = ys.flatMap f) : xs = ys := by
  induction xs generalizing ys with
  | nil => exact (List.length_eq_zero_iff.mp hlen.symm).symm
  | cons x xs ih =>
    cases ys with
    | nil => cases hlen
    | cons y ys =>
      rw [List.flatMap_cons,List.flatMap_cons] at h
      obtain ⟨hx,hxs⟩ := List.append_inj h ((hf x).trans (hf y).symm)
      rw [hinj hx,ih (Nat.succ.inj hlen) hxs]

/-- So many groups of `w` bits each, as numbers. -/
def groups (w : ℕ) : ℕ → List Bool → List ℕ
  | 0, _ => []
  | n+1, bits => value (bits.take w)::groups w n (bits.drop w)

@[simp] theorem groups_length (w n : ℕ) (bits : List Bool) : (groups w n bits).length = n := by
  induction n generalizing bits with
  | zero => rfl
  | succ n ih => simp [groups,ih]

theorem groups_lt {w n : ℕ} {bits : List Bool} : ∀ v ∈ groups w n bits, v < 2^w := by
  induction n generalizing bits with
  | zero => simp [groups]
  | succ n ih =>
    intro v hv
    rcases List.mem_cons.mp hv with rfl | hv
    · exact (value_lt _).trans_le (Nat.pow_le_pow_right (by decide) (by simp))
    · exact ih v hv

theorem flatMap_groups {w n : ℕ} {bits : List Bool} (h : bits.length = n*w) :
    (groups w n bits).flatMap (digits w) = bits := by
  induction n generalizing bits with
  | zero =>
    rw [Nat.zero_mul,List.length_eq_zero_iff] at h
    rw [h]
    rfl
  | succ n ih =>
    rw [Nat.succ_mul] at h
    have htake : (bits.take w).length = w := by
      rw [List.length_take]
      omega
    have hdrop : (bits.drop w).length = n*w := by
      rw [List.length_drop]
      omega
    have hhead : digits w (value (bits.take w)) = bits.take w := by
      have hd := digits_value (bits.take w)
      rwa [htake] at hd
    rw [groups,List.flatMap_cons,ih hdrop,hhead,List.take_append_drop]

/-! ### Bytes and 5-bit groups -/

def byteBits (bs : List UInt8) : List Bool := bs.flatMap fun b => digits 8 b.toNat

def groupBits (d : List (Fin 32)) : List Bool := d.flatMap fun x => digits 5 x.val

/-- The groups hold the bytes, and fewer than five zeros behind them. -/
def Regroups (d : List (Fin 32)) (bs : List UInt8) : Prop :=
  ∃ k < 5, groupBits d = byteBits bs ++ List.replicate k false

theorem byteBits_length (bs : List UInt8) : (byteBits bs).length = 8*bs.length :=
  flatMap_length (fun _ => digits_length _ _) bs

theorem groupBits_length (d : List (Fin 32)) : (groupBits d).length = 5*d.length :=
  flatMap_length (fun _ => digits_length _ _) d

theorem byteBits_injective {bs cs : List UInt8} (hlen : bs.length = cs.length) (h : byteBits bs = byteBits cs) :
    bs = cs :=
  flatMap_injective (fun _ => digits_length _ _)
    (fun b c hbc => UInt8.toNat_inj.mp (digits_injective b.toNat_lt c.toNat_lt hbc)) hlen h

theorem groupBits_injective {d e : List (Fin 32)} (hlen : d.length = e.length) (h : groupBits d = groupBits e) :
    d = e :=
  flatMap_injective (fun _ => digits_length _ _)
    (fun x y hxy => Fin.ext (digits_injective (w := 5) x.isLt y.isLt hxy)) hlen h

theorem Regroups.length {d : List (Fin 32)} {bs : List UInt8} (h : Regroups d bs) :
    8*bs.length ≤ 5*d.length ∧ 5*d.length < 8*bs.length+5 := by
  obtain ⟨k,hk,h⟩ := h
  have hlen := congrArg List.length h
  rw [groupBits_length,List.length_append,byteBits_length,List.length_replicate] at hlen
  omega

/-- A byte string has one form in groups. -/
theorem Regroups.groups_unique {d e : List (Fin 32)} {bs : List UInt8} (hd : Regroups d bs) (he : Regroups e bs) :
    d = e := by
  have hlen : d.length = e.length := by
    have hld := hd.length
    have hle := he.length
    omega
  obtain ⟨k,_,hd⟩ := hd
  obtain ⟨l,_,he⟩ := he
  have hkl : k = l := by
    have hk := congrArg List.length hd
    have hl := congrArg List.length he
    rw [groupBits_length,List.length_append,List.length_replicate] at hk hl
    omega
  apply groupBits_injective hlen
  rw [hd,he,hkl]

/-! ### Both directions, computed -/

/-- The last five bits of a number as a digit. -/
def digit (v : ℕ) : Fin 32 := ⟨v % 2^5,Nat.mod_lt v (Nat.two_pow_pos 5)⟩

def ofBytes (bs : List UInt8) : List (Fin 32) :=
  let n := (8*bs.length+4)/5
  (groups 5 n (byteBits bs ++ List.replicate (5*n-8*bs.length) false)).map digit

/-- The bytes in front, when fewer than five bits are left over and all of them are zero. -/
def toBytes (d : List (Fin 32)) : Option (List UInt8) :=
  let n := 5*d.length/8
  let rest := (groupBits d).drop (8*n)
  if rest = List.replicate (5*d.length-8*n) false ∧ 5*d.length-8*n < 5 then
    some ((groups 8 n ((groupBits d).take (8*n))).map UInt8.ofNat)
  else none

lemma groupBits_groups {n : ℕ} {bits : List Bool} (h : bits.length = n*5) :
    groupBits ((groups 5 n bits).map digit) = bits := by
  rw [groupBits,List.flatMap_map]
  refine Eq.trans (List.flatMap_congr fun v hv => ?_) (flatMap_groups h)
  exact congrArg (digits 5) (Nat.mod_eq_of_lt (groups_lt v hv))

lemma byteBits_groups {n : ℕ} {bits : List Bool} (h : bits.length = n*8) :
    byteBits ((groups 8 n bits).map UInt8.ofNat) = bits := by
  rw [byteBits,List.flatMap_map]
  refine Eq.trans (List.flatMap_congr fun v hv => ?_) (flatMap_groups h)
  rw [UInt8.toNat_ofNat_of_lt' (groups_lt v hv)]

theorem ofBytes_regroups (bs : List UInt8) : Regroups (ofBytes bs) bs := by
  refine ⟨_,?_,groupBits_groups ?_⟩
  · omega
  · rw [List.length_append,byteBits_length,List.length_replicate]
    omega

theorem toBytes_eq_some {d : List (Fin 32)} {bs : List UInt8} : toBytes d = some bs ↔ Regroups d bs := by
  have hlen := groupBits_length d
  constructor
  · intro h
    obtain ⟨⟨hrest,hk⟩,h⟩ := Option.ite_none_right_eq_some.mp h
    refine ⟨_,hk,?_⟩
    rw [← Option.some.inj h,byteBits_groups,← hrest,List.take_append_drop]
    rw [List.length_take]
    omega
  · intro h
    have hbounds := h.length
    obtain ⟨k,hk,hbits⟩ := h
    have hcount : 5*d.length/8 = bs.length := by omega
    have hzeros := congrArg List.length hbits
    rw [hlen,List.length_append,byteBits_length,List.length_replicate] at hzeros
    have hpad : 5*d.length-8*bs.length = k := by omega
    have htake : (groupBits d).take (8*bs.length) = byteBits bs := by
      rw [hbits]
      exact List.take_left' (byteBits_length bs)
    have hdrop : (groupBits d).drop (8*bs.length) = List.replicate k false := by
      rw [hbits]
      exact List.drop_left' (byteBits_length bs)
    have hback : (groups 8 bs.length (byteBits bs)).map UInt8.ofNat = bs := by
      refine byteBits_injective (by simp) (byteBits_groups ?_)
      rw [byteBits_length,Nat.mul_comm]
    simp only [toBytes,hcount,hpad,htake,hdrop,hback,hk,and_self,if_true]

end Foundation.Base32
