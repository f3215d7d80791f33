import ZkasSigner.Crates.Keys

/-! The walk m/44'/1237'/account'/0/0 from a seed to the secret key of a chat identity. -/
namespace ZkasSigner.Chat
open Foundation Foundation.Text Foundation.Outcome

def HARDENED : UInt32 := 0x80000000

/-- The coin type NIP-06 fixes for Nostr. -/
def NOSTR_COIN_TYPE : UInt32 := 1237

/-- `u32::to_be_bytes`. -/
def toBeBytes (i : UInt32) : List UInt8 :=
  [(i >>> 24).toUInt8,(i >>> 16).toUInt8,(i >>> 8).toUInt8,i.toUInt8]

variable (C : IdentityCrates)

/-- A private node: the scalar, and next to it its chain code. -/
abbrev Node := NonZeroScalar C.curve × Bytes 32

def halves (i : Bytes 64) : Bytes 32 × Bytes 32 :=
  (⟨i.val.take 32,by simp [i.property]⟩,⟨i.val.drop 32,by simp [i.property]⟩)

/-- Split an output into scalar and chain code, rejecting what is out of range. -/
def split (i : Bytes 64) : Option (Node C) := do
  let scalar ← Scalar.fromReprVartime (halves i).1
  let nz ← NonZeroScalar.new scalar
  return (nz,(halves i).2)

def master (seed : List UInt8) : Outcome (Node C) := do
  let mac ← mapErr (fun _ => "hmac key") (C.hmac.newFromSlice (asBytes "Bitcoin seed"))
  okOr "invalid master key from seed" (split C (mac seed))

/-- CKDpriv. Hardened when the index is at least 2^31. -/
def ckdPriv (parent : Node C) (index : UInt32) : Outcome (Node C) := do
  let mac ← mapErr (fun _ => "hmac key") (C.hmac.newFromSlice parent.2.val)
  let front := if HARDENED ≤ index then 0 :: parent.1.val.toBytes.val else parent.1.publicKey.val
  let i := mac (front ++ toBeBytes index)
  let il ← okOr "derived scalar out of range" (Scalar.fromReprVartime (halves i).1)
  let child ← okOr "derived key is zero" (NonZeroScalar.new (il+parent.1.val))
  return (child,(halves i).2)

/-- The child indices the derivation walks. -/
def nip06Path (account : UInt32) : List UInt32 :=
  [44 ||| HARDENED,NOSTR_COIN_TYPE ||| HARDENED,account ||| HARDENED,0,0]

def deriveNip06 (seed : List UInt8) (account : UInt32) : Outcome (NonZeroScalar C.curve) := do
  let start ← master C seed
  let leaf ← (nip06Path account).foldlM (ckdPriv C) start
  return leaf.1

/-! ### The walk is the one of the standard -/

/-- The standard's parameters, as the crates provide them. -/
def setting (H : List UInt8 → List UInt8 → Bytes 64) : Bip32.Setting := { C.curve with hmac := H }

variable {C}

/-- A node as an extended private key. -/
def Node.view (x : Node C) : Bip32.PrivateKey := ⟨x.1.val.val,x.2.val⟩

theorem toBeBytes_eq (i : UInt32) : toBeBytes i = Bip32.ser32 i.toNat := by
  simp only [toBeBytes,Bip32.ser32,Bytes.toBigEndian,List.nil_append,List.cons_append]
  have hb : ∀ k : UInt32, (i >>> k).toUInt8 = UInt8.ofNat (i.toNat >>> (k.toNat % 32)) := by
    intro k
    apply UInt8.toNat_inj.mp
    simp
  rw [hb,hb,hb]
  simp [Nat.shiftRight_eq_div_pow,Nat.div_div_eq_div_mul]

/-- A scalar out of range, or zero, is refused; nothing else is. -/
theorem split_view (i : Bytes 64) : (split C i).map Node.view =
    if Bip32.parse256 (Bip32.left i) = 0 ∨ C.curve.order ≤ Bip32.parse256 (Bip32.left i) then none
    else some ⟨Bip32.parse256 (Bip32.left i),Bip32.right i⟩ := by
  change ((Scalar.fromReprVartime (halves i).1).bind fun scalar => (NonZeroScalar.new scalar).bind fun nz =>
    some ((nz,(halves i).2) : Node C)).map Node.view = if Bytes.ofBigEndian (halves i).1.val = 0 ∨
    C.curve.order ≤ Bytes.ofBigEndian (halves i).1.val then none else _
  unfold Scalar.fromReprVartime
  by_cases hn : Bytes.ofBigEndian (halves i).1.val < C.curve.order
  · rw [dif_pos hn,Option.bind_some]
    by_cases h0 : Bytes.ofBigEndian (halves i).1.val = 0
    · rw [if_pos (Or.inl h0),NonZeroScalar.new,dif_neg (not_not.mpr h0)]
      rfl
    · rw [if_neg (not_or.mpr ⟨h0,Nat.not_le.mpr hn⟩),NonZeroScalar.new,dif_pos h0]
      rfl
  · rw [dif_neg hn,if_pos (Or.inr (Nat.not_lt.mp hn)),Option.bind_none,Option.map_none]

/-- The scalar half of a child step: an output of zero is let through, a child of zero is not. -/
theorem child_view (i : Bytes 64) (k : NonZeroScalar C.curve) :
    ((Scalar.fromReprVartime (halves i).1).bind fun il => (NonZeroScalar.new (il+k.val)).bind fun child =>
      some ((child,(halves i).2) : Node C)).map Node.view =
    if C.curve.order ≤ Bip32.parse256 (Bip32.left i) ∨
      (Bip32.parse256 (Bip32.left i)+k.val.val) % C.curve.order = 0 then none
    else some ⟨(Bip32.parse256 (Bip32.left i)+k.val.val) % C.curve.order,Bip32.right i⟩ := by
  change _ = if C.curve.order ≤ Bytes.ofBigEndian (halves i).1.val ∨
    (Bytes.ofBigEndian (halves i).1.val+k.val.val) % C.curve.order = 0 then none else _
  unfold Scalar.fromReprVartime
  by_cases hn : Bytes.ofBigEndian (halves i).1.val < C.curve.order
  · have hadd : ((⟨_,hn⟩ : Scalar C.curve)+k.val).val =
        (Bytes.ofBigEndian (halves i).1.val+k.val.val) % C.curve.order := Fin.val_add _ _
    rw [dif_pos hn,Option.bind_some]
    by_cases h0 : (Bytes.ofBigEndian (halves i).1.val+k.val.val) % C.curve.order = 0
    · rw [if_pos (Or.inr h0),NonZeroScalar.new,dif_neg (not_not.mpr (hadd.trans h0))]
      rfl
    · rw [if_neg (not_or.mpr ⟨Nat.not_le.mpr hn,h0⟩),NonZeroScalar.new,dif_pos (hadd ▸ h0)]
      exact congrArg some (Bip32.PrivateKey.ext hadd rfl)
  · rw [dif_neg hn,if_pos (Or.inl (Nat.not_lt.mp hn)),Option.bind_none,Option.map_none]

section
variable {H : List UInt8 → List UInt8 → Bytes 64} (hH : C.hmac.Computes H)
include hH

theorem master_view (seed : List UInt8) :
    (master C seed).toOption.map Node.view = Bip32.masterKey (setting C H) seed := by
  have hs : asBytes "Bitcoin seed" = Bip32.masterSalt := by decide
  rw [master,hH,hs]
  change (okOr _ (split C (H Bip32.masterSalt seed))).toOption.map Node.view = _
  rw [toOption_okOr,split_view]
  rfl

theorem ckdPriv_view (x : Node C) (index : UInt32) :
    (ckdPriv C x index).toOption.map Node.view = Bip32.ckdPriv (setting C H) x.view index.toNat := by
  have hi : H x.2.val ((if HARDENED ≤ index then 0 :: x.1.val.toBytes.val else x.1.publicKey.val) ++
      toBeBytes index) = Bip32.childHash (setting C H) x.view index.toNat := by
    rw [toBeBytes_eq]
    by_cases h : HARDENED ≤ index
    · have hn : 2^31 ≤ index.toNat := h
      rw [if_pos h,Bip32.childHash,if_pos hn]
      rfl
    · have hn : ¬ 2^31 ≤ index.toNat := h
      rw [if_neg h,Bip32.childHash,if_neg hn]
      rfl
  rw [ckdPriv,hH]
  simp only [mapErr,ok_bind,hi,toOption_bind,toOption_okOr]
  exact child_view (Bip32.childHash (setting C H) x.view index.toNat) x.1

theorem deriveNip06_view (seed : List UInt8) (account : UInt32) :
    (deriveNip06 C seed account).toOption.map (fun sk => sk.val.val) =
      (Bip32.derive (setting C H) seed ((nip06Path account).map UInt32.toNat)).map Bip32.PrivateKey.k := by
  rw [deriveNip06,toOption_bind,Bip32.derive,← master_view hH]
  cases hm : (master C seed).toOption with
  | none => rfl
  | some start =>
    rw [Option.bind_some,Option.map_some,Option.bind_some,toOption_bind,
      ← toOption_foldlM (fun x i => ckdPriv_view hH x i)]
    cases ((nip06Path account).foldlM (ckdPriv C) start).toOption <;> rfl

end

theorem ckdPriv_returns (x : Node C) (index : UInt32) : (ckdPriv C x index).Returns :=
  (returns_mapErr _ _).bind fun _ => (returns_okOr _ _).bind fun _ => (returns_okOr _ _).bind fun _ =>
    returns_ok _

theorem deriveNip06_returns (seed : List UInt8) (account : UInt32) :
    (deriveNip06 C seed account).Returns := by
  have hm : (master C seed).Returns := (returns_mapErr _ _).bind fun _ => returns_okOr _ _
  exact hm.bind fun start => (returns_foldlM ckdPriv_returns _ start).bind fun _ => returns_ok _

/-- Setting the top bit forgets what it was. -/
theorem toNat_or_hardened (x : UInt32) : (x ||| HARDENED).toNat = 2^31 + x.toNat % 2^31 := by
  have hx := x.toNat_lt
  have hr : x.toNat % 2^31 < 2^31 := Nat.mod_lt _ (by decide)
  have hor : ∀ r < 2^31, 2^31 + r = 2^31 ||| r := fun r h => by
    simpa using Nat.two_pow_add_eq_or_of_lt h 1
  rw [UInt32.toNat_or,show HARDENED.toNat = 2^31 from rfl,hor _ hr,Nat.or_comm]
  by_cases hb : x.toNat < 2^31
  · rw [Nat.mod_eq_of_lt hb]
  · -- the top bit is there already, and setting it twice is setting it once
    have he : x.toNat = 2^31 ||| x.toNat % 2^31 := by
      rw [← hor _ hr]
      omega
    calc 2^31 ||| x.toNat = 2^31 ||| (2^31 ||| x.toNat % 2^31) := by rw [← he]
      _ = 2^31 ||| x.toNat % 2^31 := by rw [← Nat.or_assoc,Nat.or_self]

/-- The indices of an account, as numbers: only its low 31 bits are in them. -/
theorem nip06Path_toNat (account : UInt32) :
    (nip06Path account).map UInt32.toNat = [2^31+44,2^31+1237,2^31+account.toNat % 2^31,0,0] := by
  simp only [nip06Path,List.map_cons,List.map_nil,toNat_or_hardened]
  rfl

/-- Two accounts walk alike exactly when they agree in their low 31 bits. -/
theorem nip06Path_eq_iff {a b : UInt32} :
    nip06Path a = nip06Path b ↔ a.toNat % 2^31 = b.toNat % 2^31 := by
  have hinj : Function.Injective UInt32.toNat := fun _ _ h => UInt32.toNat_inj.mp h
  rw [← (List.map_injective_iff.mpr hinj).eq_iff,nip06Path_toNat,nip06Path_toNat]
  simp

/-- The derivation is the one of the standard at m/44'/1237'/account'/0/0, and it returns an
error exactly when the standard has no key there: the master hash is zero or out of range, or
on the way a child hash is out of range or a child key is zero. -/
theorem deriveNip06_standard {H : List UInt8 → List UInt8 → Bytes 64} (hH : C.hmac.Computes H)
    (seed : List UInt8) {account : UInt32} (haccount : account.toNat < 2^31) :
    (deriveNip06 C seed account).toOption.map (fun sk => sk.val.val) =
      (Bip32.derive (setting C H) seed [2^31+44,2^31+1237,2^31+account.toNat,0,0]).map Bip32.PrivateKey.k ∧
    ((deriveNip06 C seed account).Errs ↔ Bip32.MasterInvalid (setting C H) seed ∨
      ∃ front i back x, [2^31+44,2^31+1237,2^31+account.toNat,0,0] = front ++ i::back ∧
        Bip32.derive (setting C H) seed front = some x ∧ Bip32.ChildInvalid (setting C H) x i) := by
  have hpath := nip06Path_toNat account
  rw [Nat.mod_eq_of_lt haccount] at hpath
  have hview := deriveNip06_view hH seed account
  rw [hpath] at hview
  refine ⟨hview,?_⟩
  rw [(deriveNip06_returns seed account).errs_iff,← Bip32.derive_eq_none]
  rw [← Option.map_eq_none_iff (f := fun sk : NonZeroScalar C.curve => sk.val.val),hview,
    Option.map_eq_none_iff]

open Recorded in
theorem deriveNip06_standard_recorded :
    (Bip32.derive (setting identityCrates mac) expandedSeed.val [2^31+44,2^31+1237,2^31+0,0,0]).map
      Bip32.PrivateKey.k = some 0xb46042b952f0d39a586d5e92351490837f0c9732c5ab125615d02b2d1142d237 ∧
    ¬ (deriveNip06 identityCrates expandedSeed.val 0).Errs := by
  have hzero : (0 : UInt32).toNat < 2^31 := by decide
  obtain ⟨hview,_⟩ := deriveNip06_standard mac_computes expandedSeed.val hzero
  refine ⟨hview.symm.trans ?_,?_⟩
  · decide +kernel
  · decide +kernel

end ZkasSigner.Chat
