import ZkasSigner.Foundation.Bytes

/-! Private key derivation of BIP-32 over numbers, in the words of the standard. The keyed
hash and the group are left abstract. -/
namespace Foundation.Bip32

/-- A group with a generator of a known order, and the compressed form of its elements. -/
structure Group where
  order : ℕ
  Point : Type
  point : ℕ → Point
  serP : Point → Bytes 33

structure Setting extends Group where
  hmac : List UInt8 → List UInt8 → Bytes 64

def ser32 (i : ℕ) : List UInt8 := Bytes.toBigEndian 4 i
def ser256 (p : ℕ) : List UInt8 := Bytes.toBigEndian 32 p
def parse256 (bs : List UInt8) : ℕ := Bytes.ofBigEndian bs

def left (I : Bytes 64) : List UInt8 := I.val.take 32
def right (I : Bytes 64) : List UInt8 := I.val.drop 32

/-- An extended private key (k, c). -/
@[ext] structure PrivateKey where
  k : ℕ
  c : List UInt8
  deriving DecidableEq, Repr

variable (S : Setting)

/-- The key "Bitcoin seed", in ASCII. -/
def masterSalt : List UInt8 := [66,105,116,99,111,105,110,32,115,101,101,100]

def masterHash (seed : List UInt8) : Bytes 64 := S.hmac masterSalt seed

def MasterInvalid (seed : List UInt8) : Prop :=
  parse256 (left (masterHash S seed)) = 0 ∨ S.order ≤ parse256 (left (masterHash S seed))

instance (seed : List UInt8) : Decidable (MasterInvalid S seed) := inferInstanceAs (Decidable (_ ∨ _))

def masterKey (seed : List UInt8) : Option PrivateKey :=
  if MasterInvalid S seed then none
  else some ⟨parse256 (left (masterHash S seed)),right (masterHash S seed)⟩

/-- Hardened children hash the private key, the others hash the public key. -/
def childHash (x : PrivateKey) (i : ℕ) : Bytes 64 :=
  S.hmac x.c (if 2^31 ≤ i then 0 :: ser256 x.k ++ ser32 i else (S.serP (S.point x.k)).val ++ ser32 i)

def childKey (x : PrivateKey) (i : ℕ) : ℕ := (parse256 (left (childHash S x i))+x.k) % S.order

def ChildInvalid (x : PrivateKey) (i : ℕ) : Prop :=
  S.order ≤ parse256 (left (childHash S x i)) ∨ childKey S x i = 0

instance (x : PrivateKey) (i : ℕ) : Decidable (ChildInvalid S x i) := inferInstanceAs (Decidable (_ ∨ _))

def ckdPriv (x : PrivateKey) (i : ℕ) : Option PrivateKey :=
  if ChildInvalid S x i then none else some ⟨childKey S x i,right (childHash S x i)⟩

def derive (seed : List UInt8) (path : List ℕ) : Option PrivateKey :=
  (masterKey S seed).bind fun x => path.foldlM (ckdPriv S) x

variable {S}

theorem masterKey_eq_none {seed : List UInt8} : masterKey S seed = none ↔ MasterInvalid S seed := by
  unfold masterKey
  split_ifs with h <;> simp [h]

theorem ckdPriv_eq_none {x : PrivateKey} {i : ℕ} : ckdPriv S x i = none ↔ ChildInvalid S x i := by
  unfold ckdPriv
  split_ifs with h <;> simp [h]

/-- A walk fails exactly at the first step that does. -/
theorem foldlM_eq_none {σ ι : Type*} {f : σ → ι → Option σ} {path : List ι} {s : σ} :
    path.foldlM f s = none ↔
      ∃ front i back x, path = front ++ i::back ∧ front.foldlM f s = some x ∧ f x i = none := by
  induction path generalizing s with
  | nil => simp
  | cons j path ih =>
    rw [List.foldlM_cons]
    -- the walk stops at its first step, or somewhere in the rest of it
    constructor
    · intro h
      cases hj : f s j with
      | none => exact ⟨[],j,path,s,rfl,rfl,hj⟩
      | some t =>
        rw [hj] at h
        obtain ⟨front,i,back,x,rfl,hf,hx⟩ := ih.mp h
        refine ⟨j::front,i,back,x,rfl,?_,hx⟩
        rw [List.foldlM_cons,hj]
        exact hf
    · intro h
      obtain ⟨front,i,back,x,he,hf,hx⟩ := h
      cases front with
      | nil =>
        obtain ⟨rfl,rfl⟩ := List.cons.inj he
        obtain rfl := Option.some.inj hf
        rw [hx]
        rfl
      | cons k front =>
        obtain ⟨rfl,rfl⟩ := List.cons.inj he
        rw [List.foldlM_cons] at hf
        cases hj : f s j with
        | none => rfl
        | some t =>
          rw [hj] at hf
          exact ih.mpr ⟨front,i,back,x,rfl,hf,hx⟩

/-- There is no key at a path exactly when the master key is invalid, or some step from a key
on the way is. -/
theorem derive_eq_none {seed : List UInt8} {path : List ℕ} :
    derive S seed path = none ↔ MasterInvalid S seed ∨
      ∃ front i back x, path = front ++ i::back ∧ derive S seed front = some x ∧ ChildInvalid S x i := by
  unfold derive
  cases hm : masterKey S seed with
  | none => simp [masterKey_eq_none.mp hm]
  | some s =>
    have hv : ¬ MasterInvalid S seed := fun h => by simp [masterKey_eq_none.mpr h] at hm
    simp only [Option.bind_some,foldlM_eq_none,ckdPriv_eq_none,hv,false_or]

end Foundation.Bip32
