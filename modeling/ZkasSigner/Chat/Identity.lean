import ZkasSigner.Chat.Derivation

/-! The chat identity of a secret: a recovery phrase, or a legacy raw seed. -/
namespace ZkasSigner.Chat
open Foundation Foundation.Text Foundation.Outcome

def LEGACY_DOMAIN : List UInt8 := asBytes "zkas-chat-identity-v1"

structure ChatIdentity where
  privkeyHex : String
  pubkeyHex : String
  nsec : String
  npub : String
  nip06 : Bool
  deriving DecidableEq, Repr

variable (C : IdentityCrates)

/-- Recovery phrase to seed, white space collapsed and letters lowered, without a passphrase. -/
def phraseSeed (phrase : String) : Outcome (List UInt8) := do
  let mnemonic ← mapErr ("that is not a valid recovery phrase: " ++ ·)
    (C.phrases.parseNormalized (C.phrases.cleaned phrase))
  return (C.phrases.toSeedNormalized mnemonic "").val

/-- Legacy raw seed to 64 bytes, under a tag used nowhere else. -/
def legacySeed (raw : List UInt8) : Outcome (List UInt8) := do
  if raw.length ≠ 32 then fail "seed must be exactly 32 bytes (64 hex chars)"
  else
    let mac ← mapErr (fun _ => "hmac key") (C.hmac.newFromSlice LEGACY_DOMAIN)
    return (mac raw).val

def encodeIdentity (sk : NonZeroScalar C.curve) (nip06 : Bool) : Outcome ChatIdentity := do
  let privBytes := sk.val.toBytes.val
  let pubBytes := sk.publicKey.val.drop 1
  let nsec ← expect "static hrp is valid" (C.bech32.encode "nsec" (C.bech32.toBase32 privBytes) .bech32)
  let npub ← expect "static hrp is valid" (C.bech32.encode "npub" (C.bech32.toBase32 pubBytes) .bech32)
  return ⟨C.hex.encode privBytes,C.hex.encode pubBytes,nsec,npub,nip06⟩

/-- The seed a trimmed secret stands for, and whether it came from a phrase. -/
def secretSeed (s : String) : Outcome (List UInt8 × Bool) := do
  if isRawSeed s then
    let raw ← mapErr ("seed is not hex: " ++ ·) (C.hex.decode s)
    let expanded ← legacySeed C raw
    return (expanded,false)
  else
    let seed ← phraseSeed C s
    return (seed,true)

def chatIdentity (secret : String) (account : UInt32) : Outcome ChatIdentity := do
  let s := trim secret
  if s.isEmpty then fail "enter your recovery phrase"
  else
    let (seed,nip06) ← secretSeed C s
    let sk ← deriveNip06 C seed account
    encodeIdentity C sk nip06

variable {C}

/-- Accounts that agree in their low 31 bits are one identity, for every secret and every
behaviour of the crates. -/
theorem chatIdentity_alias {a b : UInt32} (h : a.toNat % 2^31 = b.toNat % 2^31) (secret : String) :
    chatIdentity C secret a = chatIdentity C secret b := by
  have hd : ∀ seed, deriveNip06 C seed a = deriveNip06 C seed b := by
    intro seed
    rw [deriveNip06,deriveNip06,nip06Path_eq_iff.mpr h]
  unfold chatIdentity
  simp only [hd]

/-- Two different accounts that both derive walk different indices, with nothing out of range
let through, exactly when both are below 2^31. -/
theorem chatIdentity_accounts_iff {secret : String} {a b : UInt32} {x y : ChatIdentity} (hab : a ≠ b)
    (ha : chatIdentity C secret a = .ok x) (hb : chatIdentity C secret b = .ok y) :
    (nip06Path a ≠ nip06Path b ∧ (2^31 ≤ a.toNat → (chatIdentity C secret a).Errs) ∧
      (2^31 ≤ b.toNat → (chatIdentity C secret b).Errs)) ↔ a.toNat < 2^31 ∧ b.toNat < 2^31 := by
  have hok : ∀ {account id}, chatIdentity C secret account = .ok id →
      ¬ (chatIdentity C secret account).Errs := by
    rintro account id h ⟨m,he⟩
    rw [h] at he
    cases he
  constructor
  · intro h
    obtain ⟨_,hra,hrb⟩ := h
    exact ⟨Nat.not_le.mp fun h => hok ha (hra h),Nat.not_le.mp fun h => hok hb (hrb h)⟩
  · intro h
    obtain ⟨hla,hlb⟩ := h
    refine ⟨?_,fun h => absurd h (Nat.not_le.mpr hla),fun h => absurd h (Nat.not_le.mpr hlb)⟩
    rw [ne_eq,nip06Path_eq_iff,Nat.mod_eq_of_lt hla,Nat.mod_eq_of_lt hlb]
    exact fun h => hab (UInt32.toNat_inj.mp h)

open Recorded

/-- Account 2^31 of a secret is its account 0 again. -/
theorem chatIdentity_aliased :
    ∃ id, chatIdentity identityCrates rawSeed 0 = .ok id ∧ chatIdentity identityCrates rawSeed 0x80000000 = .ok id ∧
      nip06Path 0 = nip06Path 0x80000000 := by
  have h : chatIdentity identityCrates rawSeed 0 =
      .ok ⟨"b46042b952f0d39a586d5e92351490837f0c9732c5ab125615d02b2d1142d237",
        "88a57245d3036faef567a7ebc54f0f860926b5b6d21e54dbc24be01dd5b71240",
        "nsec1k3sy9w2j7rfe5krdt6fr29yssdlse9ejck43y4s46q4j6y2z6gmsy7hfk6",
        "npub13zjhy3wnqdh6aat85l4u2nc0scyjdddk6g09fk7zf0spm4dhzfqqgh6scc",false⟩ := by decide +kernel
  exact ⟨_,h,(chatIdentity_alias (by decide) rawSeed).trans h,by decide⟩

theorem chatIdentity_accounts_recorded :
    nip06Path 0 ≠ nip06Path 1 ∧ (2^31 ≤ (0 : UInt32).toNat → (chatIdentity identityCrates rawSeed 0).Errs) ∧
      (2^31 ≤ (1 : UInt32).toNat → (chatIdentity identityCrates rawSeed 1).Errs) := by
  have h : ∀ account, ((chatIdentity identityCrates rawSeed account).toOption.isSome = true) →
      ∃ id, chatIdentity identityCrates rawSeed account = .ok id := by
    intro account hs
    obtain ⟨id,hid⟩ := Option.isSome_iff_exists.mp hs
    exact ⟨id,toOption_eq_some.mp hid⟩
  obtain ⟨x,hx⟩ := h 0 (by decide +kernel)
  obtain ⟨y,hy⟩ := h 1 (by decide +kernel)
  exact (chatIdentity_accounts_iff (by decide) hx hy).mpr (by decide)

end ZkasSigner.Chat
