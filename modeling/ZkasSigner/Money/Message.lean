import ZkasSigner.Money.Account

/-! Messages signed to prove control of an address. The signature is sent as viewing key and
signature in one text, and the network is a tag under it: the signer takes the tag from the
network it is asked for, the verifier from the address it is given. -/
namespace ZkasSigner.Money
open Foundation Foundation.Text Foundation.Outcome

def FVK_LEN : ℕ := 96
def SIG_LEN : ℕ := 64

structure Signature where
  address : String
  signatureHex : String
  deriving DecidableEq

/-- `<[u8; n]>::try_from(slice).expect(message)`. -/
def arrayExpect (n : ℕ) (message : String) (slice : List UInt8) : Outcome (Bytes n) :=
  match Bytes.tryFrom n slice with
  | some array => .ok array
  | none => abort (message ++ ": TryFromSliceError(())")

variable (C : WalletCrates)

def sign (seedHex network message : String) (rng : C.Rng) : Outcome Signature := do
  let pre ← prefixFrom network
  let seed ← parseSeed C.toMoneyCrates seedHex
  let tag := C.prefixToString pre
  let signed ← okOr "seed is not a valid Orchard spending key"
    (C.signMessage seed (asBytes tag) (asBytes message) rng)
  return ⟨addressString C pre signed.address,C.hex.encode (signed.fvk.val ++ signed.sig.val)⟩

def verify (address message signatureHex : String) : Outcome Bool := do
  let addr ← mapErr ("invalid address: " ++ ·) (C.addressTryFrom (trim address))
  let tag := C.prefixToString addr.addressPrefix
  let raw ← okOr "address is not a shielded Orchard address" (C.orchardRecipientBytes addr)
  let blob ← mapErr ("signature is not hex: " ++ ·) (C.hex.decode (trim signatureHex))
  if blob.length ≠ FVK_LEN+SIG_LEN then
    fail ("signature must be " ++ toString (FVK_LEN+SIG_LEN) ++ " bytes (fvk||sig); got " ++ toString blob.length)
  else
    let fvk ← arrayExpect FVK_LEN "checked length" (blob.take FVK_LEN)
    let sig ← arrayExpect SIG_LEN "checked length" (blob.drop FVK_LEN)
    return (C.verifyMessage raw (asBytes tag) (asBytes message) fvk sig).toBool

/-! ### What the crates promise of addresses and signatures -/

/-- The address of a key, under any network, reads back as what it was printed from. -/
structure AddressesParse : Prop where
  print_trimmed : ∀ addr, trim (C.addressToString addr) = C.addressToString addr
  parse_print : ∀ {seed raw}, C.addressBytesFromSeed seed = some raw → ∀ pre,
    C.addressTryFrom (C.addressToString ⟨pre,C.shieldedOrchard,raw.val⟩) = .ok ⟨pre,C.shieldedOrchard,raw.val⟩
  recipient : ∀ {seed raw}, C.addressBytesFromSeed seed = some raw → ∀ pre,
    C.orchardRecipientBytes ⟨pre,C.shieldedOrchard,raw.val⟩ = some raw
  prefix_injective : Function.Injective C.prefixToString

/-- A signature is for the address of its key, and is accepted for what was signed only. -/
structure SignaturesBind : Prop where
  address : ∀ {seed tag message rng signed}, C.signMessage seed tag message rng = some signed →
    C.addressBytesFromSeed seed = some signed.address
  accepts : ∀ {seed tag message rng signed}, C.signMessage seed tag message rng = some signed →
    ∀ raw tag' message', C.verifyMessage raw tag' message' signed.fvk signed.sig = .ok () ↔
      raw = signed.address ∧ tag' = tag ∧ message' = message

variable {C}

theorem arrayExpect_val {n : ℕ} {message : String} {slice : List UInt8} {array : Bytes n}
    (h : slice = array.val) : arrayExpect n message slice = .ok array := by
  rw [arrayExpect,Bytes.tryFrom_eq_some.mpr h]

theorem sign_eq_ok {seedHex network message : String} {rng : C.Rng} {s : Signature} :
    sign C seedHex network message rng = .ok s ↔ ∃ pre seed signed, prefixFrom network = .ok pre ∧
      parseSeed C.toMoneyCrates seedHex = .ok seed ∧
      C.signMessage seed (asBytes (C.prefixToString pre)) (asBytes message) rng = some signed ∧
      s = ⟨addressString C pre signed.address,C.hex.encode (signed.fvk.val ++ signed.sig.val)⟩ := by
  simp only [sign,bind_eq_ok,okOr_eq_ok,pure_eq_ok,Except.ok.injEq]
  constructor
  · intro h
    obtain ⟨pre,hpre,seed,hseed,signed,hsigned,rfl⟩ := h
    exact ⟨pre,seed,signed,hpre,hseed,hsigned,rfl⟩
  · intro h
    obtain ⟨pre,seed,signed,hpre,hseed,hsigned,rfl⟩ := h
    exact ⟨pre,hpre,seed,hseed,signed,hsigned,rfl⟩

/-- On an address and a signature that decode, the verifier of messages decides. -/
theorem verify_of_decoded {address message signatureHex : String} {addr : Address C.Version} {raw : Bytes 43}
    {fvk : Bytes 96} {sig : Bytes 64} (haddr : C.addressTryFrom (trim address) = .ok addr)
    (hraw : C.orchardRecipientBytes addr = some raw)
    (hblob : C.hex.decode (trim signatureHex) = .ok (fvk.val ++ sig.val)) :
    verify C address message signatureHex =
      .ok (C.verifyMessage raw (asBytes (C.prefixToString addr.addressPrefix)) (asBytes message) fvk sig).toBool := by
  have hlen : (fvk.val ++ sig.val).length = FVK_LEN+SIG_LEN := by
    rw [List.length_append,fvk.property,sig.property]
    rfl
  have hfvk : arrayExpect FVK_LEN "checked length" ((fvk.val ++ sig.val).take FVK_LEN) = .ok fvk :=
    arrayExpect_val (List.take_left' fvk.property)
  have hsig : arrayExpect SIG_LEN "checked length" ((fvk.val ++ sig.val).drop FVK_LEN) = .ok sig :=
    arrayExpect_val (List.drop_left' fvk.property)
  simp only [verify,haddr,hraw,hblob,mapErr,okOr,ok_bind,hlen,ne_eq,not_true,if_false,hfvk,hsig,pure_eq_ok]
  rfl

section
variable (hhex : C.hex.Documented) (haddr : AddressesParse C) (hsig : SignaturesBind C)
include hhex haddr hsig

/-- What a key signed, sent with the address of the key under any network, reaches the verifier
whole: the tag is the one of that network, the rest is what was signed. -/
theorem verify_signed {seed : Bytes 32} {tag : List UInt8} {text message : String} {rng : C.Rng}
    {signed : MessageSignature} (h : C.signMessage seed tag (asBytes text) rng = some signed) (pre : Prefix)
    (V : Bytes 43 → List UInt8 → List UInt8 → Bytes 96 → Bytes 64 → Except String Unit) :
    verify (C.withVerifier V) (addressString C pre signed.address) message
        (C.hex.encode (signed.fvk.val ++ signed.sig.val)) =
      .ok (V signed.address (asBytes (C.prefixToString pre)) (asBytes message) signed.fvk signed.sig).toBool := by
  have hkey := hsig.address h
  have hparse : C.addressTryFrom (trim (addressString C pre signed.address)) =
      .ok ⟨pre,C.shieldedOrchard,signed.address.val⟩ := by
    rw [addressString,haddr.print_trimmed,haddr.parse_print hkey]
  have hblob : C.hex.decode (trim (C.hex.encode (signed.fvk.val ++ signed.sig.val))) =
      .ok (signed.fvk.val ++ signed.sig.val) := by
    rw [hhex.trim_encode,hhex.decode_encode]
  exact verify_of_decoded (C := C.withVerifier V) hparse (haddr.recipient hkey pre) hblob

/-- A signature verifies under the address it was returned with, which is the address of the
secret, and under the address of the same key on any other network it does not. The verifier of
messages is given what was signed, and nothing else. -/
theorem sign_verifies {secret network message : String} {rng : C.Rng} {s : Signature}
    (h : sign C secret network message rng = .ok s) :
    ∃ pre key signed, prefixFrom network = .ok pre ∧ resolveSecret C.toMoneyCrates secret = .ok key ∧
      C.signMessage key (asBytes (C.prefixToString pre)) (asBytes message) rng = some signed ∧
      verify C s.address message s.signatureHex = .ok true ∧
      addressFromSeed C secret network = .ok s.address ∧
      (∀ V, verify (C.withVerifier V) s.address message s.signatureHex =
        .ok (V signed.address (asBytes (C.prefixToString pre)) (asBytes message) signed.fvk signed.sig).toBool) ∧
      C.addressBytesFromSeed key = some signed.address ∧
      ∀ other ≠ pre, verify C (addressString C other signed.address) message s.signatureHex = .ok false := by
  obtain ⟨pre,key,signed,hpre,hkey,hsigned,rfl⟩ := sign_eq_ok.mp h
  have hraw := hsig.address hsigned
  have hfacts : ∀ other V, verify (C.withVerifier V) (addressString C other signed.address) message
      (C.hex.encode (signed.fvk.val ++ signed.sig.val)) =
        .ok (V signed.address (asBytes (C.prefixToString other)) (asBytes message) signed.fvk signed.sig).toBool :=
    fun other V => verify_signed hhex haddr hsig hsigned other V
  refine ⟨pre,key,signed,hpre,hkey,hsigned,?_,?_,hfacts pre,hraw,?_⟩
  · have hown := (hsig.accepts hsigned signed.address _ _).mpr ⟨rfl,rfl,rfl⟩
    have hv := hfacts pre C.verifyMessage
    rw [hown] at hv
    exact hv
  · simp only [addressFromSeed,hpre,hkey,hraw,okOr,ok_bind,pure_eq_ok]
  · intro other hne
    have hv := hfacts other C.verifyMessage
    cases hm : C.verifyMessage signed.address (asBytes (C.prefixToString other)) (asBytes message)
        signed.fvk signed.sig with
    | error e =>
      rw [hm] at hv
      exact hv
    | ok u =>
      obtain ⟨_,htag,_⟩ := (hsig.accepts hsigned _ _ _).mp hm
      exact absurd (haddr.prefix_injective (asBytes_injective htag)) hne

end

namespace Messages
open Recorded

lemma recipient_of_seed {seed : Bytes 32} {raw : Bytes 43}
    (h : walletCrates.addressBytesFromSeed seed = some raw) : raw = phraseRecipient := by
  obtain ⟨_,h⟩ := Option.ite_none_right_eq_some.mp h
  exact (Option.some.inj h).symm

theorem addressesParse : AddressesParse walletCrates where
  print_trimmed addr := by
    change trim (printAddress addr) = printAddress addr
    unfold printAddress
    split_ifs
    · cases addr.addressPrefix <;> decide +kernel
    · decide
  parse_print h pre := by
    rw [recipient_of_seed h]
    exact parse_addressText pre
  recipient h pre := by
    rw [recipient_of_seed h]
    rfl
  prefix_injective pre other h := by
    cases pre <;> cases other <;> simp_all [walletCrates,prefixText]

lemma signed_recorded {seed : Bytes 32} {tag message : List UInt8} {rng : Unit} {signed : MessageSignature}
    (h : walletCrates.signMessage seed tag message rng = some signed) :
    seed = phraseKey ∧ tag = signedTag ∧ message = signedText ∧ signed = signedMessage := by
  obtain ⟨⟨hseed,htag,htext⟩,h⟩ := Option.ite_none_right_eq_some.mp h
  exact ⟨hseed,htag,htext,(Option.some.inj h).symm⟩

theorem signaturesBind : SignaturesBind walletCrates where
  address h := by
    obtain ⟨rfl,_,_,rfl⟩ := signed_recorded h
    rfl
  accepts h raw tag' message' := by
    obtain ⟨rfl,rfl,rfl,rfl⟩ := signed_recorded h
    change ite _ _ _ = _ ↔ raw = phraseRecipient ∧ _
    simp

end Messages
open Recorded Messages

/-- A phrase as typed signs for the testnet, and the mainnet address of its key does not verify. -/
theorem sign_verifies_recorded :
    ∃ s, sign walletCrates typedPhrase "TestNet" "i control this address" () = .ok s ∧
      verify walletCrates s.address "i control this address" s.signatureHex = .ok true ∧
      verify walletCrates (addressText .mainnet) "i control this address" s.signatureHex = .ok false := by
  have hs : sign walletCrates typedPhrase "TestNet" "i control this address" () = .ok
      ⟨addressString walletCrates .testnet phraseRecipient,hexCrate.encode (signedMessage.fvk.val ++ signedMessage.sig.val)⟩ :=
    sign_eq_ok.mpr ⟨.testnet,phraseKey,signedMessage,by decide,resolveSecret_typed,rfl,rfl⟩
  obtain ⟨pre,key,signed,hpre,_,hsigned,hown,_,_,_,hother⟩ :=
    sign_verifies hexCrate_documented addressesParse signaturesBind hs
  have htest : pre = .testnet := Except.ok.inj (hpre.symm.trans (by decide))
  obtain ⟨_,_,_,rfl⟩ := signed_recorded hsigned
  exact ⟨_,hs,hown,hother .mainnet (by rw [htest]; decide)⟩

end ZkasSigner.Money
