import ZkasSigner.Money.Message
import ZkasSigner.Money.Payment

/-! The signer a phone holds. It keeps the secret it was made from and calls the wallet's own
functions; which key a secret signs with is the one thing it decides itself. -/
namespace ZkasSigner.Mobile
open Foundation Foundation.Text Foundation.Outcome Money

/-- A recovery phrase or a 64-digit key. -/
structure Signer where
  secret : String
  deriving DecidableEq

namespace Signer
variable (C : WalletCrates) (J : PaymentJson) (signer : Signer)

/-- The 64 digits this signer signs with: a raw seed as it is, or account 0 of a phrase. -/
def accountKey : Outcome String :=
  if isRawSeed signer.secret then .ok signer.secret else accountSeedHex C signer.secret 0

def address (network : String) : Outcome String := do
  let hex ← signer.accountKey C
  addressFromSeed C hex network

def viewingKey : Outcome String := do
  let hex ← signer.accountKey C
  fvkHex C hex

def signMessage (network message : String) (rng : C.Rng) : Outcome String := do
  let hex ← signer.accountKey C
  let s ← sign C hex network message rng
  return s.signatureHex

def verifyAndSignPayment (network toAddress : String) (amountSompi maxFeeSompi : UInt64)
    (bundleHex disclosureJson alphasJson : String) : Outcome String := do
  let hex ← signer.accountKey C
  Money.verifyAndSignPayment C.toMoneyCrates J
    ⟨hex,network,toAddress,amountSompi,maxFeeSompi,bundleHex,disclosureJson,alphasJson⟩

/-- Every call answers as the wallet answers for `secret`. -/
structure ActsFor (secret : String) : Prop where
  address : ∀ network, signer.address C network = addressFromSeed C secret network
  viewingKey : signer.viewingKey C = fvkHex C secret
  signMessage : ∀ network message rng, signer.signMessage C network message rng =
    (do return (← sign C secret network message rng).signatureHex)
  payment : ∀ network toAddress amountSompi maxFeeSompi bundleHex disclosureJson alphasJson,
    signer.verifyAndSignPayment C J network toAddress amountSompi maxFeeSompi bundleHex disclosureJson alphasJson =
      Money.verifyAndSignPayment C.toMoneyCrates J
        ⟨secret,network,toAddress,amountSompi,maxFeeSompi,bundleHex,disclosureJson,alphasJson⟩

end Signer

variable (C : WalletCrates)

/-- `Signer::from_secret`: a secret without an address is refused. -/
def fromSecret (secret network : String) : Outcome Signer := do
  let signer : Signer := ⟨trim secret⟩
  let _ ← signer.address C network
  return signer

variable {C} {J : PaymentJson}

theorem fromSecret_eq_ok {secret network : String} {signer : Signer} :
    fromSecret C secret network = .ok signer ↔
      signer = ⟨trim secret⟩ ∧ ∃ address, signer.address C network = .ok address := by
  simp only [fromSecret,bind_eq_ok,pure_eq_ok,Except.ok.injEq]
  constructor
  · intro h
    obtain ⟨address,h,rfl⟩ := h
    exact ⟨rfl,address,h⟩
  · intro h
    obtain ⟨rfl,address,h⟩ := h
    exact ⟨address,h,rfl⟩

/-- The wallet reads a secret only through the key it stands for. -/
theorem actsFor_of_key {signer : Signer} {secret hex : String} (hkey : signer.accountKey C = .ok hex)
    (h : parseSeed C.toMoneyCrates hex = parseSeed C.toMoneyCrates secret) : signer.ActsFor C J secret where
  address network := by
    simp only [Signer.address,hkey,ok_bind,addressFromSeed,h]
  viewingKey := by
    simp only [Signer.viewingKey,hkey,ok_bind,fvkHex,h]
  signMessage network message rng := by
    simp only [Signer.signMessage,hkey,ok_bind,sign,h]
  payment network toAddress amountSompi maxFeeSompi bundleHex disclosureJson alphasJson := by
    simp only [Signer.verifyAndSignPayment,hkey,ok_bind,Money.verifyAndSignPayment,h]

section
variable {T : CaseTables} (hhex : C.hex.Documented) (hdig : C.hex.TwoDigits) (hp : C.phrases.Documented T)
include hhex hdig hp

/-- The key a phone signs with, read again by the wallet, is the key of the secret itself. -/
theorem accountKey_resolves {secret : String} {key : Bytes 32} :
    resolveSecret C.toMoneyCrates secret = .ok key ↔
      ∃ hex, (Signer.mk (trim secret)).accountKey C = .ok hex ∧ parseSeed C.toMoneyCrates hex = .ok key := by
  cases hraw : isRawSeed (trim secret) with
  | true =>
    have htrim := trim_of_isRawSeed hraw
    have hagain : isRawSeed (trim (trim secret)) = true := by rw [htrim,hraw]
    simp only [Signer.accountKey,hraw,if_true,Except.ok.injEq,exists_eq_left',parseSeed]
    rw [resolveSecret_of_isRawSeed hraw,resolveSecret_of_isRawSeed hagain,htrim]
  | false =>
    have haccount : accountSecret C (trim secret) 0 = accountSecret C secret 0 := by
      rw [accountSecret,C.phrases.cleaned_trim,accountSecret]
    simp only [Signer.accountKey,hraw,Bool.false_eq_true,if_false,accountSeedHex,haccount,bind_eq_ok,
      pure_eq_ok,Except.ok.injEq]
    rw [resolveSecret_of_phrase hp hraw]
    constructor
    · intro h
      exact ⟨_,⟨key,h,rfl⟩,parseSeed_encode hhex hdig key⟩
    · intro h
      obtain ⟨_,⟨key',h,rfl⟩,hparse⟩ := h
      rw [parseSeed_encode hhex hdig] at hparse
      rw [h,hparse]

/-- A phone takes a secret exactly when the wallet has an address for it, and from then on it is
the wallet of that secret. The key of a phrase is its account 0, by each of the three routes to an
address; the key of a raw seed is the seed. -/
theorem fromSecret_wallet (secret : String) :
    (∀ network, (∃ signer, fromSecret C secret network = .ok signer) ↔
      ∃ address, addressFromSeed C secret network = .ok address) ∧
    ∀ network signer, fromSecret C secret network = .ok signer → ∃ key hex,
      resolveSecret C.toMoneyCrates secret = .ok key ∧ signer.accountKey C = .ok hex ∧
      parseSeed C.toMoneyCrates hex = .ok key ∧ signer.ActsFor C J secret ∧
      (isRawSeed (trim secret) = false → accountSecret C secret 0 = .ok key ∧ ∀ n,
        addressFromSeed C secret n = accountAddress C secret n 0 ∧
        addressFromSeed C secret n = (do addressFromSeed C (← accountSeedHex C secret 0) n)) ∧
      (isRawSeed (trim secret) = true → hex = trim secret ∧ C.hex.decode (trim secret) = .ok key.val) := by
  have haddress : ∀ network, (∃ signer, fromSecret C secret network = .ok signer) ↔
      ∃ address, addressFromSeed C secret network = .ok address := by
    intro network
    simp only [fromSecret_eq_ok,exists_eq_left,Signer.address,bind_eq_ok]
    constructor
    · intro h
      obtain ⟨address,hex,hkey,h⟩ := h
      obtain ⟨pre,key,raw,hpre,hparse,hraw,_⟩ := addressFromSeed_eq_ok.mp h
      have hsecret := (accountKey_resolves hhex hdig hp).mpr ⟨hex,hkey,hparse⟩
      exact ⟨_,addressFromSeed_eq_ok.mpr ⟨pre,key,raw,hpre,hsecret,hraw,rfl⟩⟩
    · intro h
      obtain ⟨address,h⟩ := h
      obtain ⟨pre,key,raw,hpre,hsecret,hraw,_⟩ := addressFromSeed_eq_ok.mp h
      obtain ⟨hex,hkey,hparse⟩ := (accountKey_resolves hhex hdig hp).mp hsecret
      exact ⟨_,hex,hkey,addressFromSeed_eq_ok.mpr ⟨pre,key,raw,hpre,hparse,hraw,rfl⟩⟩
  refine ⟨haddress,fun network signer hsigner => ?_⟩
  obtain ⟨address,h⟩ := (haddress network).mp ⟨signer,hsigner⟩
  obtain ⟨pre,key,raw,hpre,hsecret,hraw,_⟩ := addressFromSeed_eq_ok.mp h
  obtain ⟨hex,hkey,hparse⟩ := (accountKey_resolves hhex hdig hp).mp hsecret
  obtain ⟨rfl,_⟩ := fromSecret_eq_ok.mp hsigner
  refine ⟨key,hex,hsecret,hkey,hparse,actsFor_of_key hkey (hparse.trans hsecret.symm),?_,?_⟩
  · intro hphrase
    have haccount := (resolveSecret_of_phrase hp hphrase).mp hsecret
    have hdigits := parseSeed_encode hhex hdig key
    refine ⟨haccount,fun n => ⟨?_,?_⟩⟩
    · rw [addressFromSeed_of_key hsecret hraw,accountAddress_of_key haccount hraw]
    · rw [addressFromSeed_of_key hsecret hraw,accountSeedHex,haccount]
      exact (addressFromSeed_of_key hdigits hraw n).symm
  · intro hseed
    have hown : (Signer.mk (trim secret)).accountKey C = .ok (trim secret) := if_pos hseed
    rw [hown,Except.ok.injEq] at hkey
    exact ⟨hkey.symm,(resolveSecret_of_isRawSeed hseed).mp hsecret⟩

end

open Recorded

/-- A phone with a phrase as typed signs with the key of account 0 and shows its address. -/
theorem fromSecret_wallet_recorded :
    ∃ signer, fromSecret walletCrates typedPhrase "mainnet" = .ok signer ∧
      accountSecret walletCrates typedPhrase 0 = .ok phraseKey ∧
      signer.address walletCrates "testnet" = .ok (addressText .testnet) := by
  obtain ⟨hiff,hwallet⟩ := fromSecret_wallet (C := walletCrates) (J := Prepared.json) hexCrate_documented
    hexCrate_twoDigits spoken_documented typedPhrase
  have haddress : ∀ pre network, prefixFrom network = .ok pre →
      addressFromSeed walletCrates typedPhrase network = .ok (addressText pre) := fun pre network hpre =>
    addressFromSeed_eq_ok.mpr ⟨pre,phraseKey,phraseRecipient,hpre,resolveSecret_typed,rfl,rfl⟩
  obtain ⟨signer,hsigner⟩ := (hiff "mainnet").mpr ⟨_,haddress .mainnet "mainnet" (by decide)⟩
  obtain ⟨key,hex,hkey,_,_,hacts,hphrase,_⟩ := hwallet "mainnet" signer hsigner
  refine ⟨signer,hsigner,?_,(hacts.address "testnet").trans (haddress .testnet "testnet" (by decide))⟩
  rw [← Except.ok.inj (hkey.symm.trans resolveSecret_typed)]
  exact (hphrase (by decide +kernel)).1

end ZkasSigner.Mobile
