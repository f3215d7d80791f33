import ZkasSigner.Crates.Secrets
import ZkasSigner.Money.Secret

/-! Addresses, viewing keys and accounts of a secret. An account is derived from a phrase only,
and its key is handed on as a raw seed in hexadecimal. -/
namespace ZkasSigner.Money
open Foundation Foundation.Text Foundation.Outcome
variable (C : WalletCrates)

def addressString (addressPrefix : Prefix) (raw : Bytes 43) : String :=
  C.addressToString ⟨addressPrefix,C.shieldedOrchard,raw.val⟩

/-- `zip32::AccountId::try_from`. -/
def accountIdTryFrom (account : UInt32) : Option AccountId :=
  if h : account.toNat < 2^31 then some ⟨account,h⟩ else none

def accountSecret (mnemonic : String) (account : UInt32) : Outcome (Bytes 32) := do
  let parsed ← mapErr ("that is not a valid recovery phrase: " ++ ·)
    (C.phrases.parseNormalized (C.phrases.cleaned mnemonic))
  let seed := C.phrases.toSeedNormalized parsed ""
  let id ← okOr ("account index " ++ toString account ++ " is out of range") (accountIdTryFrom account)
  let sk ← mapErr (fun e => "could not derive account " ++ toString account ++ ": " ++ e)
    (C.fromZip32Seed seed ZKAS_COIN_TYPE id)
  return C.spendingKeyToBytes sk

/-- The spending key of one account, as 64 digits. -/
def accountSeedHex (mnemonic : String) (account : UInt32) : Outcome String := do
  let secret ← accountSecret C mnemonic account
  return C.hex.encode secret.val

def accountAddress (mnemonic network : String) (account : UInt32) : Outcome String := do
  let pre ← prefixFrom network
  let secret ← accountSecret C mnemonic account
  let raw ← okOr "derived key is not a valid Orchard spending key" (C.addressBytesFromSeed secret)
  return addressString C pre raw

/-- Right words, right checksum. -/
def isValidMnemonic (secret : String) : Bool :=
  (C.phrases.parseNormalized (C.phrases.cleaned secret)).toBool

def addressFromSeed (seedHex network : String) : Outcome String := do
  let pre ← prefixFrom network
  let seed ← parseSeed C.toMoneyCrates seedHex
  let raw ← okOr "seed is not a valid Orchard spending key" (C.addressBytesFromSeed seed)
  return addressString C pre raw

def fvkHex (seedHex : String) : Outcome String := do
  let seed ← parseSeed C.toMoneyCrates seedHex
  let fvk ← okOr "seed is not a valid Orchard spending key" (C.fvkBytesFromSeed seed)
  return C.hex.encode fvk.val

variable {C}

/-- A raw seed in either letter case is its 32 bytes, and no phrase is looked for. -/
theorem resolveSecret_of_isRawSeed {secret : String} (h : isRawSeed (trim secret) = true) {key : Bytes 32} :
    resolveSecret C.toMoneyCrates secret = .ok key ↔ C.hex.decode (trim secret) = .ok key.val := by
  simp only [resolveSecret,if_pos h,bind_eq_ok,mapErr_eq_ok,okOr_eq_ok,Bytes.tryFrom_eq_some]
  constructor
  · intro h
    obtain ⟨bytes,hd,rfl⟩ := h
    exact hd
  · intro h
    exact ⟨key.val,h,rfl⟩

/-- Every other secret is resolved the way its account 0 is, but for the texts of the errors. -/
theorem resolveSecret_of_phrase {T : CaseTables} (hp : C.phrases.Documented T) {secret : String}
    (h : isRawSeed (trim secret) = false) {key : Bytes 32} :
    resolveSecret C.toMoneyCrates secret = .ok key ↔ accountSecret C secret 0 = .ok key := by
  have hzero : accountIdTryFrom 0 = some AccountId.ZERO := rfl
  simp only [accountSecret,bind_eq_ok,mapErr_eq_ok,okOr_eq_ok,hzero,Option.some.injEq,exists_eq_left']
  by_cases hempty : trim secret = ""
  · obtain ⟨e,he⟩ := Phrases.parse_cleaned_error hp (.inr hempty)
    rw [hempty] at h
    simp [resolveSecret,hempty,h,he,fail]
  · have hne : (trim secret).isEmpty = false := by simp [hempty]
    simp only [resolveSecret,h,hne,secretFromPhrase,bind_eq_ok,mapErr_eq_ok,C.phrases.cleaned_trim,
      Bool.false_eq_true,if_false]

/-- A key written out as digits resolves to itself. -/
theorem parseSeed_encode (hhex : C.hex.Documented) (hdig : C.hex.TwoDigits) (key : Bytes 32) :
    parseSeed C.toMoneyCrates (C.hex.encode key.val) = .ok key := by
  have hraw := isRawSeed_encode hhex hdig key
  have htrim := trim_of_isRawSeed hraw
  have htrimmed : isRawSeed (trim (C.hex.encode key.val)) = true := by rw [htrim,hraw]
  rw [parseSeed,resolveSecret_of_isRawSeed htrimmed,htrim]
  exact hhex.decode_encode key.val

theorem addressFromSeed_eq_ok {secret network address : String} : addressFromSeed C secret network = .ok address ↔
    ∃ pre key raw, prefixFrom network = .ok pre ∧ resolveSecret C.toMoneyCrates secret = .ok key ∧
      C.addressBytesFromSeed key = some raw ∧ address = addressString C pre raw := by
  simp only [addressFromSeed,parseSeed,bind_eq_ok,okOr_eq_ok,pure_eq_ok,Except.ok.injEq]
  constructor
  · intro h
    obtain ⟨pre,hpre,key,hkey,raw,hraw,rfl⟩ := h
    exact ⟨pre,key,raw,hpre,hkey,hraw,rfl⟩
  · intro h
    obtain ⟨pre,key,raw,hpre,hkey,hraw,rfl⟩ := h
    exact ⟨pre,hpre,key,hkey,raw,hraw,rfl⟩

/-- A key with an address has one on every network there is. -/
theorem addressFromSeed_of_key {secret : String} {key : Bytes 32} {raw : Bytes 43}
    (hkey : resolveSecret C.toMoneyCrates secret = .ok key) (hraw : C.addressBytesFromSeed key = some raw)
    (network : String) :
    addressFromSeed C secret network = (do return addressString C (← prefixFrom network) raw) := by
  simp only [addressFromSeed,parseSeed,hkey,hraw,okOr,ok_bind]

theorem accountAddress_of_key {mnemonic : String} {account : UInt32} {key : Bytes 32} {raw : Bytes 43}
    (hkey : accountSecret C mnemonic account = .ok key) (hraw : C.addressBytesFromSeed key = some raw)
    (network : String) :
    accountAddress C mnemonic network account = (do return addressString C (← prefixFrom network) raw) := by
  simp only [accountAddress,hkey,hraw,okOr,ok_bind]

end ZkasSigner.Money

/-! ### Recorded calls

Account 0 of one phrase, with a signature for the testnet. The spending key and the address are the phrase's own.
The viewing key and the signature are another key's, and stand in for those of the phrase. -/
namespace ZkasSigner.Recorded
open Foundation Foundation.Text

def phraseKey : Bytes 32 := bytes 32 0x1063162401e9b6cf16e94104294e5b743fd7e1b05b9aa406a5522e9a7d1e7b45

def prefixText : Prefix → String
  | .mainnet => "zkas"
  | .testnet => "zkastest"
  | .devnet => "zkasdev"
  | .simnet => "zkassim"

def addressText : Prefix → String
  | .mainnet => "zkas:p9glcc74e30fvmhuvz0lhhxdrha3mfu6g436ay09mqjtm95p0g8j5h7hvfnyx5nsqze0zqgfwgx2azp"
  | .testnet => "zkastest:p9glcc74e30fvmhuvz0lhhxdrha3mfu6g436ay09mqjtm95p0g8j5h7hvfnyx5nsqze0zqgyhlfutmy"
  | .devnet => "zkasdev:p9glcc74e30fvmhuvz0lhhxdrha3mfu6g436ay09mqjtm95p0g8j5h7hvfnyx5nsqze0zqgk0yup8hx"
  | .simnet => "zkassim:p9glcc74e30fvmhuvz0lhhxdrha3mfu6g436ay09mqjtm95p0g8j5h7hvfnyx5nsqze0zqgg6syaaqa"

def phraseRecipient : Bytes 43 :=
  bytes 43 0x51fc63d5cc5e966efc609ffbdccd1dfb1da79a4563ae91e5d824bd96817a0f2a5fd7626643527000b2f101

def parseAddressText (s : String) : Except String (Address UInt8) :=
  match [Prefix.mainnet,.testnet,.devnet,.simnet].find? fun pre => addressText pre = s with
  | some pre => .ok ⟨pre,9,phraseRecipient.val⟩
  | none => .error "the address has an invalid checksum"

def printAddress (addr : Address UInt8) : String :=
  if addr.version = 9 ∧ addr.payload = phraseRecipient.val then addressText addr.addressPrefix else ""

theorem parse_addressText (pre : Prefix) : parseAddressText (addressText pre) = .ok ⟨pre,9,phraseRecipient.val⟩ := by
  cases pre <;> decide +kernel

def signedMessage : MessageSignature where
  address := phraseRecipient
  fvk := bytes 96 0xf316960ac69d3ca2c15dd20ee7a0c33b1cc16a978340dc8515a3d2e95b9862555ea1f88188ddede21e101880666fb5322154f0e4228ae9184dd18fc00348bd1c62ed3429c5c64ab9ba2f329e3bae36eca8d69b5fa77eb93428a1e6be8cc331ec
  sig := bytes 64 0x0073ec266d4fb4adbf3d104aa714f9f11032fd8ab6d8829fc40b52c86f6485d7928cc2ebd4646f3fe3f374be11d905bf4be275fa86f3889d82a9f7dc5e41dd32

def signedTag : List UInt8 := asBytes "zkastest"

def signedText : List UInt8 := asBytes "i control this address"

def walletCrates : WalletCrates where
  toMoneyCrates := { moneyCrates with
    phrases := spoken
    fromZip32Seed := fun seed coin account =>
      if seed = phraseSeed ∧ coin = 111111 ∧ account.val = 0 then .ok phraseKey else .error "InvalidSeed"
    addressTryFrom := parseAddressText }
  shieldedOrchard := (9 : UInt8)
  prefixToString := prefixText
  addressToString := printAddress
  addressBytesFromSeed seed := if seed = phraseKey then some phraseRecipient else none
  fvkBytesFromSeed seed := if seed = phraseKey then some signedMessage.fvk else none
  Rng := Unit
  signMessage seed tag message _ :=
    if seed = phraseKey ∧ tag = signedTag ∧ message = signedText then some signedMessage else none
  verifyMessage raw tag message fvk sig :=
    if raw = phraseRecipient ∧ tag = signedTag ∧ message = signedText ∧ fvk = signedMessage.fvk ∧ sig = signedMessage.sig
    then .ok () else .error "the signature does not verify"

theorem resolveSecret_typed : Money.resolveSecret walletCrates.toMoneyCrates typedPhrase = .ok phraseKey := by
  decide +kernel

end ZkasSigner.Recorded
