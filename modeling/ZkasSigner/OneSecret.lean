import ZkasSigner.Chat.Identity
import ZkasSigner.Mobile.Signer

/-! One secret in both signers. The chat identity and the wallet share no code, only the crates
they are linked with; they tell a raw seed from a phrase alike, and clean a phrase alike. -/
namespace ZkasSigner
open Foundation Foundation.Text Foundation.Outcome Chat Money Mobile

/-- What the two signers are linked with: one `hex` and one `bip39` for both. -/
structure SignerCrates extends WalletCrates where
  hmac : HmacCrate
  curve : Bip32.Group
  bech32 : Bech32

def SignerCrates.toIdentityCrates (C : SignerCrates) : IdentityCrates :=
  ⟨C.hex,C.hmac,C.curve,C.phrases,C.bech32⟩

namespace OneSecret
variable (C : SignerCrates)

/-- What the chat identity has when its BIP-32 derivation starts. -/
def chatStart (secret : String) : Outcome (List UInt8 × Bool) :=
  if (trim secret).isEmpty then fail "enter your recovery phrase" else secretSeed C.toIdentityCrates (trim secret)

/-- The identity from there on. -/
def chatDerive (account : UInt32) (start : List UInt8 × Bool) : Outcome ChatIdentity := do
  let sk ← deriveNip06 C.toIdentityCrates start.1 account
  encodeIdentity C.toIdentityCrates sk start.2

/-- What the wallet has when its ZIP-32 derivation starts. -/
def walletStart (secret : String) : Outcome (Bytes 64) :=
  if (trim secret).isEmpty then fail "enter your recovery phrase"
  else do
    let mnemonic ← mapErr ("that is not a valid recovery phrase: " ++ ·)
      (C.phrases.parseNormalized (C.phrases.cleaned secret))
    return C.phrases.toSeedNormalized mnemonic ""

/-- The key from there on. -/
def walletDerive (start : Bytes 64) : Outcome (Bytes 32) := do
  let sk ← mapErr ("could not derive a key from that phrase: " ++ ·)
    (C.fromZip32Seed start ZKAS_COIN_TYPE AccountId.ZERO)
  return C.spendingKeyToBytes sk

variable {C}

theorem chatIdentity_start (secret : String) (account : UInt32) :
    chatIdentity C.toIdentityCrates secret account = chatStart C secret >>= chatDerive C account := by
  simp only [chatIdentity,chatStart]
  split_ifs
  · rfl
  · rfl

/-- A secret that is no raw seed is all read by the wallet as a phrase. -/
theorem resolveSecret_start {secret : String} (h : isRawSeed (trim secret) = false) :
    resolveSecret C.toMoneyCrates secret = walletStart C secret >>= walletDerive C := by
  simp only [resolveSecret,walletStart,secretFromPhrase,h,C.phrases.cleaned_trim,Bool.false_eq_true,if_false]
  split_ifs
  · rfl
  · cases C.phrases.parseNormalized (C.phrases.cleaned secret) <;> rfl

theorem isValidMnemonic_iff {secret : String} : isValidMnemonic C.toWalletCrates secret = true ↔
    ∃ mnemonic, C.phrases.parseNormalized (C.phrases.cleaned secret) = .ok mnemonic := by
  unfold isValidMnemonic
  cases C.phrases.parseNormalized (C.phrases.cleaned secret) <;> simp [Except.toBool]

theorem chatStart_of_isRawSeed {secret : String} (h : isRawSeed (trim secret) = true) {key : Bytes 32}
    (hkey : C.hex.decode (trim secret) = .ok key.val) :
    chatStart C secret = (do return (← legacySeed C.toIdentityCrates key.val,false)) := by
  have hne : (trim secret).isEmpty = false := by simp [ne_empty_of_isRawSeed h]
  have hdec : C.toIdentityCrates.hex.decode (trim secret) = .ok key.val := hkey
  simp only [chatStart,secretSeed,h,hne,hdec,mapErr,ok_bind,Bool.false_eq_true,if_false,if_true]

/-- The 64 bytes that a legacy seed is expanded to. -/
theorem legacySeed_computes {H : List UInt8 → List UInt8 → Bytes 64} (hH : C.hmac.Computes H) (key : Bytes 32) :
    legacySeed C.toIdentityCrates key.val = .ok (H (asBytes "zkas-chat-identity-v1") key.val).val := by
  have hmac : C.toIdentityCrates.hmac.newFromSlice LEGACY_DOMAIN = .ok (H LEGACY_DOMAIN) := hH LEGACY_DOMAIN
  rw [legacySeed,if_neg (not_not.mpr key.property),hmac]
  rfl

/-- Where neither is given a raw seed, both start from the seed of the same phrase, or neither starts. -/
theorem chatStart_of_walletStart {secret : String} (h : isRawSeed (trim secret) = false) :
    chatStart C secret = (do return ((← walletStart C secret).val,true)) := by
  have hclean : C.toIdentityCrates.phrases.cleaned (trim secret) = C.phrases.cleaned secret :=
    C.phrases.cleaned_trim secret
  simp only [chatStart,walletStart,secretSeed,phraseSeed,h,hclean,Bool.false_eq_true,if_false]
  split_ifs
  · rfl
  · change (mapErr _ (C.phrases.parseNormalized _) >>= _) >>= _ = _
    cases C.phrases.parseNormalized (C.phrases.cleaned secret) <;> rfl

section
variable {T : CaseTables} (hp : C.phrases.Documented T)
include hp

theorem accountSecret_errs {secret : String} (h : isRawSeed (trim secret) = true) (account : UInt32) :
    (accountSecret C.toWalletCrates secret account).Errs := by
  obtain ⟨e,he⟩ := Phrases.parse_cleaned_error hp (.inl h)
  exact ⟨_,by rw [accountSecret,he]; rfl⟩

theorem walletStart_eq_ok {secret : String} {seed : Bytes 64} : walletStart C secret = .ok seed ↔
    ∃ mnemonic, C.phrases.parseNormalized (C.phrases.cleaned secret) = .ok mnemonic ∧
      C.phrases.toSeedNormalized mnemonic "" = seed := by
  unfold walletStart
  split_ifs with hempty
  · obtain ⟨e,he⟩ := Phrases.parse_cleaned_error hp (.inr (String.isEmpty_iff.mp hempty))
    simp [he,fail]
  · simp [bind_eq_ok]

theorem walletStart_ok_iff {secret : String} :
    (∃ seed, walletStart C secret = .ok seed) ↔ isValidMnemonic C.toWalletCrates secret = true := by
  rw [isValidMnemonic_iff]
  constructor
  · intro h
    obtain ⟨seed,h⟩ := h
    obtain ⟨mnemonic,h,_⟩ := (walletStart_eq_ok hp).mp h
    exact ⟨mnemonic,h⟩
  · intro h
    obtain ⟨mnemonic,h⟩ := h
    exact ⟨_,(walletStart_eq_ok hp).mpr ⟨mnemonic,h,rfl⟩⟩

theorem walletStart_errs {secret : String} (h : isValidMnemonic C.toWalletCrates secret = false) :
    (walletStart C secret).Errs := by
  have hret : (walletStart C secret).Returns := by
    unfold walletStart
    split_ifs
    · exact .inr ⟨_,rfl⟩
    · exact (returns_mapErr _ _).bind fun _ => returns_ok _
  rcases hret with hok | herr
  · rw [(walletStart_ok_iff hp).mp hok] at h
    cases h
  · exact herr

variable (hhex : C.hex.Documented) (hdig : C.hex.TwoDigits)
include hhex hdig

end

/-! ### Spellings of one secret -/

section
variable {T : CaseTables} (hp : C.phrases.Documented T) (hhex : C.hex.Documented) (hdig : C.hex.TwoDigits)
  {s t : String} (h : SameWords s t)

include hhex hdig h in
/-- Raw seeds in two spellings are the same bytes. -/
theorem decode_congr (hraw : isRawSeed (trim s) = true) :
    ∃ key : Bytes 32, C.hex.decode (trim s) = .ok key.val ∧ C.hex.decode (trim t) = .ok key.val := by
  obtain ⟨key,hkey⟩ := decode_of_isRawSeed hhex hdig hraw
  refine ⟨key,hkey,(hhex.decode_ok _ _).mpr ?_⟩
  rw [← (isRawSeed_trim_congr h).2 hraw]
  exact (hhex.decode_ok _ _).mp hkey

include hp h

theorem walletStart_congr : walletStart C s = walletStart C t := by
  have hempty : (trim s).isEmpty = (trim t).isEmpty := by
    rw [Bool.eq_iff_iff,String.isEmpty_iff,String.isEmpty_iff,trim_eq_empty,trim_eq_empty]
    constructor
    · intro hs
      rw [SameWords,hs] at h
      exact List.forall₂_nil_left_iff.mp h
    · intro ht
      rw [SameWords,ht] at h
      exact List.forall₂_nil_right_iff.mp h
  simp only [walletStart,hempty,Phrases.cleaned_congr hp h]

theorem accountSecret_congr (account : UInt32) :
    accountSecret C.toWalletCrates s account = accountSecret C.toWalletCrates t account := by
  simp only [accountSecret,Phrases.cleaned_congr hp h]

include hhex hdig

theorem chatStart_congr : chatStart C s = chatStart C t := by
  obtain ⟨hsame,_⟩ := isRawSeed_trim_congr h
  cases hraw : isRawSeed (trim s) with
  | true =>
    obtain ⟨key,hs,ht⟩ := decode_congr (C := C) hhex hdig h hraw
    rw [chatStart_of_isRawSeed hraw hs,chatStart_of_isRawSeed (hsame ▸ hraw) ht]
  | false =>
    rw [chatStart_of_walletStart hraw,chatStart_of_walletStart (hsame ▸ hraw),walletStart_congr hp h]

theorem resolveSecret_congr : resolveSecret C.toMoneyCrates s = resolveSecret C.toMoneyCrates t := by
  obtain ⟨hsame,_⟩ := isRawSeed_trim_congr h
  cases hraw : isRawSeed (trim s) with
  | true =>
    obtain ⟨key,hs,ht⟩ := decode_congr (C := C) hhex hdig h hraw
    rw [(resolveSecret_of_isRawSeed hraw).mpr hs,(resolveSecret_of_isRawSeed (hsame ▸ hraw)).mpr ht]
  | false =>
    rw [resolveSecret_start hraw,resolveSecret_start (hsame ▸ hraw),walletStart_congr hp h]

/-- What a phone signs with reads alike, though it may be spelled differently. -/
theorem accountKey_congr {β : Type} (call : String → Outcome β)
    (hcall : ∀ a b, parseSeed C.toMoneyCrates a = parseSeed C.toMoneyCrates b → call a = call b) :
    (do call (← (Signer.mk (trim s)).accountKey C.toWalletCrates)) =
      (do call (← (Signer.mk (trim t)).accountKey C.toWalletCrates)) := by
  obtain ⟨hsame,_⟩ := isRawSeed_trim_congr h
  cases hraw : isRawSeed (trim s) with
  | true =>
    have hkey : ∀ {s}, isRawSeed (trim s) = true →
        (Signer.mk (trim s)).accountKey C.toWalletCrates = .ok (trim s) := fun hs => if_pos hs
    rw [hkey hraw,hkey (hsame ▸ hraw),ok_bind,ok_bind]
    have htrim : SameWords (trim s) (trim t) := by rwa [SameWords,splitWhitespace_trim,splitWhitespace_trim]
    exact hcall _ _ (resolveSecret_congr hp hhex hdig htrim)
  | false =>
    have hkey : ∀ {s}, isRawSeed (trim s) = false →
        (Signer.mk (trim s)).accountKey C.toWalletCrates = accountSeedHex C.toWalletCrates s 0 := by
      intro s hs
      simp only [Signer.accountKey,accountSeedHex,accountSecret,hs,C.phrases.cleaned_trim,Bool.false_eq_true,if_false]
    simp only [hkey hraw,hkey (hsame ▸ hraw),accountSeedHex,accountSecret_congr hp h]

theorem address_congr (network : String) : (Signer.mk (trim s)).address C.toWalletCrates network =
    (Signer.mk (trim t)).address C.toWalletCrates network :=
  accountKey_congr hp hhex hdig h _ fun _ _ he => by simp only [addressFromSeed,he]

theorem viewingKey_congr :
    (Signer.mk (trim s)).viewingKey C.toWalletCrates = (Signer.mk (trim t)).viewingKey C.toWalletCrates :=
  accountKey_congr hp hhex hdig h _ fun _ _ he => by simp only [fvkHex,he]

/-- Two spellings of the same words are one identity and one wallet, down to the texts of the errors. -/
theorem same_words :
    (∀ account, chatIdentity C.toIdentityCrates s account = chatIdentity C.toIdentityCrates t account) ∧
    resolveSecret C.toMoneyCrates s = resolveSecret C.toMoneyCrates t ∧
    (∀ account, accountSecret C.toWalletCrates s account = accountSecret C.toWalletCrates t account) ∧
    isValidMnemonic C.toWalletCrates s = isValidMnemonic C.toWalletCrates t ∧
    (∀ network other, (do (← fromSecret C.toWalletCrates s network).address C.toWalletCrates other) =
      (do (← fromSecret C.toWalletCrates t network).address C.toWalletCrates other)) ∧
    ∀ network, (do (← fromSecret C.toWalletCrates s network).viewingKey C.toWalletCrates) =
      (do (← fromSecret C.toWalletCrates t network).viewingKey C.toWalletCrates) := by
  have hphone : ∀ network {β : Type} (call : Signer → Outcome β),
      call ⟨trim s⟩ = call ⟨trim t⟩ → (do call (← fromSecret C.toWalletCrates s network)) =
        (do call (← fromSecret C.toWalletCrates t network)) := by
    intro network β call hcall
    simp only [fromSecret,bind_assoc,address_congr hp hhex hdig h,pure_bind,hcall]
  refine ⟨fun account => ?_,resolveSecret_congr hp hhex hdig h,accountSecret_congr hp h,?_,
    fun network other => hphone network _ (address_congr hp hhex hdig h other),
    fun network => hphone network _ (viewingKey_congr hp hhex hdig h)⟩
  · rw [chatIdentity_start,chatIdentity_start,chatStart_congr hp hhex hdig h]
  · rw [isValidMnemonic,isValidMnemonic,Phrases.cleaned_congr hp h]

end

end OneSecret

/-- The recorded calls of both signers together. -/
def Recorded.signerCrates : SignerCrates where
  toWalletCrates := walletCrates
  hmac := identityCrates.hmac
  curve := curve
  bech32 := bech32

namespace OneSecret
open Recorded

theorem same_words_recorded :
    resolveSecret signerCrates.toMoneyCrates phrase = .ok phraseKey ∧
      isValidMnemonic signerCrates.toWalletCrates phrase = true := by
  have hw : SameWords phrase typedPhrase := by
    have hwords : (splitWhitespace phrase).map toAsciiLowercase = (splitWhitespace typedPhrase).map toAsciiLowercase := by
      decide +kernel
    rw [← List.forall₂_eq_eq_eq,List.forall₂_map_left_iff,List.forall₂_map_right_iff] at hwords
    exact hwords
  obtain ⟨_,hkey,_,hvalid,_⟩ := same_words (C := signerCrates) spoken_documented hexCrate_documented
    hexCrate_twoDigits hw
  exact ⟨hkey.trans resolveSecret_typed,hvalid.trans (by decide +kernel)⟩

end OneSecret
end ZkasSigner
