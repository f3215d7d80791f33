import ZkasSigner.OneSecret

/-! New wallets: a random seed, or twelve words for random entropy. Whatever is handed out restores
the same wallet wherever a secret is taken. -/
namespace ZkasSigner
open Foundation Foundation.Text Foundation.Outcome Chat Money Mobile

/-- What new wallets are made with besides: the other direction of `bip39`. -/
structure MintCrates extends SignerCrates where
  fromEntropy : Bytes 16 → Except String phrases.Mnemonic
  phraseText : phrases.Mnemonic → String

/-- A phrase that is made is written in words of small letters with single spaces between them, and
is parsed to what it was written from. -/
structure MintCrates.Documented (C : MintCrates) : Prop where
  parse_text : ∀ entropy m, C.fromEntropy entropy = .ok m → C.phrases.parseNormalized (C.phraseText m) = .ok m
  words : ∀ entropy m, C.fromEntropy entropy = .ok m → ∃ ws, C.phraseText m = " ".intercalate ws ∧
    ∀ w ∈ ws, w ≠ "" ∧ ∀ c ∈ w.toList, c.isLower = true

namespace NewWallet
variable (C : MintCrates)

structure Wallet where
  seedHex : String
  address : String
  deriving DecidableEq

structure MnemonicWallet where
  mnemonic : String
  address : String
  deriving DecidableEq

/-- The loop of `new_wallet`, over what the random source answers. Where the answers end, it has not
come to an end. -/
def drawSeed (pre : Prefix) : List (Except String (Bytes 32)) → Outcome Wallet
  | [] => .error .unfinished
  | .error e::_ => fail ("CSPRNG failed: " ++ e)
  | .ok seed::rest =>
    match C.addressBytesFromSeed seed with
    | some raw => .ok ⟨C.hex.encode seed.val,addressString C.toWalletCrates pre raw⟩
    | none => drawSeed pre rest

def newWallet (network : String) (draws : List (Except String (Bytes 32))) : Outcome Wallet := do
  let pre ← prefixFrom network
  drawSeed C pre draws

def newWalletMnemonic (network : String) (draw : Except String (Bytes 16)) : Outcome MnemonicWallet := do
  let pre ← prefixFrom network
  let entropy ← mapErr ("CSPRNG failed: " ++ ·) draw
  let mnemonic ← mapErr ("could not build a recovery phrase: " ++ ·) (C.fromEntropy entropy)
  let secret ← secretFromPhrase C.toMoneyCrates (C.phraseText mnemonic) ""
  let raw ← okOr "derived key is not a valid Orchard spending key" (C.addressBytesFromSeed secret)
  return ⟨C.phraseText mnemonic,addressString C.toWalletCrates pre raw⟩

/-- `generate_wallet` of the phone. -/
def generateWallet (network : String) (draw : Except String (Bytes 16)) : Outcome MnemonicWallet :=
  newWalletMnemonic C network draw

variable {C}

theorem returns_prefixFrom (network : String) : Returns (prefixFrom network) := by
  unfold prefixFrom
  split
  · exact returns_ok _
  · exact returns_ok _
  · exact returns_ok _
  · exact returns_ok _
  · exact .inr ⟨_,rfl⟩

/-! ### A random seed -/

/-- An answer at which the loop ends: a failure, or a seed with an address. -/
def Ends (C : MintCrates) : Except String (Bytes 32) → Prop
  | .error _ => True
  | .ok seed => (C.addressBytesFromSeed seed).isSome = true

theorem drawSeed_eq_ok {pre : Prefix} {draws : List (Except String (Bytes 32))} {w : Wallet} :
    drawSeed C pre draws = .ok w ↔ ∃ rejected seed raw rest, draws = rejected ++ .ok seed::rest ∧
      (∀ d ∈ rejected, ¬ Ends C d) ∧ C.addressBytesFromSeed seed = some raw ∧
      w = ⟨C.hex.encode seed.val,addressString C.toWalletCrates pre raw⟩ := by
  induction draws with
  | nil => simp [drawSeed]
  | cons d draws ih =>
    cases d with
    | error e =>
      simp only [drawSeed,fail]
      refine iff_of_false (fun h => by cases h) ?_
      rintro ⟨rejected,seed,raw,rest,he,hrejected,_⟩
      cases rejected with
      | nil => cases he
      | cons d rejected =>
        cases he
        exact hrejected _ List.mem_cons_self trivial
    | ok seed =>
      cases hraw : C.addressBytesFromSeed seed with
      | some raw =>
        simp only [drawSeed,hraw]
        constructor
        · intro h
          cases h
          exact ⟨[],seed,raw,draws,rfl,fun _ hd => absurd hd List.not_mem_nil,hraw,rfl⟩
        · rintro ⟨rejected,seed',raw',rest,he,hrejected,hraw',rfl⟩
          cases rejected with
          | nil =>
            cases he
            cases hraw.symm.trans hraw'
            rfl
          | cons d rejected =>
            cases he
            exact absurd (by rw [Ends,hraw]; rfl) (hrejected _ List.mem_cons_self)
      | none =>
        simp only [drawSeed,hraw]
        rw [ih]
        constructor
        · rintro ⟨rejected,seed',raw',rest,rfl,hrejected,hraw',hw⟩
          refine ⟨.ok seed::rejected,seed',raw',rest,rfl,fun d hd => ?_,hraw',hw⟩
          rcases List.mem_cons.mp hd with rfl | hd
          · rw [Ends,hraw]
            exact Bool.false_ne_true
          · exact hrejected d hd
        · rintro ⟨rejected,seed',raw',rest,he,hrejected,hraw',hw⟩
          cases rejected with
          | nil =>
            cases he
            cases hraw.symm.trans hraw'
          | cons d rejected =>
            cases he
            exact ⟨rejected,seed',raw',rest,rfl,fun d hd => hrejected d (List.mem_cons_of_mem _ hd),hraw',hw⟩

/-- Without an end there was a known network, and every answer was a seed without an address. -/
theorem newWallet_finishes {network : String} {draws : List (Except String (Bytes 32))} :
    Finishes (newWallet C network draws) ↔ (∀ pre, prefixFrom network ≠ .ok pre) ∨ ∃ d ∈ draws, Ends C d := by
  have hdraw : ∀ pre, Finishes (drawSeed C pre draws) ↔ ∃ d ∈ draws, Ends C d := by
    intro pre
    induction draws with
    | nil => simp [drawSeed,Finishes]
    | cons d draws ih =>
      rw [List.exists_mem_cons_iff]
      cases d with
      | error e => exact iff_of_true (by simp [drawSeed,fail,Finishes]) (.inl trivial)
      | ok seed =>
        cases hraw : C.addressBytesFromSeed seed with
        | some raw => exact iff_of_true (by simp [drawSeed,hraw]) (.inl (by rw [Ends,hraw]; rfl))
        | none =>
          have hnot : ¬ Ends C (.ok seed) := by
            rw [Ends,hraw]
            exact Bool.false_ne_true
          simp only [drawSeed,hraw]
          exact ih.trans (or_iff_right hnot).symm
  rw [newWallet]
  cases hpre : prefixFrom network with
  | ok pre =>
    rw [ok_bind,hdraw]
    exact (or_iff_right fun h => h pre rfl).symm
  | error stop =>
    have hreturns := (returns_prefixFrom network).finishes
    rw [hpre] at hreturns
    rw [error_bind]
    exact iff_of_true (by simpa [Finishes] using hreturns) (.inl fun _ h => by cases h)

/-! ### What a secret restores -/

/-- A secret is the wallet of this key, in the browser and on a phone. -/
structure Restores (C : MintCrates) (J : PaymentJson) (secret : String) (key : Bytes 32) (raw : Bytes 43) : Prop where
  resolves : resolveSecret C.toMoneyCrates secret = .ok key
  address : ∀ network, addressFromSeed C.toWalletCrates secret network =
    (do return addressString C.toWalletCrates (← prefixFrom network) raw)
  phone : ∀ network pre, prefixFrom network = .ok pre → ∃ signer,
    fromSecret C.toWalletCrates secret network = .ok signer ∧ signer.ActsFor C.toWalletCrates J secret

section
variable {J : PaymentJson} {T : CaseTables} (hp : C.phrases.Documented T) (hhex : C.hex.Documented)
  (hdig : C.hex.TwoDigits)
include hp hhex hdig

theorem restores_of_key {secret : String} {key : Bytes 32} {raw : Bytes 43}
    (hkey : resolveSecret C.toMoneyCrates secret = .ok key) (hraw : C.addressBytesFromSeed key = some raw) :
    Restores C J secret key raw where
  resolves := hkey
  address := addressFromSeed_of_key hkey hraw
  phone network pre hpre := by
    obtain ⟨hex,hown,hparse⟩ := (accountKey_resolves hhex hdig hp).mp hkey
    have hacts := actsFor_of_key (J := J) hown (hparse.trans hkey.symm)
    refine ⟨⟨trim secret⟩,fromSecret_eq_ok.mpr ⟨rfl,addressString C.toWalletCrates pre raw,?_⟩,hacts⟩
    rw [hacts.address,addressFromSeed_of_key hkey hraw,hpre]
    rfl

/-- The digits of a key in any spelling are that key, no phrase, and have no accounts. -/
theorem digits_of_key {secret : String} {key : Bytes 32} (h : SameWords secret (C.hex.encode key.val)) :
    resolveSecret C.toMoneyCrates secret = .ok key ∧ isValidMnemonic C.toWalletCrates secret = false ∧
      ∀ account, (accountSecret C.toWalletCrates secret account).Errs := by
  have hdigits := isRawSeed_encode hhex hdig key
  have hraw : isRawSeed (trim secret) = true := by
    rw [(isRawSeed_trim_congr h).1,trim_of_isRawSeed hdigits,hdigits]
  refine ⟨?_,?_,OneSecret.accountSecret_errs hp hraw⟩
  · rw [OneSecret.resolveSecret_congr hp hhex hdig h]
    exact parseSeed_encode hhex hdig key
  · obtain ⟨e,he⟩ := Phrases.parse_cleaned_error hp (.inl hraw)
    rw [isValidMnemonic,he]
    rfl

omit hp in
/-- The seed of a new wallet has its address again. -/
theorem newWallet_address {network : String} {draws : List (Except String (Bytes 32))} {w : Wallet}
    (h : newWallet C network draws = .ok w) : addressFromSeed C.toWalletCrates w.seedHex network = .ok w.address := by
  simp only [newWallet,bind_eq_ok] at h
  obtain ⟨pre,hpre,h⟩ := h
  obtain ⟨_,seed,raw,_,_,_,hraw,rfl⟩ := drawSeed_eq_ok.mp h
  exact addressFromSeed_eq_ok.mpr ⟨pre,seed,raw,hpre,parseSeed_encode hhex hdig seed,hraw,rfl⟩

/-- A new wallet is that of the first seed that has an address, and its seed in any spelling is that
wallet again, and no phrase. -/
theorem newWallet_restores {network : String} {draws : List (Except String (Bytes 32))} {w : Wallet}
    (h : newWallet C network draws = .ok w) : ∃ pre rejected seed raw rest,
      prefixFrom network = .ok pre ∧ draws = rejected ++ .ok seed::rest ∧ (∀ d ∈ rejected, ¬ Ends C d) ∧
      w.address = addressString C.toWalletCrates pre raw ∧
      ∀ secret, SameWords secret w.seedHex → Restores C J secret seed raw ∧
        addressFromSeed C.toWalletCrates secret network = .ok w.address ∧
        isValidMnemonic C.toWalletCrates secret = false := by
  simp only [newWallet,bind_eq_ok] at h
  obtain ⟨pre,hpre,h⟩ := h
  obtain ⟨rejected,seed,raw,rest,hdraws,hrejected,hraw,rfl⟩ := drawSeed_eq_ok.mp h
  refine ⟨pre,rejected,seed,raw,rest,hpre,hdraws,hrejected,rfl,fun secret hsecret => ?_⟩
  have hrestores := restores_of_key (J := J) hp hhex hdig (digits_of_key hp hhex hdig hsecret).1 hraw
  refine ⟨hrestores,?_,?_⟩
  · rw [hrestores.address,hpre]
    rfl
  · exact (digits_of_key hp hhex hdig hsecret).2.1

end

/-! ### A phrase -/

section
variable {T : CaseTables} (hp : C.phrases.Documented T) (hC : C.Documented)
include hp hC

/-- A phrase as it is written is clean. -/
theorem cleaned_phraseText {entropy : Bytes 16} {m : C.phrases.Mnemonic} (h : C.fromEntropy entropy = .ok m) :
    C.phrases.cleaned (C.phraseText m) = C.phraseText m := by
  obtain ⟨ws,htext,hws⟩ := hC.words entropy m h
  have hplain : ∀ w ∈ ws, ∀ c ∈ w.toList, c.isUpper = false ∧ isWhitespace c = false := fun w hw c hc =>
    plain_of_lower_or_digit (.inl ((hws w hw).2 c hc))
  have hlist : (C.phraseText m).toList = [' '].intercalate (ws.map String.toList) := by
    rw [htext,String.toList_intercalate]
    rfl
  have hsplit : splitWhitespace (C.phraseText m) = ws := by
    change (Words.words isWhitespace (C.phraseText m).toList).map String.ofList = ws
    rw [hlist,Words.words_intercalate (by decide),List.map_map]
    · exact (List.map_congr_left fun w _ => String.ofList_toList).trans (List.map_id ws)
    · intro w hw
      obtain ⟨word,hword,rfl⟩ := List.mem_map.mp hw
      exact fun hnil => (hws word hword).1 (String.toList_eq_nil_iff.mp hnil)
    · intro w hw
      obtain ⟨word,hword,rfl⟩ := List.mem_map.mp hw
      exact fun c hc => (hplain word hword c hc).2
  have hascii : ∀ c ∈ (C.phraseText m).toList, c.toNat < 128 ∧ c.isUpper = false := by
    intro c hc
    rw [hlist] at hc
    rcases Words.mem_intercalate hc with rfl | ⟨w,hw,hc⟩
    · decide
    · obtain ⟨word,hword,rfl⟩ := List.mem_map.mp hw
      refine ⟨?_,(hplain word hword c hc).1⟩
      have hbound : 97 ≤ c.toNat ∧ c.toNat ≤ 122 := by
        simpa [Char.isLower,UInt32.le_iff_toNat_le] using (hws word hword).2 c hc
      omega
  rw [Phrases.cleaned,hsplit,← htext,hp.toLowercase_eq,CaseTables.toLowercase_ascii fun c hc => (hascii c hc).1,
    toAsciiLowercase,List.map_congr_left fun c hc => toLower_eq_self.mpr (hascii c hc).2]
  simp

/-- The wallet starts from the seed of the very phrase that was written down. -/
theorem walletStart_phraseText {entropy : Bytes 16} {m : C.phrases.Mnemonic} (h : C.fromEntropy entropy = .ok m) :
    OneSecret.walletStart C.toSignerCrates (C.phraseText m) = .ok (C.phrases.toSeedNormalized m "") := by
  refine (OneSecret.walletStart_eq_ok hp).mpr ⟨m,?_,rfl⟩
  rw [cleaned_phraseText hp hC h]
  exact hC.parse_text entropy m h

theorem secretFromPhrase_phraseText {entropy : Bytes 16} {m : C.phrases.Mnemonic} (h : C.fromEntropy entropy = .ok m) :
    secretFromPhrase C.toMoneyCrates (C.phraseText m) "" =
      OneSecret.walletDerive C.toSignerCrates (C.phrases.toSeedNormalized m "") := by
  rw [secretFromPhrase,cleaned_phraseText hp hC h,hC.parse_text entropy m h]
  rfl

theorem newWalletMnemonic_eq_ok {network : String} {draw : Except String (Bytes 16)} {w : MnemonicWallet} :
    newWalletMnemonic C network draw = .ok w ↔ ∃ pre entropy m key raw, prefixFrom network = .ok pre ∧
      draw = .ok entropy ∧ C.fromEntropy entropy = .ok m ∧
      OneSecret.walletDerive C.toSignerCrates (C.phrases.toSeedNormalized m "") = .ok key ∧
      C.addressBytesFromSeed key = some raw ∧ w = ⟨C.phraseText m,addressString C.toWalletCrates pre raw⟩ := by
  simp only [newWalletMnemonic,bind_eq_ok,mapErr_eq_ok,okOr_eq_ok,pure_eq_ok,Except.ok.injEq]
  constructor
  · rintro ⟨pre,hpre,entropy,hdraw,m,hm,key,hkey,raw,hraw,rfl⟩
    rw [secretFromPhrase_phraseText hp hC hm] at hkey
    exact ⟨pre,entropy,m,key,raw,hpre,hdraw,hm,hkey,hraw,rfl⟩
  · rintro ⟨pre,entropy,m,key,raw,hpre,hdraw,hm,hkey,hraw,rfl⟩
    rw [← secretFromPhrase_phraseText hp hC hm] at hkey
    exact ⟨pre,hpre,entropy,hdraw,m,hm,key,hkey,raw,hraw,rfl⟩

/-- The words of a new phrase, in any spelling, start from its seed and resolve to its key. -/
theorem newWalletMnemonic_key {network : String} {draw : Except String (Bytes 16)} {w : MnemonicWallet}
    (h : newWalletMnemonic C network draw = .ok w) : ∃ entropy m key raw pre, draw = .ok entropy ∧
      C.fromEntropy entropy = .ok m ∧ prefixFrom network = .ok pre ∧ w.address = addressString C.toWalletCrates pre raw ∧
      ∀ secret, SameWords secret w.mnemonic → isRawSeed (trim secret) = false ∧
        OneSecret.walletStart C.toSignerCrates secret = .ok (C.phrases.toSeedNormalized m "") ∧
        resolveSecret C.toMoneyCrates secret = .ok key ∧ C.addressBytesFromSeed key = some raw := by
  obtain ⟨pre,entropy,m,key,raw,hpre,hdraw,hm,hkey,hraw,rfl⟩ := (newWalletMnemonic_eq_ok hp hC).mp h
  refine ⟨entropy,m,key,raw,pre,hdraw,hm,hpre,rfl,fun secret hsecret => ?_⟩
  have hstart := walletStart_phraseText hp hC hm
  rw [← OneSecret.walletStart_congr hp hsecret] at hstart
  have hvalid := (OneSecret.walletStart_ok_iff hp).mp ⟨_,hstart⟩
  -- what parses is no raw seed
  have hphrase : isRawSeed (trim secret) = false := by
    by_contra hseed
    obtain ⟨e,he⟩ := Phrases.parse_cleaned_error hp (.inl (Bool.eq_true_of_not_eq_false hseed))
    rw [isValidMnemonic,he] at hvalid
    cases hvalid
  refine ⟨hphrase,hstart,?_,hraw⟩
  rw [OneSecret.resolveSecret_start hphrase,hstart]
  exact hkey

variable {J : PaymentJson} (hhex : C.hex.Documented) (hdig : C.hex.TwoDigits)
include hhex hdig

/-- A new phrase comes with the address of its account 0, whenever the crates have one for it. The
words restore that wallet in any spelling: in the browser, on a phone and as an account of the
phrase; and the chat identity starts from the same seed. -/
theorem newWalletMnemonic_restores (network : String) (draw : Except String (Bytes 16)) :
    ((∃ w, newWalletMnemonic C network draw = .ok w) ↔ ∃ pre entropy m key raw, prefixFrom network = .ok pre ∧
      draw = .ok entropy ∧ C.fromEntropy entropy = .ok m ∧
      OneSecret.walletDerive C.toSignerCrates (C.phrases.toSeedNormalized m "") = .ok key ∧
      C.addressBytesFromSeed key = some raw) ∧
    ∀ w, newWalletMnemonic C network draw = .ok w → ∃ entropy m key raw, draw = .ok entropy ∧
      C.fromEntropy entropy = .ok m ∧ ∀ secret, SameWords secret w.mnemonic →
        isValidMnemonic C.toWalletCrates secret = true ∧ Restores C J secret key raw ∧
        addressFromSeed C.toWalletCrates secret network = .ok w.address ∧
        (∀ n, accountAddress C.toWalletCrates secret n 0 = addressFromSeed C.toWalletCrates secret n) ∧
        OneSecret.chatStart C.toSignerCrates secret = .ok ((C.phrases.toSeedNormalized m "").val,true) := by
  constructor
  · simp only [newWalletMnemonic_eq_ok hp hC]
    constructor
    · rintro ⟨w,pre,entropy,m,key,raw,hpre,hdraw,hm,hkey,hraw,_⟩
      exact ⟨pre,entropy,m,key,raw,hpre,hdraw,hm,hkey,hraw⟩
    · rintro ⟨pre,entropy,m,key,raw,hpre,hdraw,hm,hkey,hraw⟩
      exact ⟨_,pre,entropy,m,key,raw,hpre,hdraw,hm,hkey,hraw,rfl⟩
  · intro w hw
    obtain ⟨entropy,m,key,raw,pre,hdraw,hm,hpre,haddress,hsecret⟩ := newWalletMnemonic_key hp hC hw
    refine ⟨entropy,m,key,raw,hdraw,hm,fun secret hsame => ?_⟩
    obtain ⟨hphrase,hstart,hresolve,hraw⟩ := hsecret secret hsame
    have hrestores := restores_of_key (J := J) hp hhex hdig hresolve hraw
    refine ⟨(OneSecret.walletStart_ok_iff hp).mp ⟨_,hstart⟩,hrestores,?_,fun n => ?_,?_⟩
    · rw [hrestores.address,hpre,haddress]
      rfl
    · rw [hrestores.address,accountAddress_of_key ((resolveSecret_of_phrase hp hphrase).mp hresolve) hraw]
    · rw [OneSecret.chatStart_of_walletStart hphrase,hstart]
      rfl

end

/-! ### Accounts -/

section
variable {J : PaymentJson} {T : CaseTables} (hp : C.phrases.Documented T) (hhex : C.hex.Documented)
  (hdig : C.hex.TwoDigits)

theorem accountSecret_out_of_range (phrase : String) {account : UInt32} (h : 2^31 ≤ account.toNat) :
    (accountSecret C.toWalletCrates phrase account).Errs := by
  have hnone : accountIdTryFrom account = none := dif_neg (Nat.not_lt.mpr h)
  simp only [accountSecret,hnone]
  cases C.phrases.parseNormalized (C.phrases.cleaned phrase) with
  | error e => exact ⟨_,rfl⟩
  | ok m => exact ⟨_,rfl⟩

theorem accountAddress_eq_ok {phrase network address : String} {account : UInt32} :
    accountAddress C.toWalletCrates phrase network account = .ok address ↔ ∃ pre key raw, prefixFrom network = .ok pre ∧
      accountSecret C.toWalletCrates phrase account = .ok key ∧ C.addressBytesFromSeed key = some raw ∧
      address = addressString C.toWalletCrates pre raw := by
  simp only [accountAddress,bind_eq_ok,okOr_eq_ok,pure_eq_ok,Except.ok.injEq]
  constructor
  · rintro ⟨pre,hpre,key,hkey,raw,hraw,rfl⟩
    exact ⟨pre,key,raw,hpre,hkey,hraw,rfl⟩
  · rintro ⟨pre,key,raw,hpre,hkey,hraw,rfl⟩
    exact ⟨pre,hpre,key,hkey,raw,hraw,rfl⟩

theorem accountSeedHex_eq_ok {phrase digits : String} {account : UInt32} :
    accountSeedHex C.toWalletCrates phrase account = .ok digits ↔
      ∃ key : Bytes 32, accountSecret C.toWalletCrates phrase account = .ok key ∧ digits = C.hex.encode key.val := by
  simp only [accountSeedHex,bind_eq_ok,pure_eq_ok,Except.ok.injEq]
  exact exists_congr fun key => and_congr_right fun _ => eq_comm

include hp hhex hdig

/-- Every account of a phrase is a wallet of its own. Its address is that of its digits, which are this
wallet wherever a secret is taken, and have no accounts; beyond the range of hardened indices
there is none. -/
theorem account_wallets (phrase network : String) (account : UInt32) :
    (2^31 ≤ account.toNat → (accountSeedHex C.toWalletCrates phrase account).Errs ∧
      (accountAddress C.toWalletCrates phrase network account).Errs) ∧
    (∀ address, accountAddress C.toWalletCrates phrase network account = .ok address ↔
      ∃ digits, accountSeedHex C.toWalletCrates phrase account = .ok digits ∧
        addressFromSeed C.toWalletCrates digits network = .ok address) ∧
    ∀ digits, accountSeedHex C.toWalletCrates phrase account = .ok digits →
      ∃ key, accountSecret C.toWalletCrates phrase account = .ok key ∧ ∀ secret, SameWords secret digits →
        resolveSecret C.toMoneyCrates secret = .ok key ∧ isValidMnemonic C.toWalletCrates secret = false ∧
        (∀ i, (accountSecret C.toWalletCrates secret i).Errs) ∧
        ∀ address, accountAddress C.toWalletCrates phrase network account = .ok address ↔
          ∃ signer, fromSecret C.toWalletCrates secret network = .ok signer ∧
            signer.ActsFor C.toWalletCrates J secret ∧ signer.address C.toWalletCrates network = .ok address := by
  refine ⟨fun hrange => ?_,fun address => ?_,fun digits hdigits => ?_⟩
  · obtain ⟨e,he⟩ := accountSecret_out_of_range (C := C) phrase hrange
    refine ⟨⟨e,by rw [accountSeedHex,he]; rfl⟩,?_⟩
    rw [accountAddress,he]
    rcases returns_prefixFrom network with ⟨pre,hpre⟩ | ⟨m,hm⟩
    · exact ⟨e,by rw [hpre]; rfl⟩
    · exact ⟨m,by rw [hm]; rfl⟩
  · simp only [accountAddress_eq_ok,accountSeedHex_eq_ok,addressFromSeed_eq_ok]
    constructor
    · rintro ⟨pre,key,raw,hpre,hkey,hraw,rfl⟩
      exact ⟨_,⟨key,hkey,rfl⟩,pre,key,raw,hpre,parseSeed_encode hhex hdig key,hraw,rfl⟩
    · rintro ⟨_,⟨key,hkey,rfl⟩,pre,key',raw,hpre,hparse,hraw,rfl⟩
      obtain rfl := Except.ok.inj ((parseSeed_encode hhex hdig key).symm.trans hparse)
      exact ⟨pre,key,raw,hpre,hkey,hraw,rfl⟩
  · obtain ⟨key,hkey,rfl⟩ := accountSeedHex_eq_ok.mp hdigits
    refine ⟨key,hkey,fun secret hsecret => ?_⟩
    obtain ⟨hresolve,hinvalid,haccounts⟩ := digits_of_key hp hhex hdig hsecret
    refine ⟨hresolve,hinvalid,haccounts,fun address => ?_⟩
    rw [accountAddress_eq_ok]
    constructor
    · rintro ⟨pre,key',raw,hpre,hkey',hraw,rfl⟩
      obtain rfl := Except.ok.inj (hkey.symm.trans hkey')
      have hrestores := restores_of_key (J := J) hp hhex hdig hresolve hraw
      obtain ⟨signer,hsigner,hacts⟩ := hrestores.phone network pre hpre
      refine ⟨signer,hsigner,hacts,?_⟩
      rw [hacts.address,hrestores.address,hpre]
      rfl
    · rintro ⟨signer,_,hacts,haddress⟩
      rw [hacts.address] at haddress
      obtain ⟨pre,key',raw,hpre,hkey',hraw,rfl⟩ := addressFromSeed_eq_ok.mp haddress
      obtain rfl := Except.ok.inj (hresolve.symm.trans hkey')
      exact ⟨pre,key,raw,hpre,hkey,hraw,rfl⟩

end

end NewWallet

namespace Recorded

/-- The entropy of the recorded phrase. -/
def phraseEntropy : Bytes 16 := bytes 16 0x7e91e681dd067802c50aa8216d564a89

def mintCrates : MintCrates where
  toSignerCrates := signerCrates
  fromEntropy entropy := if entropy = phraseEntropy then .ok () else .error "the entropy is not the recorded one"
  phraseText _ := phrase

theorem mintCrates_documented : mintCrates.Documented where
  parse_text _ _ _ := rfl
  words _ _ _ := by
    have htext : phrase = " ".intercalate (splitWhitespace phrase) := by
      decide +kernel
    have hsmall : ((splitWhitespace phrase).all fun w => w ≠ "" && w.toList.all Char.isLower) = true := by
      decide +kernel
    refine ⟨splitWhitespace phrase,htext,fun w hw => ?_⟩
    obtain ⟨hne,hlower⟩ := Bool.and_eq_true_iff.mp (List.all_eq_true.mp hsmall w hw)
    exact ⟨of_decide_eq_true hne,List.all_eq_true.mp hlower⟩

theorem sameWords_typedPhrase : SameWords typedPhrase phrase := by
  have hwords : (splitWhitespace typedPhrase).map toAsciiLowercase = (splitWhitespace phrase).map toAsciiLowercase := by
    decide +kernel
  rwa [← List.forall₂_eq_eq_eq,List.forall₂_map_left_iff,List.forall₂_map_right_iff] at hwords

/-- A text argument of a function that is called with bytes. -/
def textAt (args : List (List UInt8)) (i : ℕ) : String := ((args[i]?).bind decodeUtf8).getD ""

@[simp] theorem textAt_zero (s : String) (args : List (List UInt8)) : textAt (asBytes s::args) 0 = s := by
  have hdecode : decodeUtf8 (asBytes s) = some s := decodeUtf8_eq_some.mpr rfl
  simp [textAt,hdecode]

@[simp] theorem textAt_succ (bytes : List UInt8) (args : List (List UInt8)) (i : ℕ) :
    textAt (bytes::args) (i+1) = textAt args i := rfl

end Recorded

namespace NewWallet
open Recorded

theorem newWallet_restores_recorded :
    ∃ w, newWallet mintCrates "mainnet" [.ok phraseKey] = .ok w ∧ w.address = addressText .mainnet ∧
      addressFromSeed walletCrates (" " ++ w.seedHex) "mainnet" = .ok (addressText .mainnet) := by
  have hnew : newWallet mintCrates "mainnet" [.ok phraseKey] =
      .ok ⟨hexCrate.encode phraseKey.val,addressText .mainnet⟩ := by
    decide +kernel
  obtain ⟨_,_,_,_,_,_,_,_,_,hrestores⟩ := newWallet_restores (C := mintCrates) (J := Prepared.json) spoken_documented
    hexCrate_documented hexCrate_twoDigits hnew
  have hspelled : splitWhitespace (" " ++ hexCrate.encode phraseKey.val) = splitWhitespace (hexCrate.encode phraseKey.val) := by
    decide +kernel
  refine ⟨_,hnew,rfl,(hrestores (" " ++ hexCrate.encode phraseKey.val) ?_).2.1⟩
  rw [SameWords,hspelled]
  exact List.forall₂_same.mpr fun _ _ => rfl

/-- The words of recorded entropy, in another spelling, are its wallet on the main network. -/
theorem newWalletMnemonic_restores_recorded :
    ∃ w, generateWallet mintCrates "mainnet" (.ok phraseEntropy) = .ok w ∧ w.mnemonic = phrase ∧
      accountAddress walletCrates typedPhrase "mainnet" 0 = .ok (addressText .mainnet) := by
  have hnew : newWalletMnemonic mintCrates "mainnet" (.ok phraseEntropy) = .ok ⟨phrase,addressText .mainnet⟩ := by
    decide +kernel
  obtain ⟨_,hrestores⟩ := newWalletMnemonic_restores (C := mintCrates) (J := Prepared.json) spoken_documented
    mintCrates_documented hexCrate_documented hexCrate_twoDigits "mainnet" (.ok phraseEntropy)
  obtain ⟨_,_,_,_,_,_,hsecret⟩ := hrestores _ hnew
  obtain ⟨_,_,haddress,haccount,_⟩ := hsecret typedPhrase sameWords_typedPhrase
  exact ⟨_,hnew,rfl,(haccount "mainnet").trans haddress⟩

theorem account_wallets_recorded :
    addressFromSeed walletCrates (hexCrate.encode phraseKey.val) "testnet" = .ok (addressText .testnet) ∧
      (accountAddress walletCrates phrase "testnet" 2147483648).Errs := by
  obtain ⟨_,haddress,_⟩ := account_wallets (C := mintCrates) (J := Prepared.json) spoken_documented
    hexCrate_documented hexCrate_twoDigits typedPhrase "testnet" 0
  obtain ⟨hrange,_⟩ := account_wallets (C := mintCrates) (J := Prepared.json) spoken_documented
    hexCrate_documented hexCrate_twoDigits phrase "testnet" 2147483648
  have haccount : accountAddress walletCrates typedPhrase "testnet" 0 = .ok (addressText .testnet) := by
    decide +kernel
  obtain ⟨digits,hdigits,hwallet⟩ := (haddress (addressText .testnet)).mp haccount
  have hown : accountSeedHex walletCrates typedPhrase 0 = .ok (hexCrate.encode phraseKey.val) := by
    decide +kernel
  rw [← Except.ok.inj (hdigits.symm.trans hown)]
  exact ⟨hwallet,(hrange (by decide)).2⟩

end NewWallet
end ZkasSigner
