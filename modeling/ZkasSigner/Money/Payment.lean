import ZkasSigner.Money.Secret

/-! The device's half of a payment. The user's inputs become the intent; the server's reply is
only decoded, and every decision is left to the one call of the SDK signer. -/
namespace ZkasSigner.Money
open Foundation Foundation.Text Foundation.Outcome

/-- One entry of the server's `disclosure` array. -/
structure Disc where
  spendValue : UInt64
  outValue : UInt64
  outRecipient : String
  outRseed : String
  rcv : String
  deriving DecidableEq

/-- One entry of the server's `spend_auth` array. -/
structure AlphaReq where
  index : ℕ
  alpha : String
  deriving DecidableEq

structure SigOut where
  index : ℕ
  sig : String
  deriving DecidableEq

/-- `serde_json` at the types of the reply and of the result. -/
structure PaymentJson where
  parseDiscs : String → Except String (List Disc)
  parseAlphas : String → Except String (List AlphaReq)
  printSigs : List SigOut → Except String String

/-- Printing indices and strings does not fail. -/
def PaymentJson.Prints (J : PaymentJson) : Prop := ∀ sigs, ∃ text, J.printSigs sigs = .ok text

def MAINNET_GENESIS : Bytes 32 :=
  ⟨[0xb6,0x3f,0x7f,0xe8,0xe5,0x04,0x02,0xaf,0x34,0x79,0x02,0x65,0xe2,0x99,0xbb,0x1b,0xa6,0x3e,0x94,0x3b,0x91,
    0xa5,0x9a,0x67,0x0e,0x59,0x71,0xb7,0xa9,0xe8,0x4e,0x6f],rfl⟩

/-- The sighash context of the transaction a bundle is carried in. -/
def PAYMENT_TX_CONTEXT : List UInt8 :=
  [0x02,0x00,0x00,0x00,0x00,0x00,0x00,0x00,0x00,0x00,0x00,0x00,0x00,0x00,0x00,0x00,
    0x00,0x00,0x00,0x00,0x00,0x00,0x00,0x00,0x00,0x00,0x00,0x00,0x00,0x00,0x00,0x00,
    0x00,0x00,0x00,0x00,0x00,0x00]

/-- The user's inputs, then the server's reply. -/
structure PaymentArgs where
  seedHex : String
  network : String
  toAddress : String
  amountSompi : UInt64
  maxFeeSompi : UInt64
  bundleHex : String
  disclosureJson : String
  alphasJson : String

/-- `u64::try_from(value).unwrap_or(0)`. -/
def bundleFee (value : Int64) : UInt64 := if 0 ≤ value then value.toUInt64 else 0

variable (C : MoneyCrates) (J : PaymentJson)

def decodeRecipient (toAddress : String) : Outcome (Bytes 43) := do
  let toAddr ← mapErr ("invalid recipient address: " ++ ·) (C.addressTryFrom (trim toAddress))
  okOr "recipient is not a shielded Orchard address" (C.orchardRecipientBytes toAddr)

def pinnedGenesis (network : String) : Outcome (Bytes 32) :=
  match network with
  | "mainnet" => .ok MAINNET_GENESIS
  | other => fail ("unknown network " ++ other ++ "; only mainnet is pinned for on-device verification")

def decodeBundle (bundleHex : String) : Outcome C.Bundle := do
  let bundleBytes ← mapErr (fun _ => "bundle_hex is not valid hex") (C.hex.decode (trim bundleHex))
  mapErr ("bundle_hex does not decode: " ++ ·) (C.bundleFromBytes bundleBytes)

def decodeDisc (d : Disc) : Outcome ActionDisclosure := do
  let outRecipient ← parse43 C.hex d.outRecipient "out_recipient"
  let outRseed ← parse32 C.hex d.outRseed "out_rseed"
  let rcv ← parse32 C.hex d.rcv "rcv"
  return ⟨d.spendValue,d.outValue,outRecipient,outRseed,rcv⟩

def decodeAlpha (request : AlphaReq) : Outcome SpendAuthRequest := do
  let alpha ← parse32 C.hex request.alpha "alpha"
  return ⟨request.index,alpha⟩

def sigOut (signature : SpendAuthSignature) : SigOut :=
  ⟨signature.actionIndex,C.hex.encode signature.signature⟩

def verifyAndSignPayment (a : PaymentArgs) : Outcome String := do
  let seed ← parseSeed C a.seedHex
  let recipient ← decodeRecipient C a.toAddress
  let genesis ← pinnedGenesis a.network
  let bundle ← decodeBundle C a.bundleHex
  let discs ← mapErr ("bad disclosure json: " ++ ·) (J.parseDiscs a.disclosureJson)
  let disclosure ← discs.mapM (decodeDisc C)
  let reqs ← mapErr ("bad spend_auth json: " ++ ·) (J.parseAlphas a.alphasJson)
  let spendAuth ← reqs.mapM (decodeAlpha C)
  let signer ← mapErr id (C.newSigner seed)
  let prepared : PreparedPayment C.Bundle :=
    { version := C.preparedVersion
      networkDomain := genesis
      txContext := PAYMENT_TX_CONTEXT
      bundle, disclosure, spendAuth
      claimed := ⟨recipient,a.amountSompi,bundleFee (C.valueBalance bundle)⟩ }
  let intent : PaymentIntent := ⟨recipient,a.amountSompi,a.maxFeeSompi⟩
  let signatures ← mapErr id (C.verifyAndSign signer genesis intent prepared)
  mapErr ("serialize sigs: " ++ ·) (J.printSigs (signatures.map (sigOut C)))

/-! ### What a payment is signed for -/

/-- An entry of the reply and the disclosure it stands for, field by field. -/
structure Discloses (hex : HexCrate) (d : Disc) (x : ActionDisclosure) : Prop where
  spendValue : x.spendValue = d.spendValue
  outValue : x.outValue = d.outValue
  outRecipient : hex.decode (trim d.outRecipient) = .ok x.outRecipient.val
  outRseed : hex.decode (trim d.outRseed) = .ok x.outRseed.val
  rcv : hex.decode (trim d.rcv) = .ok x.rcv.val

structure Requests (hex : HexCrate) (request : AlphaReq) (x : SpendAuthRequest) : Prop where
  index : x.actionIndex = request.index
  alpha : hex.decode (trim request.alpha) = .ok x.alpha.val

/-- The inputs are well formed and decode to the given parts, the lists entry by entry and in
the server's order. -/
structure Decodes (a : PaymentArgs) (seed : Bytes 32) (recipient : Bytes 43) (bundle : C.Bundle)
    (disclosure : List ActionDisclosure) (spendAuth : List SpendAuthRequest) : Prop where
  seed : resolveSecret C a.seedHex = .ok seed
  network : a.network = "mainnet"
  recipient : ∃ addr, C.addressTryFrom (trim a.toAddress) = .ok addr ∧
    C.orchardRecipientBytes addr = some recipient
  bundle : ∃ bytes, C.hex.decode (trim a.bundleHex) = .ok bytes ∧ C.bundleFromBytes bytes = .ok bundle
  disclosure : ∃ discs, J.parseDiscs a.disclosureJson = .ok discs ∧
    List.Forall₂ (Discloses C.hex) discs disclosure
  spendAuth : ∃ reqs, J.parseAlphas a.alphasJson = .ok reqs ∧
    List.Forall₂ (Requests C.hex) reqs spendAuth

def WellFormed (a : PaymentArgs) : Prop :=
  ∃ seed recipient bundle disclosure spendAuth, Decodes C J a seed recipient bundle disclosure spendAuth

/-- The SDK signer releases `sigs` for the payment the user authorised: its domain and context
are pinned, intent and claim are the user's, and the claimed fee is the bundle's own balance. -/
def Authorises (a : PaymentArgs) (sigs : List SpendAuthSignature) : Prop :=
  ∃ seed recipient bundle disclosure spendAuth signer, ∃ fee : UInt64,
    Decodes C J a seed recipient bundle disclosure spendAuth ∧ C.newSigner seed = .ok signer ∧
    fee.toNat = (C.valueBalance bundle).toInt.toNat ∧
    C.verifyAndSign signer MAINNET_GENESIS ⟨recipient,a.amountSompi,a.maxFeeSompi⟩
      { version := C.preparedVersion
        networkDomain := MAINNET_GENESIS
        txContext := PAYMENT_TX_CONTEXT
        bundle, disclosure, spendAuth
        claimed := ⟨recipient,a.amountSompi,fee⟩ } = .ok sigs

variable {C J}

/-- A negative balance counts as no fee. -/
theorem bundleFee_toNat (value : Int64) : (bundleFee value).toNat = value.toInt.toNat := by
  unfold bundleFee
  split_ifs with h
  · exact Int64.toNat_toUInt64_of_le h
  · have hneg : ¬ (0 : Int64).toInt ≤ value.toInt := fun hle => h (Int64.le_iff_toInt_le.mpr hle)
    rw [Int64.toInt_zero] at hneg
    rw [UInt64.toNat_zero]
    omega

theorem decodeDisc_eq_ok {d : Disc} {x : ActionDisclosure} : decodeDisc C d = .ok x ↔ Discloses C.hex d x := by
  simp only [decodeDisc,bind_eq_ok,parse32,parse43,parseArray_eq_ok,pure_eq_ok,Except.ok.injEq]
  constructor
  · intro h
    obtain ⟨_,hr,_,hs,_,hc,rfl⟩ := h
    exact ⟨rfl,rfl,hr,hs,hc⟩
  · obtain ⟨sv,ov,r,s,c⟩ := x
    intro h
    obtain ⟨rfl,rfl,hr,hs,hc⟩ := h
    exact ⟨r,hr,s,hs,c,hc,rfl⟩

theorem decodeAlpha_eq_ok {request : AlphaReq} {x : SpendAuthRequest} :
    decodeAlpha C request = .ok x ↔ Requests C.hex request x := by
  simp only [decodeAlpha,bind_eq_ok,parse32,parseArray_eq_ok,pure_eq_ok,Except.ok.injEq]
  constructor
  · intro h
    obtain ⟨_,h,rfl⟩ := h
    exact ⟨rfl,h⟩
  · obtain ⟨i,alpha⟩ := x
    intro h
    obtain ⟨rfl,h⟩ := h
    exact ⟨alpha,h,rfl⟩

theorem pinnedGenesis_eq_ok {network : String} {genesis : Bytes 32} :
    pinnedGenesis network = .ok genesis ↔ network = "mainnet" ∧ genesis = MAINNET_GENESIS := by
  unfold pinnedGenesis
  split
  · simp [eq_comm]
  · rename_i h
    constructor
    · intro he
      cases he
    · intro h
      obtain ⟨hn,_⟩ := h
      exact absurd hn h

theorem decodeRecipient_eq_ok {toAddress : String} {r : Bytes 43} : decodeRecipient C toAddress = .ok r ↔
    ∃ addr, C.addressTryFrom (trim toAddress) = .ok addr ∧ C.orchardRecipientBytes addr = some r := by
  simp only [decodeRecipient,bind_eq_ok,mapErr_eq_ok,okOr_eq_ok]

theorem decodeBundle_eq_ok {bundleHex : String} {bundle : C.Bundle} : decodeBundle C bundleHex = .ok bundle ↔
    ∃ bytes, C.hex.decode (trim bundleHex) = .ok bytes ∧ C.bundleFromBytes bytes = .ok bundle := by
  simp only [decodeBundle,bind_eq_ok,mapErr_eq_ok]

theorem Authorises.wellFormed {a : PaymentArgs} {sigs : List SpendAuthSignature} (h : Authorises C J a sigs) :
    WellFormed C J a := by
  obtain ⟨seed,recipient,bundle,disclosure,spendAuth,_,_,hdec,_⟩ := h
  exact ⟨seed,recipient,bundle,disclosure,spendAuth,hdec⟩

/-- A payment returns a text exactly when it prints signatures the signer released for it. -/
theorem verifyAndSignPayment_eq_ok {a : PaymentArgs} {out : String} :
    verifyAndSignPayment C J a = .ok out ↔
      ∃ sigs, Authorises C J a sigs ∧ J.printSigs (sigs.map (sigOut C)) = .ok out := by
  simp only [verifyAndSignPayment,parseSeed,bind_eq_ok,mapErr_eq_ok,mapM_eq_ok,pinnedGenesis_eq_ok,
    decodeRecipient_eq_ok,decodeBundle_eq_ok,decodeDisc_eq_ok,decodeAlpha_eq_ok]
  constructor
  · intro h
    obtain ⟨seed,hseed,recipient,hr,_,⟨hnet,rfl⟩,bundle,hb,discs,hd,disclosure,hds,reqs,hq,spendAuth,hqs,
      signer,hsigner,sigs,hsigs,hout⟩ := h
    exact ⟨sigs,⟨seed,recipient,bundle,disclosure,spendAuth,signer,_,
      ⟨hseed,hnet,hr,hb,⟨discs,hd,hds⟩,reqs,hq,hqs⟩,hsigner,bundleFee_toNat _,hsigs⟩,hout⟩
  · intro h
    obtain ⟨sigs,⟨seed,recipient,bundle,disclosure,spendAuth,signer,fee,hdec,hsigner,hfee,hsigs⟩,hout⟩ := h
    obtain ⟨discs,hd,hds⟩ := hdec.disclosure
    obtain ⟨reqs,hq,hqs⟩ := hdec.spendAuth
    rw [← bundleFee_toNat,UInt64.toNat_inj] at hfee
    subst hfee
    exact ⟨seed,hdec.seed,recipient,hdec.recipient,_,⟨hdec.network,rfl⟩,bundle,hdec.bundle,
      discs,hd,disclosure,hds,reqs,hq,spendAuth,hqs,signer,hsigner,sigs,hsigs,hout⟩

theorem verifyAndSignPayment_authorises_iff (hprints : J.Prints) (a : PaymentArgs) :
    (∃ out, verifyAndSignPayment C J a = .ok out) ↔ ∃ sigs, Authorises C J a sigs := by
  simp only [verifyAndSignPayment_eq_ok]
  constructor
  · intro h
    obtain ⟨out,sigs,h,_⟩ := h
    exact ⟨sigs,h⟩
  · intro h
    obtain ⟨sigs,h⟩ := h
    obtain ⟨out,hout⟩ := hprints (sigs.map (sigOut C))
    exact ⟨out,sigs,h,hout⟩

/-- A payment succeeds exactly when its inputs decode and the signer accepts them as the user's
own payment, and what it returns are the signatures of that one call. -/
theorem verifyAndSignPayment_authorises (hprints : J.Prints) (a : PaymentArgs) :
    ((∃ out, verifyAndSignPayment C J a = .ok out) ↔ ∃ sigs, Authorises C J a sigs) ∧
    ∀ out, verifyAndSignPayment C J a = .ok out →
      ∃ sigs, Authorises C J a sigs ∧ J.printSigs (sigs.map (sigOut C)) = .ok out := by
  exact ⟨verifyAndSignPayment_authorises_iff hprints a,fun out h => verifyAndSignPayment_eq_ok.mp h⟩

namespace Prepared
open Recorded

def word : String := "0101010101010101010101010101010101010101010101010101010101010101"

def discText : String :=
  "[\x7b\"spend_value\":1010,\"out_value\":1000,\"out_recipient\":\"" ++ hexCrate.encode recipient.val ++
    "\",\"out_rseed\":\"" ++ word ++ "\",\"rcv\":\"" ++ word ++ "\"\x7d]"

def alphaText : String := "[\x7b\"index\":0,\"alpha\":\"" ++ word ++ "\"\x7d]"

/-- `serde_json` on one reply, and on any result. -/
def json : PaymentJson where
  parseDiscs s :=
    if s = discText then .ok [⟨1010,1000,hexCrate.encode recipient.val,word,word⟩] else .error "expected value"
  parseAlphas s := if s = alphaText then .ok [⟨0,word⟩] else .error "expected value"
  printSigs sigs := .ok ("[" ++ ",".intercalate (sigs.map fun s =>
    "\x7b\"index\":" ++ toString s.index ++ ",\"sig\":\"" ++ s.sig ++ "\"\x7d") ++ "]")

theorem prints : json.Prints := fun _ => ⟨_,rfl⟩

def payment (toAddress : String) : PaymentArgs :=
  ⟨rawSeed,"mainnet",toAddress,1000,10000,"000000000000000a",discText,alphaText⟩

def signed : String := "[\x7b\"index\":0,\"sig\":\"" ++ word ++ word ++ "\"\x7d]"

theorem signs_mainnet : verifyAndSignPayment moneyCrates json (payment mainnetAddress) = .ok signed := by
  decide +kernel

end Prepared
open Recorded Prepared

theorem verifyAndSignPayment_authorises_recorded :
    ∃ sigs, Authorises moneyCrates json (payment mainnetAddress) sigs ∧
      json.printSigs (sigs.map (sigOut moneyCrates)) = .ok signed :=
  (verifyAndSignPayment_authorises prints (payment mainnetAddress)).2 signed signs_mainnet

/-- Nothing behind the parsing of an address depends on the network its text names. -/
theorem verifyAndSignPayment_ignores_network (hblind : C.RecipientIgnoresPrefix) {a : PaymentArgs}
    {other : String} {addr addr' : Address C.Version} (h : C.addressTryFrom (trim a.toAddress) = .ok addr)
    (h' : C.addressTryFrom (trim other) = .ok addr') (hv : addr.version = addr'.version)
    (hp : addr.payload = addr'.payload) :
    verifyAndSignPayment C J { a with toAddress := other } = verifyAndSignPayment C J a := by
  have hr : decodeRecipient C other = decodeRecipient C a.toAddress := by
    rw [decodeRecipient,decodeRecipient,h,h']
    simp only [mapErr,ok_bind,hblind addr addr' hv hp]
  simp only [verifyAndSignPayment,hr]

/-- What the inputs decode to does not depend on the signer. -/
theorem wellFormed_withSigner (S : SdkSigner C.Bundle) (a : PaymentArgs) :
    WellFormed (C.withSigner S) J a ↔ WellFormed C J a := by
  constructor
  · intro h
    obtain ⟨seed,recipient,bundle,disclosure,spendAuth,h⟩ := h
    exact ⟨seed,recipient,bundle,disclosure,spendAuth,
      h.seed,h.network,h.recipient,h.bundle,h.disclosure,h.spendAuth⟩
  · intro h
    obtain ⟨seed,recipient,bundle,disclosure,spendAuth,h⟩ := h
    exact ⟨seed,recipient,bundle,disclosure,spendAuth,
      h.seed,h.network,h.recipient,h.bundle,h.disclosure,h.spendAuth⟩

/-- Inputs that decode reach the signer: some behaviour of it releases signatures for them. -/
theorem wellFormed_iff_signs (hprints : J.Prints) (a : PaymentArgs) :
    WellFormed C J a ↔ ∃ S : SdkSigner C.Bundle, ∃ out,
      verifyAndSignPayment (C.withSigner S) J a = .ok out := by
  constructor
  · intro h
    refine ⟨.lenient C.Bundle,(verifyAndSignPayment_authorises_iff hprints a).mpr ⟨[],?_⟩⟩
    obtain ⟨seed,recipient,bundle,disclosure,spendAuth,h⟩ := (wellFormed_withSigner _ a).mpr h
    exact ⟨seed,recipient,bundle,disclosure,spendAuth,(),_,h,rfl,bundleFee_toNat _,rfl⟩
  · intro h
    obtain ⟨S,hout⟩ := h
    obtain ⟨sigs,hauth⟩ := (verifyAndSignPayment_authorises_iff hprints a).mp hout
    exact (wellFormed_withSigner S a).mp hauth.wellFormed

/-- Whatever the signer does, a signed mainnet payment has a mainnet recipient, exactly when the
address has that prefix or the inputs do not decode; and for the signer at hand, an address of
another network with the same version and payload fares exactly alike. -/
theorem payments_mainnet_iff (hprints : J.Prints) (hblind : C.RecipientIgnoresPrefix) {a : PaymentArgs}
    {addr : Address C.Version} (haddr : C.addressTryFrom (trim a.toAddress) = .ok addr)
    (hnet : a.network = "mainnet") :
    ((∀ S : SdkSigner C.Bundle, (∃ out, verifyAndSignPayment (C.withSigner S) J a = .ok out) →
        prefixFrom a.network = .ok addr.addressPrefix) ↔
      addr.addressPrefix = .mainnet ∨ ¬ WellFormed C J a) ∧
    ∀ other addr', C.addressTryFrom (trim other) = .ok addr' → addr.version = addr'.version →
      addr.payload = addr'.payload →
        verifyAndSignPayment C J { a with toAddress := other } = verifyAndSignPayment C J a := by
  have hmain : prefixFrom a.network = .ok addr.addressPrefix ↔ addr.addressPrefix = .mainnet := by
    rw [hnet]
    exact ⟨fun h => (Except.ok.inj h).symm,fun h => congrArg Except.ok h.symm⟩
  refine ⟨?_,fun other addr' h' hv hp => verifyAndSignPayment_ignores_network hblind haddr h' hv hp⟩
  simp only [hmain]
  rw [wellFormed_iff_signs hprints,or_comm,← imp_iff_not_or]
  exact exists_imp.symm

theorem parses_mainnet :
    moneyCrates.addressTryFrom (trim mainnetAddress) = .ok ⟨.mainnet,(9 : UInt8),recipient.val⟩ := by
  have h : parseAddress (trim mainnetAddress) = .ok ⟨.mainnet,9,recipient.val⟩ := by decide +kernel
  exact h

theorem parses_testnet :
    moneyCrates.addressTryFrom (trim testnetAddress) = .ok ⟨.testnet,(9 : UInt8),recipient.val⟩ := by
  have h : parseAddress (trim testnetAddress) = .ok ⟨.testnet,9,recipient.val⟩ := by decide +kernel
  exact h

/-- The same payment to the testnet address of the recipient is signed for mainnet. -/
theorem verifyAndSignPayment_testnet :
    ∃ addr, moneyCrates.addressTryFrom (trim testnetAddress) = .ok addr ∧ addr.addressPrefix = .testnet ∧
      (payment testnetAddress).network = "mainnet" ∧ prefixFrom "mainnet" = .ok .mainnet ∧
      verifyAndSignPayment moneyCrates json (payment testnetAddress) = .ok signed := by
  refine ⟨_,parses_testnet,rfl,rfl,rfl,?_⟩
  have h := verifyAndSignPayment_ignores_network (J := json) (a := payment mainnetAddress)
    recipientIgnoresPrefix parses_mainnet parses_testnet rfl rfl
  exact h.trans signs_mainnet

theorem payments_mainnet_recorded :
    prefixFrom (payment mainnetAddress).network = .ok .mainnet ∧
      verifyAndSignPayment moneyCrates json (payment testnetAddress) =
        verifyAndSignPayment moneyCrates json (payment mainnetAddress) := by
  obtain ⟨hiff,hblind⟩ := payments_mainnet_iff (a := payment mainnetAddress) prints recipientIgnoresPrefix
    parses_mainnet rfl
  exact ⟨hiff.mpr (.inl rfl) moneyCrates.sdkSigner ⟨signed,signs_mainnet⟩,
    hblind testnetAddress _ parses_testnet rfl rfl⟩

end ZkasSigner.Money
