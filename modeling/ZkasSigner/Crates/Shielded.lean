import ZkasSigner.Crates.Keys

/-! The crates of the shielded pool as the money signer calls them: addresses, spending keys,
bundles, and the shared SDK signer that releases spend authorisations. -/
namespace ZkasSigner
open Foundation

inductive Prefix where
  | mainnet
  | testnet
  | devnet
  | simnet
  deriving DecidableEq, Repr

/-- `kaspa_addresses::Address`: what an address text is parsed to. -/
structure Address (Version : Type) where
  addressPrefix : Prefix
  version : Version
  payload : List UInt8
  deriving DecidableEq

/-- `zip32::AccountId`: an index that can be hardened. -/
abbrev AccountId := {a : UInt32 // a.toNat < 2^31}

def AccountId.ZERO : AccountId := ⟨0,by decide⟩

structure ActionDisclosure where
  spendValue : UInt64
  outValue : UInt64
  outRecipient : Bytes 43
  outRseed : Bytes 32
  rcv : Bytes 32
  deriving DecidableEq

/-- One requested spend authorisation. An index is a `usize`. -/
structure SpendAuthRequest where
  actionIndex : ℕ
  alpha : Bytes 32
  deriving DecidableEq

structure ClaimedIntent where
  recipient : Bytes 43
  amount : UInt64
  fee : UInt64
  deriving DecidableEq

structure PaymentIntent where
  recipient : Bytes 43
  amount : UInt64
  maxFee : UInt64
  deriving DecidableEq

structure PreparedPayment (Bundle : Type) where
  version : ℕ
  networkDomain : Bytes 32
  txContext : List UInt8
  bundle : Bundle
  disclosure : List ActionDisclosure
  spendAuth : List SpendAuthRequest
  claimed : ClaimedIntent

structure SpendAuthSignature where
  actionIndex : ℕ
  signature : List UInt8
  deriving DecidableEq

/-- Everything outside the repository that the money signer runs on. -/
structure MoneyCrates where
  hex : HexCrate
  phrases : Phrases
  SpendingKey : Type
  fromZip32Seed : Bytes 64 → UInt32 → AccountId → Except String SpendingKey
  spendingKeyToBytes : SpendingKey → Bytes 32
  Version : Type
  addressTryFrom : String → Except String (Address Version)
  orchardRecipientBytes : Address Version → Option (Bytes 43)
  Bundle : Type
  bundleFromBytes : List UInt8 → Except String Bundle
  valueBalance : Bundle → Int64
  SoftwareSigner : Type
  newSigner : Bytes 32 → Except String SoftwareSigner
  preparedVersion : ℕ
  verifyAndSign : SoftwareSigner → Bytes 32 → PaymentIntent → PreparedPayment Bundle →
    Except String (List SpendAuthSignature)

/-- The signature of a message: whose address it is for, and the two parts it is sent as. -/
structure MessageSignature where
  address : Bytes 43
  fvk : Bytes 96
  sig : Bytes 64
  deriving DecidableEq

/-- What deriving addresses and signing messages runs on besides. The randomness of a signature
is the state of a generator. -/
structure WalletCrates extends MoneyCrates where
  shieldedOrchard : Version
  prefixToString : Prefix → String
  addressToString : Address Version → String
  addressBytesFromSeed : Bytes 32 → Option (Bytes 43)
  fvkBytesFromSeed : Bytes 32 → Option (Bytes 96)
  Rng : Type
  signMessage : Bytes 32 → List UInt8 → List UInt8 → Rng → Option MessageSignature
  verifyMessage : Bytes 43 → List UInt8 → List UInt8 → Bytes 96 → Bytes 64 → Except String Unit

/-- `orchard_recipient_bytes` looks only at the version and the payload of an address. -/
def MoneyCrates.RecipientIgnoresPrefix (C : MoneyCrates) : Prop :=
  ∀ a b : Address C.Version, a.version = b.version → a.payload = b.payload →
    C.orchardRecipientBytes a = C.orchardRecipientBytes b

/-- A behaviour of the SDK signer: how it is built from a seed, and what it releases. -/
structure SdkSigner (Bundle : Type) where
  Signer : Type
  newSigner : Bytes 32 → Except String Signer
  verifyAndSign : Signer → Bytes 32 → PaymentIntent → PreparedPayment Bundle →
    Except String (List SpendAuthSignature)

/-- A signer that checks nothing. -/
def SdkSigner.lenient (Bundle : Type) : SdkSigner Bundle := ⟨Unit,fun _ => .ok (),fun _ _ _ _ => .ok []⟩

def MoneyCrates.sdkSigner (C : MoneyCrates) : SdkSigner C.Bundle :=
  ⟨C.SoftwareSigner,C.newSigner,C.verifyAndSign⟩

/-- The same crates behind another signer. -/
def MoneyCrates.withSigner (C : MoneyCrates) (S : SdkSigner C.Bundle) : MoneyCrates :=
  { C with SoftwareSigner := S.Signer, newSigner := S.newSigner, verifyAndSign := S.verifyAndSign }

/-- The same crates with another verifier of signatures. -/
def WalletCrates.withVerifier (C : WalletCrates)
    (V : Bytes 43 → List UInt8 → List UInt8 → Bytes 96 → Bytes 64 → Except String Unit) : WalletCrates :=
  { C with verifyMessage := V }

/-! ### Recorded calls

One shielded recipient under its mainnet and its testnet address. Bundles and the signer are
stand-ins: a bundle is its value balance, and the signer checks the claims and the fee ceiling. -/
namespace Recorded

def mainnetAddress : String :=
  "zkas:p8a4neush78c56rcqraed3esy280ar2xatee3zucz39hyyxgjz80ph6mfj0430v4r3ek6qgj8dkk0ll"

def testnetAddress : String :=
  "zkastest:p8a4neush78c56rcqraed3esy280ar2xatee3zucz39hyyxgjz80ph6mfj0430v4r3ek6qgl76eqex6"

def recipient : Bytes 43 :=
  bytes 43 0xfb59e790bf8f8a687800fb96c730228efe8d46eaf3988b98144b7210c8908ef0df5b4c9f58bd951c736d01

def addresses : List (String × Address UInt8) :=
  [(mainnetAddress,⟨.mainnet,9,recipient.val⟩),(testnetAddress,⟨.testnet,9,recipient.val⟩)]

def parseAddress (s : String) : Except String (Address UInt8) :=
  match addresses.lookup s with
  | some addr => .ok addr
  | none => .error "the address has an invalid checksum"

def recipientBytes (addr : Address UInt8) : Option (Bytes 43) :=
  if addr.version = 9 then Bytes.tryFrom 43 addr.payload else none

def moneyCrates : MoneyCrates where
  hex := hexCrate
  phrases := phrases
  SpendingKey := Bytes 32
  fromZip32Seed _ _ _ := .error "InvalidSeed"
  spendingKeyToBytes sk := sk
  Version := UInt8
  addressTryFrom := parseAddress
  orchardRecipientBytes := recipientBytes
  Bundle := Int64
  bundleFromBytes bs := if bs.length = 8 then .ok (Int64.ofNat (Bytes.ofBigEndian bs)) else .error "Truncated"
  valueBalance v := v
  SoftwareSigner := Bytes 32
  newSigner seed := .ok seed
  preparedVersion := 1
  verifyAndSign _ _ intent prepared :=
    if prepared.claimed.recipient = intent.recipient ∧ prepared.claimed.amount = intent.amount ∧
      0 < prepared.claimed.fee ∧ prepared.claimed.fee ≤ intent.maxFee then
      .ok (prepared.spendAuth.map fun request => ⟨request.actionIndex,request.alpha.val ++ request.alpha.val⟩)
    else .error "fee is not within the ceiling"

lemma recipientBytes_congr {a b : Address UInt8} (hv : a.version = b.version) (hp : a.payload = b.payload) :
    recipientBytes a = recipientBytes b := by
  rw [recipientBytes,recipientBytes,hv,hp]

theorem recipientIgnoresPrefix : moneyCrates.RecipientIgnoresPrefix := fun _ _ => recipientBytes_congr

end Recorded
end ZkasSigner
