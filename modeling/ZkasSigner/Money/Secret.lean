import ZkasSigner.Crates.Shielded

/-! The secret of the money signer, and the small decoders all its entry points share. -/
namespace ZkasSigner.Money
open Foundation Foundation.Text Foundation.Outcome
variable (C : MoneyCrates)

def prefixFrom (network : String) : Outcome Prefix :=
  match toAsciiLowercase network with
  | "mainnet" => .ok .mainnet
  | "testnet" => .ok .testnet
  | "devnet" => .ok .devnet
  | "simnet" => .ok .simnet
  | other => fail ("unknown network: " ++ other)

/-- The coin type of the key path m/32'/coin'/account'. -/
def ZKAS_COIN_TYPE : UInt32 := 111111

/-- Phrase to spending key bytes, with an optional passphrase. -/
def secretFromPhrase (phrase passphrase : String) : Outcome (Bytes 32) := do
  let mnemonic ← mapErr ("that is not a valid recovery phrase: " ++ ·)
    (C.phrases.parseNormalized (C.phrases.cleaned phrase))
  let seed := C.phrases.toSeedNormalized mnemonic passphrase
  let sk ← mapErr ("could not derive a key from that phrase: " ++ ·)
    (C.fromZip32Seed seed ZKAS_COIN_TYPE AccountId.ZERO)
  return C.spendingKeyToBytes sk

/-- A recovery phrase or a raw seed, as the 32 bytes every derivation consumes. -/
def resolveSecret (secret : String) : Outcome (Bytes 32) := do
  let s := trim secret
  if isRawSeed s then
    let bytes ← mapErr ("seed is not hex: " ++ ·) (C.hex.decode s)
    okOr "seed must be exactly 32 bytes (64 hex chars)" (Bytes.tryFrom 32 bytes)
  else if s.isEmpty then fail "enter your recovery phrase"
  else secretFromPhrase C s ""

def parseSeed (seedHex : String) : Outcome (Bytes 32) := resolveSecret C seedHex

/-- Trimmed hexadecimal text for exactly `n` bytes. -/
def parseArray (n : ℕ) (hex : HexCrate) (notHex : String → String) (wrongLength hexStr : String) :
    Outcome (Bytes n) := do
  let bytes ← mapErr notHex (hex.decode (trim hexStr))
  okOr wrongLength (Bytes.tryFrom n bytes)

def parse32 (hex : HexCrate) (hexStr what : String) : Outcome (Bytes 32) :=
  parseArray 32 hex (fun e => what ++ " is not hex: " ++ e) (what ++ " must be exactly 32 bytes") hexStr

def parse43 (hex : HexCrate) (hexStr name : String) : Outcome (Bytes 43) :=
  parseArray 43 hex (fun _ => name ++ " is not valid hex") (name ++ " must be 43 bytes") hexStr

@[simp] theorem parseArray_eq_ok {n : ℕ} {hex : HexCrate} {notHex : String → String}
    {wrongLength hexStr : String} {b : Bytes n} :
    parseArray n hex notHex wrongLength hexStr = .ok b ↔ hex.decode (trim hexStr) = .ok b.val := by
  simp [parseArray,bind_eq_ok,Bytes.tryFrom_eq_some]

end ZkasSigner.Money
