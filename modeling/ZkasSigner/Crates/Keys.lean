import ZkasSigner.Crates.Codec
import ZkasSigner.Foundation.Bip32

/-! The `hmac`, `k256`, `bip39` and `bech32` crates as the identity code calls them. The
curve is the abstract group of the derivation standard, its scalars are residues. -/
namespace ZkasSigner
open Foundation Foundation.Text Foundation.Outcome

/-- `HmacSha512`: a key gives a mac, and a mac the hash of what it was updated with. -/
structure HmacCrate where
  newFromSlice : List UInt8 → Except String (List UInt8 → Bytes 64)

/-- HMAC takes a key of any length. -/
def HmacCrate.Computes (hmac : HmacCrate) (H : List UInt8 → List UInt8 → Bytes 64) : Prop :=
  ∀ key, hmac.newFromSlice key = .ok (H key)

abbrev Scalar (K : Bip32.Group) := Fin K.order

/-- `k256::NonZeroScalar`, which is also what a `SecretKey` is. -/
abbrev NonZeroScalar (K : Bip32.Group) := {s : Scalar K // s.val ≠ 0}

namespace Scalar
variable {K : Bip32.Group}

/-- `Scalar::from_repr_vartime`: big-endian bytes of a number below the order. -/
def fromReprVartime (bs : Bytes 32) : Option (Scalar K) :=
  if h : Bytes.ofBigEndian bs.val < K.order then some ⟨Bytes.ofBigEndian bs.val,h⟩ else none

def toBytes (s : Scalar K) : Bytes 32 := ⟨Bytes.toBigEndian 32 s.val,Bytes.toBigEndian_length _ _⟩

end Scalar

namespace NonZeroScalar
variable {K : Bip32.Group}

def new (s : Scalar K) : Option (NonZeroScalar K) := if h : s.val ≠ 0 then some ⟨s,h⟩ else none

def publicKey (s : NonZeroScalar K) : Bytes 33 := K.serP (K.point s.val.val)

end NonZeroScalar

/-- `bip39` and the lowering of letters it is fed with. `str::to_lowercase` follows tables of
the Unicode standard. -/
structure Phrases where
  toLowercase : String → String
  Mnemonic : Type
  parseNormalized : String → Except String Mnemonic
  toSeedNormalized : Mnemonic → String → Bytes 64

inductive Variant where
  | bech32
  | bech32m
  deriving DecidableEq, Repr

/-- The `bech32` crate: regrouping into 5-bit groups, and the text of such groups. -/
structure Bech32 where
  toBase32 : List UInt8 → List (Fin 32)
  encode : String → List (Fin 32) → Variant → Except String String

/-- Everything outside the repository that the chat identity is derived with. -/
structure IdentityCrates where
  hex : HexCrate
  hmac : HmacCrate
  curve : Bip32.Group
  phrases : Phrases
  bech32 : Bech32

/-- `phrase.split_whitespace().collect::<Vec<_>>().join(" ").to_lowercase()`. -/
def Phrases.cleaned (p : Phrases) (phrase : String) : String :=
  p.toLowercase (" ".intercalate (splitWhitespace phrase))

/-- 64 bytes of text, all of them hexadecimal digits: a raw seed, never a phrase. -/
def isRawSeed (s : String) : Bool := s.utf8ByteSize = 64 && s.toList.all isAsciiHexdigit

/-! ### Recorded calls

HMAC-SHA512 and the secp256k1 group on the accounts 0 and 1 of one legacy seed, and the
`bech32` crate as it can be computed. -/
namespace Recorded

def num (n value : ℕ) : List UInt8 := (bytes n value).val

/-- A legacy seed, and the 64 bytes it is expanded to. -/
def rawSeed : String := "000102030405060708090a0b0c0d0e0f101112131415161718191a1b1c1d1e1f"

def expandedSeed : Bytes 64 := bytes 64 0x2fb4af3556c2ac31a7a0b9758f4c41081c1bc339f025133ed79146d64dd442fc2620035079175f3f3daaa15dddd4503b5e2ff020ddb91cff1a0c866e0c3a5f8a

def macs : List (List UInt8 × List UInt8 × Bytes 64) :=
  [(asBytes "zkas-chat-identity-v1",num 32 0x000102030405060708090a0b0c0d0e0f101112131415161718191a1b1c1d1e1f,
      expandedSeed),
    (asBytes "Bitcoin seed",expandedSeed.val,
      bytes 64 0xd5cf94ae84b98e292738ee39c0990cf55db9dd72ca4a394008f8bfbe11c19369447aa3619e8f3ef1750f71fb1d8c414ddf968ef05e41a4cbaa0ab2e52fa17933),
    (num 32 0x447aa3619e8f3ef1750f71fb1d8c414ddf968ef05e41a4cbaa0ab2e52fa17933,num 37 0x00d5cf94ae84b98e292738ee39c0990cf55db9dd72ca4a394008f8bfbe11c193698000002c,
      bytes 64 0x2bb58479ca91742a5d8aba45e47f7325c87cc923eb3006fdf224ef823823777d4d8aabe9e7a266b879535e34db99ea42c5e4f29e02fa5ac3b03128232b3aaa29),
    (num 32 0x4d8aabe9e7a266b879535e34db99ea42c5e4f29e02fa5ac3b03128232b3aaa29,num 37 0x00018519284f4b025384c3a87fa518801c6b87c9b00631a0023b4b50b379aec9a5800004d5,
      bytes 64 0x87d1544b214df4ff14a8eb27001bf2fa00b8f697427cfac9a0ffbdef8460ad342e0739673ada4830236286faae6b051161e96a49bff51108825fca2d11955377),
    (num 32 0x2e0739673ada4830236286faae6b051161e96a49bff51108825fca2d11955377,num 37 0x0089566d737098f752996c93a6a53473166c40c04748ae9acbdc4b0ea2fe0f76d980000000,
      bytes 64 0xfe8a4efcfffad3a70f775104029be6f94b96642c2111d2a5006e2528659922709d3f806119e8e2b2b0ef0047749396a51174a0217adf75918f2c3926fd9a0213),
    (num 32 0x9d3f806119e8e2b2b0ef0047749396a51174a0217adf75918f2c3926fd9a0213,num 37 0x02c9b709ef6f6d84210640262e4b13028b7f663c6cc935e4f6b17958824c07240e00000000,
      bytes 64 0xc1500d032782693802ea6fbc68d3c27cf03fb0c9a505a5f91c68e7ce49b52ab35b76c1f8be88999a2f561b0e8b6bcb06ea555bb208267ceee7eec7053b05b63b),
    (num 32 0x5b76c1f8be88999a2f561b0e8b6bcb06ea555bb208267ceee7eec7053b05b63b,num 37 0x034f2feca235885732b49d8590fcba8f378ac3d5cc79add97ad295c8ce151e6f9900000000,
      bytes 64 0x6b2f7945bada9f68ac9f0a2b247073f44c537bc315763f639c52ccad045190bd3dbdeca29db807e21bf869a39f1a1a131294606af2d6e8b16f9e84baedaeb828),
    (num 32 0x2e0739673ada4830236286faae6b051161e96a49bff51108825fca2d11955377,num 37 0x0089566d737098f752996c93a6a53473166c40c04748ae9acbdc4b0ea2fe0f76d980000001,
      bytes 64 0x2fdd32d7f9ae2ec118696b9722bfe2ef4fc1da7e8bec799ae9f269b5ab8d02cd3b557e09c6663ba2049b9a7b8101f11ffff66088e713482a84f0880826e22392),
    (num 32 0x3b557e09c6663ba2049b9a7b8101f11ffff66088e713482a84f0880826e22392,num 37 0x033f922c3defa70eb389444512bdc666cbe54e04b09fc1e1734257303de0e12b8700000000,
      bytes 64 0x182a99b9acce39101932c7c8cfd091d37c9092d5718417875d98dbbef4adab53d7d18b146b4ae46e519925c41c6e1f132c9ff8f58a3cc760bcb26739f5594f8c),
    (num 32 0xd7d18b146b4ae46e519925c41c6e1f132c9ff8f58a3cc760bcb26739f5594f8c,num 37 0x03e5bb559458e7ecb215b27f79d9b6f0e653e776779f211223d05864be4976c0ee00000000,
      bytes 64 0xf92091ae2a8e7073bfb2da692644634c32163de777f3a0d7854a7a64836ebbc28cae45817684b344089936c2481f008996101453690203eeb8681bdeca55f32c)]

def mac (key message : List UInt8) : Bytes 64 :=
  match macs.find? fun call => call.1 = key && call.2.1 = message with
  | some call => call.2.2
  | none => bytes 64 0

def points : List (ℕ × Bytes 33) :=
  [(0x87e0bc707093caf9a8e3e4aaa7d05a10fd28478cba77cd351ce6d53e93725808,bytes 33 0x02c9b709ef6f6d84210640262e4b13028b7f663c6cc935e4f6b17958824c07240e),
    (0x4930c97398163431abce546710a41c8f32b91b6fb034d2f2797d5e800cf1417a,bytes 33 0x034f2feca235885732b49d8590fcba8f378ac3d5cc79add97ad295c8ce151e6f99),
    (0xb46042b952f0d39a586d5e92351490837f0c9732c5ab125615d02b2d1142d237,bytes 33 0x0288a57245d3036faef567a7ebc54f0f860926b5b6d21e54dbc24be01dd5b71240),
    (0xb933a04b6a472613b1d5ff3dc7f45605bc029ac5d49b1466c63d7858a99c79a6,bytes 33 0x033f922c3defa70eb389444512bdc666cbe54e04b09fc1e1734257303de0e12b87),
    (0xd15e3a0517155f23cb08c70697c4e7d938932d9b461f2bee23d654179e4a24f9,bytes 33 0x03e5bb559458e7ecb215b27f79d9b6f0e653e776779f211223d05864be4976c0ee),
    (0xca7ecbb341a3cf978abba16fbe094b26affa8e9c0eca2c89e94e6fef51829f7a,bytes 33 0x03d28fc864f70d9938453e5b64f181956698d6569c6ff838e706951cd5f5e7a14a)]

def curve : Bip32.Group where
  order := 0xFFFFFFFFFFFFFFFFFFFFFFFFFFFFFFFEBAAEDCE6AF48A03BBFD25E8CD0364141
  Point := Bytes 33
  point k := (points.lookup k).getD (bytes 33 0)
  serP p := p

/-- Bytes as 5-bit groups, the last one filled up with zeros. -/
def toBase32 (bs : List UInt8) : List (Fin 32) :=
  let count := (8*bs.length+4)/5
  let value := Bytes.ofBigEndian bs*2^(5*count-8*bs.length)
  (List.range count).reverse.map fun j => Fin.ofNat 32 (value/32^j)

def polymodStep (c v : ℕ) : ℕ :=
  let mixed := ((c &&& 0x1ffffff) <<< 5) ^^^ v
  [0x3b6a57b2,0x26508e6d,0x1ea119fa,0x3d4233dd,0x2a1462b3].zipIdx.foldl
    (fun acc g => if (c >>> 25).testBit g.2 then acc ^^^ g.1 else acc) mixed

def checksum (hrp : String) (data : List (Fin 32)) (variant : Variant) : List (Fin 32) :=
  let front := hrp.toList.map (fun c => c.toNat/32) ++ [0] ++ hrp.toList.map (fun c => c.toNat % 32)
  let target := match variant with | .bech32 => 1 | .bech32m => 0x2bc830a3
  let sum := (front ++ data.map Fin.val ++ List.replicate 6 0).foldl polymodStep 1 ^^^ target
  (List.range 6).reverse.map fun j => Fin.ofNat 32 (sum/32^j)

def charset : List Char := "qpzry9x8gf2tvdw0s3jn54khce6mua7l".toList

def bech32 : Bech32 where
  toBase32 := toBase32
  encode hrp data variant :=
    .ok (hrp ++ "1" ++ String.ofList ((data ++ checksum hrp data variant).map fun d => charset.getD d.val 'q'))

/-- The code is only fed a legacy seed here: no phrase is among the recorded ones. -/
def phrases : Phrases where
  toLowercase s := s
  Mnemonic := Empty
  parseNormalized _ := .error "mnemonic has an invalid word count"
  toSeedNormalized m _ := nomatch m

def identityCrates : IdentityCrates := ⟨hexCrate,⟨fun key => .ok (mac key)⟩,curve,phrases,bech32⟩

theorem mac_computes : identityCrates.hmac.Computes mac := fun _ => rfl

end Recorded
end ZkasSigner
