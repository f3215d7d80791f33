import ZkasSigner.Foundation.Bytes
import ZkasSigner.Foundation.Hex
import ZkasSigner.Foundation.Outcome

/-! The `hex`, `sha2`, `serde_json` and `k256` crates as the chat code calls them. They
are not part of the repository, so each is a parameter; what their documentation says of
them is a separate predicate, assumed only where a proof needs it. -/
namespace ZkasSigner
open Foundation Foundation.Text

/-- The `hex` crate. An error is kept as the text it displays. -/
structure HexCrate where
  encode : List UInt8 → String
  decode : String → Except String (List UInt8)

/-- `encode` writes lower case digits, and `decode` accepts either case of what it writes. -/
structure HexCrate.Documented (hex : HexCrate) : Prop where
  encode_digits : ∀ bs, ∀ c ∈ (hex.encode bs).toList, c ∈ Hex.digits
  decode_ok : ∀ s bs, hex.decode s = .ok bs ↔ toAsciiLowercase s = hex.encode bs

/-- Every byte is written as two digits, and any even number of digits is read. -/
structure HexCrate.TwoDigits (hex : HexCrate) : Prop where
  encode_length : ∀ bs, (hex.encode bs).toList.length = 2*bs.length
  decode_digits : ∀ s, IsHex s → s.toList.length % 2 = 0 → ∃ bs, hex.decode s = .ok bs

/-- A number of a parsed JSON text: `serde_json` keeps integers apart from fractions. -/
inductive Number where
  | posInt (n : UInt64)
  | negInt (n : Int64)
  | float (bits : UInt64)
  deriving DecidableEq, Repr

inductive Value where
  | null
  | bool (b : Bool)
  | number (n : Number)
  | string (s : String)
  | array (items : List Value)
  | object (fields : List (String × Value))
  deriving Repr

namespace Value

def get (v : Value) (key : String) : Option Value :=
  match v with
  | .object fields => fields.lookup key
  | _ => none

def asStr : Value → Option String
  | .string s => some s
  | _ => none

/-- Only a non-negative integer that fits is a `u64`; `1.0` and `-1` are not. -/
def asU64 : Value → Option UInt64
  | .number (.posInt n) => some n
  | _ => none

def asArray : Value → Option (List Value)
  | .array items => some items
  | _ => none

theorem asStr_eq_some {v : Value} {s : String} : v.asStr = some s ↔ v = .string s := by
  cases v <;> simp [asStr]

theorem asU64_eq_some {v : Value} {n : UInt64} : v.asU64 = some n ↔ v = .number (.posInt n) := by
  unfold asU64
  split <;> simp_all

theorem asArray_eq_some {v : Value} {items : List Value} :
    v.asArray = some items ↔ v = .array items := by
  cases v <;> simp [asArray]

end Value

structure SerdeJson where
  fromStr : String → Except String Value
  toString : Value → String

/-- Parsing what was printed for a value gives the value. -/
def SerdeJson.RoundTrips (serde : SerdeJson) (v : Value) : Prop :=
  serde.fromStr (serde.toString v) = .ok v

/-- The Schnorr half of `k256`. Parsing a verifying key or a signature may panic, so each is an `Outcome`. -/
structure Schnorr where
  SigningKey : Type
  VerifyingKey : Type
  Signature : Type
  signingKeyFromBytes : List UInt8 → Except String SigningKey
  verifyingKey : SigningKey → VerifyingKey
  verifyingKeyToBytes : VerifyingKey → Bytes 32
  verifyingKeyFromBytes : List UInt8 → Outcome VerifyingKey
  signPrehash : SigningKey → Bytes 32 → Except String Signature
  signatureToBytes : Signature → Bytes 64
  signatureTryFrom : List UInt8 → Outcome Signature
  verifyPrehash : VerifyingKey → Bytes 32 → Signature → Bool

/-- `VerifyingKey::from_bytes` fills a 32-byte array from its slice and panics on any other length. -/
structure Schnorr.ParsesKeys (k : Schnorr) : Prop where
  panics_iff : ∀ bs, (k.verifyingKeyFromBytes bs).Panics ↔ bs.length ≠ 32
  finishes : ∀ bs, k.verifyingKeyFromBytes bs ≠ .error .unfinished

/-- `Signature::try_from` splits its slice behind the first 32 bytes before it looks at either part, and panics on
a slice that ends before. -/
structure Schnorr.ParsesSignatures (k : Schnorr) : Prop where
  panics_iff : ∀ bs, (k.signatureTryFrom bs).Panics ↔ bs.length < 32
  finishes : ∀ bs, k.signatureTryFrom bs ≠ .error .unfinished

/-- A signature verifies under the key's own x-only public key, after both went through bytes. -/
def Schnorr.SignaturesVerify (k : Schnorr) : Prop :=
  ∀ sk m sig, k.signPrehash sk m = .ok sig →
    ∃ vk sig', k.verifyingKeyFromBytes (k.verifyingKeyToBytes (k.verifyingKey sk)).val = .ok vk ∧
      k.signatureTryFrom (k.signatureToBytes sig).val = .ok sig' ∧ k.verifyPrehash vk m sig' = true

/-- Everything outside the repository that signing and verifying an event runs on.
`debugBuild` is the profile: debug assertions and overflow checks are on in it. -/
structure EventCrates where
  hex : HexCrate
  sha256 : List UInt8 → Bytes 32
  serde : SerdeJson
  schnorr : Schnorr
  debugBuild : Bool

namespace HexCrate.Documented
variable {hex : HexCrate} (h : hex.Documented)
include h

theorem toAsciiLowercase_encode (bs : List UInt8) : toAsciiLowercase (hex.encode bs) = hex.encode bs := by
  rw [← String.toList_inj,toList_toAsciiLowercase]
  calc (hex.encode bs).toList.map Char.toLower = (hex.encode bs).toList.map id :=
        List.map_congr_left fun c hc => Hex.digits_toLower c (h.encode_digits bs c hc)
    _ = (hex.encode bs).toList := List.map_id _

@[simp] theorem decode_encode (bs : List UInt8) : hex.decode (hex.encode bs) = .ok bs :=
  (h.decode_ok _ _).mpr (h.toAsciiLowercase_encode bs)

theorem encode_inj {bs cs : List UInt8} (he : hex.encode bs = hex.encode cs) : bs = cs := by
  have hd := h.decode_encode bs
  rw [he,h.decode_encode cs] at hd
  exact (Except.ok.inj hd).symm

theorem isHex_of_decode {s : String} {bs : List UInt8} (hd : hex.decode s = .ok bs) : IsHex s := by
  refine List.all_eq_true.mpr fun c hc => Hex.isAsciiHexdigit_of_toLower_mem ?_
  have he : (toAsciiLowercase s).toList = (hex.encode bs).toList := by rw [(h.decode_ok s bs).mp hd]
  rw [toList_toAsciiLowercase] at he
  exact h.encode_digits bs _ (he ▸ List.mem_map_of_mem hc)

theorem isHex_encode (bs : List UInt8) : IsHex (hex.encode bs) := h.isHex_of_decode (h.decode_encode bs)

theorem trim_encode (bs : List UInt8) : trim (hex.encode bs) = hex.encode bs :=
  trim_of_no_blank fun c hc => not_isWhitespace_of_isAsciiHexdigit (List.all_eq_true.mp (h.isHex_encode bs) c hc)

end HexCrate.Documented

/-- The crate's documented behaviour, as it can be computed. -/
def hexCrate : HexCrate where
  encode := Hex.encode
  decode s :=
    match Hex.decode s with
    | some bs => .ok bs
    | none => .error (if s.utf8ByteSize % 2 = 0 then "Invalid character" else "Odd number of digits")

theorem hexCrate_documented : hexCrate.Documented where
  encode_digits _ := Hex.encode_mem
  decode_ok s bs := by
    rw [← show Hex.decode s = some bs ↔ toAsciiLowercase s = hexCrate.encode bs from Hex.decode_eq_some]
    simp only [hexCrate]
    cases Hex.decode s <;> simp

theorem hexCrate_twoDigits : hexCrate.TwoDigits where
  encode_length bs := by
    change (Hex.encode bs).toList.length = _
    rw [Hex.encode,String.toList_ofList,Hex.encodeChars_length]
  decode_digits s hs heven := by
    obtain ⟨bs,hbs⟩ := Hex.decodeChars_total (List.all_eq_true.mp hs) heven
    exact ⟨bs,by simp [hexCrate,Hex.decode,hbs]⟩

/-! ### Recorded calls

Crates that return, on the data of three events by one author, what the real ones return
there, and refuse everything else. Every predicate above holds of them. -/
namespace Recorded

def bytes (n value : ℕ) : Bytes n := ⟨Bytes.toBigEndian n value,Bytes.toBigEndian_length n value⟩

def secret : Bytes 32 := bytes 32 0x7f7ff03d123792d6ac594bfa67bf6d0c0ab55b6b1fdb6249303fe861f1ccba9a

def author : Bytes 32 := bytes 32 0x17162c921dc4d2518f9a101db33695df1afb56ab82f5ff3e5da6eec3ca5cd917

def authorHex : String := "17162c921dc4d2518f9a101db33695df1afb56ab82f5ff3e5da6eec3ca5cd917"

def authorUpper : String := "17162C921DC4D2518F9A101DB33695DF1AFB56AB82F5FF3E5DA6EEC3CA5CD917"

def noteId : Bytes 32 := bytes 32 0xd297240109ac473902740faa5d425cd883b3f2bc46c8cb303198ec823d4e76ab

def greetingId : Bytes 32 := bytes 32 0xcef550197a781ace557c121097f75892c4b314d6e88bb367e1e36eea072ca401

def upperId : Bytes 32 := bytes 32 0x8b85c7967ce6cf3ca3f56896452d93b08d72c0df6f98cdea372c5be4a56cc262

def keylessId : Bytes 32 := bytes 32 0xb9a2e34e404849f4881c68e0f6af8c3d042e2ed7f1e430706b5c010c49b87e98

def digests : List (String × Bytes 32) :=
  [("[0,\"" ++ authorHex ++ "\",1700000000,1,[[\"t\",\"zkas\"]],\"a\x01\\\"b\"]",noteId),
    ("[0,\"" ++ authorHex ++ "\",1700000000,1,[],\"gm\"]",greetingId),
    ("[0,\"" ++ authorUpper ++ "\",1700000000,1,[[\"t\",\"zkas\"]],\"a\x01\\\"b\"]",upperId),
    ("[0,\"\",0,1,[],\"\"]",keylessId)]

def signatures : List (Bytes 32 × Bytes 64) :=
  [(noteId,bytes 64 0x84e1d734665675a29d4cc48cf21b6b1f42397fbc586aab42c376c1b98ef3c0b2baeaf7594e5bb7203a677ab861e070bc35ce3273c871a1220d43fe63994030d2),
    (greetingId,bytes 64 0x48d1c0bc57452a331dff0ccb3f881679c80315d102a3a8d45a1b5bb1e8a35248d49683150ee120243224caadfb02f28c06af9d72ca33fe51c3be359ecbc86764),
    (upperId,bytes 64 0xb0fc409c428afb7d5ef63a502c5ed8c87193968593216cd2b3735fe743e764ee249d5e8745419287275d86d6d626ac32aab9e60e7fd2ea1aa347a867b64ef6a1)]

def parseKey (bs : List UInt8) : Outcome (Bytes 32) :=
  if bs.length ≠ 32 then Outcome.abort "assertion failed: the slice has the length of the array"
  else if bs = author.val then .ok author else Outcome.fail "signature error"

def parseSignature (bs : List UInt8) : Outcome (Bytes 64) :=
  if bs.length < 32 then Outcome.abort "assertion failed: mid <= self.len()"
  else if h : bs.length = 64 then .ok ⟨bs,h⟩ else Outcome.fail "signature error"

def signId (m : Bytes 32) : Except String (Bytes 64) :=
  match signatures.lookup m with
  | some sig => .ok sig
  | none => .error "signature error"

def checkId (vk m : Bytes 32) (sig : Bytes 64) : Bool := vk = author && signatures.lookup m = some sig

def schnorr : Schnorr where
  SigningKey := Unit
  VerifyingKey := Bytes 32
  Signature := Bytes 64
  signingKeyFromBytes bs := if bs = secret.val then .ok () else .error "signature error"
  verifyingKey _ := author
  verifyingKeyToBytes vk := vk
  verifyingKeyFromBytes := parseKey
  signPrehash _ := signId
  signatureToBytes sig := sig
  signatureTryFrom := parseSignature
  verifyPrehash := checkId

def crates (texts : List (String × Value)) : EventCrates where
  hex := hexCrate
  sha256 bs := ((digests.find? fun d => asBytes d.1 = bs).map Prod.snd).getD (bytes 32 0)
  serde :=
    { fromStr := fun s => (texts.lookup s).elim (.error "expected value at line 1 column 1") .ok
      toString := fun v =>
        ((texts.find? fun t => (t.2.get "id").bind Value.asStr = (v.get "id").bind Value.asStr).map
          Prod.fst).getD "null" }
  schnorr := schnorr
  debugBuild := false

lemma parseKey_panics (bs : List UInt8) : (parseKey bs).Panics ↔ bs.length ≠ 32 := by
  unfold parseKey
  split_ifs with hl ha
  · simp [hl]
  · simp [ha,author.property]
  · simpa using hl

lemma parseKey_finishes (bs : List UInt8) : parseKey bs ≠ .error .unfinished := by
  unfold parseKey
  split_ifs <;> simp [Outcome.abort,Outcome.fail]

lemma parseSignature_panics (bs : List UInt8) : (parseSignature bs).Panics ↔ bs.length < 32 := by
  unfold parseSignature
  split_ifs with hshort hlen
  · simp [hshort]
  · simp [hlen]
  · simpa using hshort

lemma parseSignature_finishes (bs : List UInt8) : parseSignature bs ≠ .error .unfinished := by
  unfold parseSignature
  split_ifs <;> simp [Outcome.abort,Outcome.fail]

lemma parseSignature_val (sig : Bytes 64) : parseSignature sig.val = .ok sig := by
  have hlen := sig.property
  rw [parseSignature,if_neg (by omega),dif_pos hlen]

lemma signId_eq_ok {m : Bytes 32} {sig : Bytes 64} :
    signId m = .ok sig ↔ signatures.lookup m = some sig := by
  unfold signId
  cases signatures.lookup m <;> simp

theorem fromStr_of_mem {texts : List (String × Value)} (hn : (texts.map Prod.fst).Nodup) {s : String}
    {v : Value} (h : (s,v) ∈ texts) : (crates texts).serde.fromStr s = .ok v := by
  have hl : texts.lookup s = some v := by
    induction texts with
    | nil => cases h
    | cons t ts ih =>
      rw [List.map_cons,List.nodup_cons] at hn
      rcases List.mem_cons.mp h with rfl | h
      · simp
      · have hne : (s == t.1) = false := by
          rw [beq_eq_false_iff_ne]
          intro he
          have hm : s ∈ ts.map Prod.fst := List.mem_map_of_mem h
          exact hn.1 (he ▸ hm)
        rw [List.lookup_cons,hne]
        exact ih hn.2 h
  change (texts.lookup s).elim _ _ = _
  rw [hl]
  rfl

theorem parsesKeys : schnorr.ParsesKeys := ⟨parseKey_panics,parseKey_finishes⟩

theorem parsesSignatures : schnorr.ParsesSignatures := ⟨parseSignature_panics,parseSignature_finishes⟩

lemma checkId_of_signId {m : Bytes 32} {sig : Bytes 64} (h : signId m = .ok sig) :
    checkId author m sig = true := by
  simp [checkId,signId_eq_ok.mp h]

lemma parseKey_author : parseKey author.val = .ok author := by
  rw [parseKey,if_neg (not_not.mpr author.property),if_pos rfl]

theorem signaturesVerify : schnorr.SignaturesVerify := fun _ _ sig h =>
  ⟨author,sig,parseKey_author,parseSignature_val sig,checkId_of_signId h⟩

end Recorded
end ZkasSigner
