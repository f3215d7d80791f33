import ZkasSigner.Chat.Identity
import ZkasSigner.Crates.Bech32

/-! Keys as they are shared: `npub1…` and `nsec1…`. A key has one spelling of each kind, and
letter case and the white space around it are all that may differ. -/
namespace ZkasSigner.Chat
open Foundation Foundation.Text Foundation.Outcome

/-- Everything outside the repository that the chat signer runs on. -/
structure ChatCrates extends EventCrates where
  hmac : HmacCrate
  curve : Bip32.Group
  phrases : Phrases
  bech32 : Bech32Crate
  parseTags : String → Except String (List (List String))

def ChatCrates.toIdentityCrates (C : ChatCrates) : IdentityCrates :=
  ⟨C.hex,C.hmac,C.curve,C.phrases,C.bech32.toBech32⟩

/-- 32 raw bytes of a key, after its prefix and the variant of its checksum were checked. -/
def decodeNip19 (B : Bech32Crate) (expectHrp s : String) : Outcome (Bytes 32) := do
  let (hrp,data,variant) ← mapErr ("not bech32: " ++ ·) (B.decode (trim s))
  if hrp ≠ expectHrp then fail ("expected a " ++ expectHrp ++ "… string, got " ++ hrp ++ "…")
  else if variant ≠ .bech32 then fail "wrong bech32 variant (NIP-19 uses bech32, not bech32m)"
  else
    let bytes ← mapErr ("bad bech32 payload: " ++ ·) (B.fromBase32 data)
    okOr "must decode to exactly 32 bytes" (Bytes.tryFrom 32 bytes)

variable (C : ChatCrates)

def npubToHex (npub : String) : Outcome String := do
  let b ← decodeNip19 C.bech32 "npub" npub
  return C.hex.encode b.val

/-- For importing an identity: what is no secret key fails here rather than at first use. -/
def nsecToHex (nsec : String) : Outcome String := do
  let b ← decodeNip19 C.bech32 "nsec" nsec
  let _ ← mapErr ("not a valid secret key: " ++ ·) (C.schnorr.signingKeyFromBytes b.val)
  return C.hex.encode b.val

def hexToNpub (pubkeyHex : String) : Outcome String := do
  let bytes ← mapErr ("not hex: " ++ ·) (C.hex.decode (trim pubkeyHex))
  let b ← okOr "must be 32 bytes" (Bytes.tryFrom 32 bytes)
  mapErr ("encode failed: " ++ ·) (C.bech32.encode "npub" (C.bech32.toBase32 b.val) .bech32)

variable {C} {B : Bech32Crate}

theorem decodeNip19_eq_ok {hrp s : String} {k : Bytes 32} : decodeNip19 B hrp s = .ok k ↔
    ∃ data, B.decode (trim s) = .ok (hrp,data,.bech32) ∧ B.fromBase32 data = .ok k.val := by
  simp only [decodeNip19,bind_eq_ok,mapErr_eq_ok]
  constructor
  · intro h
    obtain ⟨⟨hrp',data,variant⟩,hdecode,h⟩ := h
    simp only at h
    split_ifs at h with hne hv
    · cases h
    · cases h
    · rw [not_not] at hne hv
      obtain ⟨bytes,hbytes,h⟩ := bind_eq_ok.mp h
      rw [okOr_eq_ok,Bytes.tryFrom_eq_some] at h
      rw [hne,hv] at hdecode
      exact ⟨data,hdecode,by rw [← h]; exact mapErr_eq_ok.mp hbytes⟩
  · intro h
    obtain ⟨data,hdecode,hbytes⟩ := h
    refine ⟨_,hdecode,?_⟩
    simp only [ne_eq,not_true_eq_false,if_false,hbytes,mapErr,ok_bind,okOr_eq_ok,Bytes.tryFrom_eq_some]

section
variable (hB : B.Documented)
include hB

/-- Accepted is what spells the key, up to letter case and the white space around it. -/
theorem decodeNip19_spells {hrp s : String} {k : Bytes 32} (hhrp : NoUppercase hrp) : decodeNip19 B hrp s = .ok k ↔
    SingleCase (trim s) ∧ B.encode hrp (B.toBase32 k.val) .bech32 = .ok (toAsciiLowercase (trim s)) := by
  rw [decodeNip19_eq_ok]
  constructor
  · intro h
    obtain ⟨data,hdecode,hbytes⟩ := h
    obtain ⟨hcase,_,hencode⟩ := (hB.decode_ok _ _ _ _).mp hdecode
    rw [((hB.fromBase32_ok _ _).mp hbytes).groups_unique (hB.regroups k.val)] at hencode
    exact ⟨hcase,hencode⟩
  · intro h
    obtain ⟨hcase,hencode⟩ := h
    exact ⟨_,(hB.decode_ok _ _ _ _).mpr ⟨hcase,hhrp,hencode⟩,(hB.fromBase32_ok _ _).mpr (hB.regroups k.val)⟩

/-- What is accepted has exactly 52 symbols in front of its checksum, and four zeros in the last. -/
theorem decodeNip19_exact {hrp s : String} {k : Bytes 32} (h : decodeNip19 B hrp s = .ok k) :
    ∃ data, B.decode (trim s) = .ok (hrp,data,.bech32) ∧ data.length = 52 ∧
      Base32.groupBits data = Base32.byteBits k.val ++ List.replicate 4 false := by
  obtain ⟨data,hdecode,hbytes⟩ := decodeNip19_eq_ok.mp h
  have hregroup := (hB.fromBase32_ok _ _).mp hbytes
  have hlen := hregroup.length
  rw [k.property] at hlen
  obtain ⟨n,hn,hbits⟩ := hregroup
  have hcount := congrArg List.length hbits
  rw [Base32.groupBits_length,List.length_append,Base32.byteBits_length,List.length_replicate,k.property] at hcount
  have hfour : n = 4 := by omega
  rw [hfour] at hbits
  exact ⟨data,hdecode,by omega,hbits⟩

/-- The spelling of a key is read back as the key. -/
theorem decodeNip19_encode {hrp : String} (hhrp : hrp = "npub" ∨ hrp = "nsec") (k : Bytes 32) :
    ∃ s, B.encode hrp (B.toBase32 k.val) .bech32 = .ok s ∧ trim s = s ∧ decodeNip19 B hrp s = .ok k := by
  obtain ⟨s,hs,hletters⟩ := hB.encode_letters hrp hhrp (B.toBase32 k.val) .bech32
  have hplain := fun c hc => plain_of_lower_or_digit (hletters c hc)
  have htrim : trim s = s := trim_of_no_blank fun c hc => (hplain c hc).2
  have hlow : NoUppercase s := List.all_eq_true.mpr fun c hc => by simp [(hplain c hc).1]
  have hcase : SingleCase s := by
    rw [SingleCase,Bool.and_eq_false_iff,List.any_eq_false]
    exact .inl fun c hc => by simp [(hplain c hc).1]
  have hstatic : NoUppercase hrp := by rcases hhrp with rfl | rfl <;> decide
  refine ⟨s,hs,htrim,(decodeNip19_spells hB hstatic).mpr ?_⟩
  rw [htrim,toAsciiLowercase_eq_self.mpr hlow]
  exact ⟨hcase,hs⟩

end

section
variable (hhex : C.hex.Documented) (hB : C.bech32.Documented)
include hhex

theorem hexToNpub_encode (k : Bytes 32) : hexToNpub C (C.hex.encode k.val) =
    mapErr ("encode failed: " ++ ·) (C.bech32.encode "npub" (C.bech32.toBase32 k.val) .bech32) := by
  have hk : Bytes.tryFrom 32 k.val = some k := Bytes.tryFrom_eq_some.mpr rfl
  simp only [hexToNpub,hhex.trim_encode,hhex.decode_encode,mapErr,ok_bind,hk,okOr]

omit hhex in
theorem npubToHex_eq_ok {s h : String} :
    npubToHex C s = .ok h ↔ ∃ k, decodeNip19 C.bech32 "npub" s = .ok k ∧ C.hex.encode k.val = h := by
  simp only [npubToHex,bind_eq_ok,pure_eq_ok,Except.ok.injEq]

omit hhex in
theorem nsecToHex_eq_ok {s h : String} : nsecToHex C s = .ok h ↔ ∃ k, decodeNip19 C.bech32 "nsec" s = .ok k ∧
    (∃ key, C.schnorr.signingKeyFromBytes k.val = .ok key) ∧ C.hex.encode k.val = h := by
  simp only [nsecToHex,bind_eq_ok,mapErr_eq_ok,pure_eq_ok,Except.ok.injEq]
  constructor
  · intro h
    obtain ⟨k,hk,key,hkey,h⟩ := h
    exact ⟨k,hk,⟨key,hkey⟩,h⟩
  · intro h
    obtain ⟨k,hk,⟨key,hkey⟩,h⟩ := h
    exact ⟨k,hk,key,hkey,h⟩

include hB

/-- A key has one spelling as `npub` and one as `nsec`: it reads back as the key, whatever else
is read as the key is that spelling up to letter case and surrounding white space, and nothing is
read as both. Symbols too many or too few, padding that is not zero and the other checksum are refused. -/
theorem nip19_one_spelling :
    (∀ k : Bytes 32, ∃ s, hexToNpub C (C.hex.encode k.val) = .ok s ∧ npubToHex C s = .ok (C.hex.encode k.val)) ∧
    (∀ s h, npubToHex C s = .ok h → hexToNpub C h = .ok (toAsciiLowercase (trim s))) ∧
    (∀ s t h, npubToHex C s = .ok h → npubToHex C t = .ok h → SameLetters (trim s) (trim t)) ∧
    (∀ k : Bytes 32, ∃ s, C.bech32.encode "nsec" (C.bech32.toBase32 k.val) .bech32 = .ok s ∧
      decodeNip19 C.bech32 "nsec" s = .ok k) ∧
    (∀ s k, decodeNip19 C.bech32 "nsec" s = .ok k →
      C.bech32.encode "nsec" (C.bech32.toBase32 k.val) .bech32 = .ok (toAsciiLowercase (trim s))) ∧
    (∀ s t k, decodeNip19 C.bech32 "nsec" s = .ok k → decodeNip19 C.bech32 "nsec" t = .ok k →
      SameLetters (trim s) (trim t)) ∧
    (∀ s h h', npubToHex C s = .ok h → nsecToHex C s ≠ .ok h') ∧
    ∀ hrp s k, decodeNip19 C.bech32 hrp s = .ok k → ∃ data, C.bech32.decode (trim s) = .ok (hrp,data,.bech32) ∧
      data.length = 52 ∧ Base32.groupBits data = Base32.byteBits k.val ++ List.replicate 4 false := by
  have hsame : ∀ {hrp s t k}, NoUppercase hrp → decodeNip19 C.bech32 hrp s = .ok k →
      decodeNip19 C.bech32 hrp t = .ok k → SameLetters (trim s) (trim t) := by
    intro hrp s t k hhrp hs ht
    have hspell := ((decodeNip19_spells hB hhrp).mp hs).2
    rw [((decodeNip19_spells hB hhrp).mp ht).2] at hspell
    exact (Except.ok.inj hspell).symm
  refine ⟨fun k => ?_,fun s h hs => ?_,fun s t h hs ht => ?_,fun k => ?_,fun s k hs => ?_,
    fun s t k hs ht => hsame (by decide) hs ht,fun s h h' hs hs' => ?_,fun hrp s k h => decodeNip19_exact hB h⟩
  · obtain ⟨s,hencode,_,hdecode⟩ := decodeNip19_encode hB (.inl rfl) k
    exact ⟨s,by rw [hexToNpub_encode hhex,hencode]; rfl,npubToHex_eq_ok.mpr ⟨k,hdecode,rfl⟩⟩
  · obtain ⟨k,hk,rfl⟩ := npubToHex_eq_ok.mp hs
    rw [hexToNpub_encode hhex,((decodeNip19_spells hB (by decide)).mp hk).2]
    rfl
  · obtain ⟨k,hk,rfl⟩ := npubToHex_eq_ok.mp hs
    obtain ⟨l,hl,he⟩ := npubToHex_eq_ok.mp ht
    rw [Subtype.ext (hhex.encode_inj he)] at hl
    exact hsame (by decide) hk hl
  · obtain ⟨s,hencode,_,hdecode⟩ := decodeNip19_encode hB (.inr rfl) k
    exact ⟨s,hencode,hdecode⟩
  · exact ((decodeNip19_spells hB (by decide)).mp hs).2
  · obtain ⟨k,hk,_⟩ := npubToHex_eq_ok.mp hs
    obtain ⟨l,hl,_⟩ := nsecToHex_eq_ok.mp hs'
    obtain ⟨_,hpub,_⟩ := decodeNip19_eq_ok.mp hk
    obtain ⟨_,hsec,_⟩ := decodeNip19_eq_ok.mp hl
    rw [hpub] at hsec
    exact absurd (congrArg Prod.fst (Except.ok.inj hsec)) (show ¬ "npub" = "nsec" by decide)

end

/-! ### Recorded calls

The chat signer on account 1 of the recorded seed, whose point is odd, and on one note signed by it. -/
namespace Shared
open ZkasSigner.Recorded

/-- The other point with the same x coordinate. -/
def flip (p : Bytes 33) : Bytes 33 :=
  ⟨(p.val.take 1).map (· ^^^ 1) ++ p.val.drop 1,by simp [p.property]⟩

/-- The recorded points and their negatives. -/
def signedPoint (k : ℕ) : Bytes 33 :=
  match points.lookup k with
  | some p => p
  | none => ((points.lookup (curve.order-k)).map flip).getD (bytes 33 0)

def signedCurve : Bip32.Group := { curve with Point := Bytes 33, point := signedPoint, serP := id }

def sharedPub : String := "d28fc864f70d9938453e5b64f181956698d6569c6ff838e706951cd5f5e7a14a"

def sharedId : Bytes 32 := bytes 32 0x18d8629b98c9d0392496e1e46e59ab07c1f15ec02a18f8fca96412cb4260453f

def sharedSig : Bytes 64 := bytes 64 0x0e2ee2847e8834c52e2fd4884e1bd95521150b7d8357b5434d20dc08fa8059f62192db7bc23feaeb86299c2e0e8fa286806444213e91f55c7c97f274e540c45e

def sharedText : String := "[0,\"" ++ sharedPub ++ "\",1700000000,1,[],\"gm\"]"

def sharedJson : String :=
  "\x7b\"content\":\"gm\",\"created_at\":1700000000,\"id\":\"" ++ hexCrate.encode sharedId.val ++
    "\",\"kind\":1,\"pubkey\":\"" ++ sharedPub ++ "\",\"sig\":\"" ++ hexCrate.encode sharedSig.val ++
    "\",\"tags\":[]\x7d"

/-- A signing key is the scalar it keeps, negated when its point is odd. -/
def keepEven (bs : List UInt8) : Except String ℕ :=
  let v := Bytes.ofBigEndian bs
  if bs.length = 32 ∧ 0 < v ∧ v < curve.order then
    .ok (if (signedPoint v).val.head? = some 3 then curve.order-v else v)
  else .error "signature error"

def signShared (kept : ℕ) (m : Bytes 32) : Except String (Bytes 64) :=
  if kept = curve.order-0xca7ecbb341a3cf978abba16fbe094b26affa8e9c0eca2c89e94e6fef51829f7a ∧ m = sharedId then
    .ok sharedSig
  else .error "signature error"

def sharedSchnorr : Schnorr :=
  { schnorr with
    SigningKey := ℕ
    signingKeyFromBytes := keepEven
    verifyingKey := fun kept => ⟨(signedPoint kept).val.drop 1,by simp [(signedPoint kept).property]⟩
    signPrehash := signShared }

def chatCrates : ChatCrates where
  hex := hexCrate
  sha256 bs := if bs = asBytes sharedText then sharedId else bytes 32 0
  serde :=
    { fromStr := fun _ => .error "expected value at line 1 column 1"
      toString := fun v => if (v.get "id").bind Value.asStr = some (hexCrate.encode sharedId.val) then sharedJson else "null" }
  schnorr := sharedSchnorr
  debugBuild := false
  hmac := identityCrates.hmac
  curve := signedCurve
  phrases := phrases
  bech32 := bech32Crate
  parseTags _ := .error "expected value at line 1 column 1"

end Shared
open Shared

/-- The public key of the recorded account in a spelling of its own, and in no other variant. -/
theorem nip19_one_spelling_shared :
    ∃ s, hexToNpub chatCrates sharedPub = .ok s ∧ npubToHex chatCrates s = .ok sharedPub := by
  obtain ⟨hround,_⟩ := nip19_one_spelling (C := chatCrates) hexCrate_documented
    Recorded.bech32Crate_documented
  exact hround (Recorded.bytes 32 0xd28fc864f70d9938453e5b64f181956698d6569c6ff838e706951cd5f5e7a14a)

end ZkasSigner.Chat
