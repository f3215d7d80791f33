import ZkasSigner.Chat.Nip19
import ZkasSigner.Chat.SignedEvent

/-! Events signed for a secret or for an imported key. A key leaves as text and comes back as a
key; the public key is computed on one path from the plain scalar, on the other from a scalar
that may have been negated to make the point even. -/
namespace ZkasSigner.Chat
open Foundation Foundation.Text Foundation.Outcome
variable (C : ChatCrates)

/-- The x-only public key of a raw secret key. -/
def pubkeyForKey (privkeyHex : String) : Outcome String := do
  let b ← mapErr ("key is not hex: " ++ ·) (C.hex.decode (trim privkeyHex))
  let sk ← mapErr ("not a valid key: " ++ ·) (C.schnorr.signingKeyFromBytes b)
  return C.hex.encode (C.schnorr.verifyingKeyToBytes (C.schnorr.verifyingKey sk)).val

def signEvent (secret : String) (account kind : UInt32) (tags : List (List String)) (content : String)
    (createdAt : UInt64) (difficulty : UInt32) (maxMs : UInt64) (clock : ℕ → UInt64) (rounds : ℕ) :
    Outcome SignedEvent := do
  let identity ← chatIdentity C.toIdentityCrates secret account
  signEventWithKey C.toEventCrates identity.privkeyHex kind tags content createdAt difficulty maxMs clock rounds

/-- Tags come as JSON; nothing at all is no tags. -/
def parseTagsJson (tagsJson : String) : Outcome (List (List String)) :=
  if (trim tagsJson).isEmpty then .ok []
  else mapErr ("tags are not a JSON array of string arrays: " ++ ·) (C.parseTags tagsJson)

def signChatEvent (secret : String) (account kind : UInt32) (tagsJson content : String) (createdAt : UInt64)
    (difficulty : UInt32) (maxMs : UInt64) (clock : ℕ → UInt64) (rounds : ℕ) : Outcome String := do
  let parsed ← parseTagsJson C tagsJson
  let ev ← signEvent C secret account kind parsed content createdAt difficulty maxMs clock rounds
  return ev.toJson C.toEventCrates

def signChatEventWithKey (privkeyHex : String) (kind : UInt32) (tagsJson content : String) (createdAt : UInt64)
    (difficulty : UInt32) (maxMs : UInt64) (clock : ℕ → UInt64) (rounds : ℕ) : Outcome String := do
  let parsed ← parseTagsJson C tagsJson
  let ev ← signEventWithKey C.toEventCrates privkeyHex kind parsed content createdAt difficulty maxMs clock rounds
  return ev.toJson C.toEventCrates

/-! ### What the crates promise of keys -/

/-- A number and its negative have points with the same x coordinate. -/
structure XOnly (K : Bip32.Group) : Prop where
  order_le : K.order ≤ 256^32
  x_neg : ∀ m, 0 < m → m < K.order →
    (K.serP (K.point (K.order-m))).val.drop 1 = (K.serP (K.point m)).val.drop 1

/-- A signing key is made from the bytes of any scalar but zero. It keeps the scalar or its
negative, and its verifying key is the x coordinate of that one's point. -/
structure SignsOver (k : Schnorr) (K : Bip32.Group) : Prop where
  fromBytes_ok : ∀ bs, (∃ key, k.signingKeyFromBytes bs = .ok key) ↔
    bs.length = 32 ∧ 0 < Bytes.ofBigEndian bs ∧ Bytes.ofBigEndian bs < K.order
  verifyingKey_eq : ∀ bs key, k.signingKeyFromBytes bs = .ok key →
    ∃ m, (m = Bytes.ofBigEndian bs ∨ m = K.order-Bytes.ofBigEndian bs) ∧
      (k.verifyingKeyToBytes (k.verifyingKey key)).val = (K.serP (K.point m)).val.drop 1

variable {C}

/-- The bytes of a scalar are a signing key, whose verifying key is the x coordinate of its own point. -/
theorem signingKey_of_scalar {k : Schnorr} {K : Bip32.Group} (hK : XOnly K) (hk : SignsOver k K)
    (sk : NonZeroScalar K) : ∃ key, k.signingKeyFromBytes sk.val.toBytes.val = .ok key ∧
      (k.verifyingKeyToBytes (k.verifyingKey key)).val = sk.publicKey.val.drop 1 := by
  have hpos : 0 < sk.val.val := Nat.pos_of_ne_zero sk.property
  have hval : Bytes.ofBigEndian sk.val.toBytes.val = sk.val.val :=
    Bytes.ofBigEndian_toBigEndian (sk.val.isLt.trans_le hK.order_le)
  obtain ⟨key,hkey⟩ := (hk.fromBytes_ok sk.val.toBytes.val).mpr
    ⟨sk.val.toBytes.property,hval ▸ hpos,hval ▸ sk.val.isLt⟩
  obtain ⟨m,hm,hbytes⟩ := hk.verifyingKey_eq _ key hkey
  refine ⟨key,hkey,?_⟩
  rw [hbytes,NonZeroScalar.publicKey]
  rw [hval] at hm
  rcases hm with rfl | rfl
  · rfl
  · exact hK.x_neg _ hpos sk.val.isLt

/-- An identity is the four texts of one secret scalar. -/
theorem encodeIdentity_eq_ok {I : IdentityCrates} {sk : NonZeroScalar I.curve} {nip06 : Bool} {id : ChatIdentity}
    (h : encodeIdentity I sk nip06 = .ok id) :
    id.privkeyHex = I.hex.encode sk.val.toBytes.val ∧ id.pubkeyHex = I.hex.encode (sk.publicKey.val.drop 1) ∧
      I.bech32.encode "nsec" (I.bech32.toBase32 sk.val.toBytes.val) .bech32 = .ok id.nsec ∧
      I.bech32.encode "npub" (I.bech32.toBase32 (sk.publicKey.val.drop 1)) .bech32 = .ok id.npub := by
  have hexpect : ∀ {m : String} {x : Except String String} {s : String}, expect m x = .ok s → x = .ok s := by
    intro m x s h
    cases x with
    | ok t => exact congrArg Except.ok (Except.ok.inj h)
    | error e => cases h
  simp only [encodeIdentity,bind_eq_ok,pure_eq_ok,Except.ok.injEq] at h
  obtain ⟨nsec,hnsec,npub,hnpub,rfl⟩ := h
  exact ⟨rfl,rfl,hexpect hnsec,hexpect hnpub⟩

theorem chatIdentity_eq_ok {I : IdentityCrates} {secret : String} {account : UInt32} {id : ChatIdentity}
    (h : chatIdentity I secret account = .ok id) : ∃ sk nip06, encodeIdentity I sk nip06 = .ok id := by
  simp only [chatIdentity] at h
  split_ifs at h
  · cases h
  · obtain ⟨⟨seed,nip06⟩,_,h⟩ := bind_eq_ok.mp h
    obtain ⟨sk,_,h⟩ := bind_eq_ok.mp h
    exact ⟨sk,nip06,h⟩

theorem pubkeyForKey_eq_ok {privkeyHex pubkeyHex : String} : pubkeyForKey C privkeyHex = .ok pubkeyHex ↔
    ∃ b key, C.hex.decode (trim privkeyHex) = .ok b ∧ C.schnorr.signingKeyFromBytes b = .ok key ∧
      C.hex.encode (C.schnorr.verifyingKeyToBytes (C.schnorr.verifyingKey key)).val = pubkeyHex := by
  simp only [pubkeyForKey,bind_eq_ok,mapErr_eq_ok,pure_eq_ok,Except.ok.injEq]
  constructor
  · intro h
    obtain ⟨b,hb,key,hkey,h⟩ := h
    exact ⟨b,key,hb,hkey,h⟩
  · intro h
    obtain ⟨b,key,hb,hkey,h⟩ := h
    exact ⟨b,hb,key,hkey,h⟩

/-- The author of a signed event is the public key of the key it was signed with. -/
theorem signEventWithKey_author {privkeyHex content pubkeyHex : String} {kind : UInt32} {tags : List (List String)}
    {createdAt maxMs : UInt64} {difficulty : UInt32} {clock : ℕ → UInt64} {rounds : ℕ} {ev : SignedEvent}
    (hkey : pubkeyForKey C privkeyHex = .ok pubkeyHex)
    (h : signEventWithKey C.toEventCrates privkeyHex kind tags content createdAt difficulty maxMs clock rounds = .ok ev) :
    ev.pubkey = pubkeyHex := by
  obtain ⟨b,sk,hb,hsk,rfl⟩ := pubkeyForKey_eq_ok.mp hkey
  simp only [signEventWithKey,bind_eq_ok,mapErr_eq_ok] at h
  obtain ⟨b',hb',sk',hsk',⟨out,id⟩,_,sig,_,he⟩ := h
  rw [hb,Except.ok.injEq] at hb'
  rw [← hb',hsk,Except.ok.injEq] at hsk'
  cases he
  rw [hsk']

/-- What is printed is an event signed with the key, under the tags that were read. -/
theorem signChatEventWithKey_event {privkeyHex tagsJson content out : String} {kind : UInt32}
    {createdAt maxMs : UInt64} {difficulty : UInt32} {clock : ℕ → UInt64} {rounds : ℕ}
    (h : signChatEventWithKey C privkeyHex kind tagsJson content createdAt difficulty maxMs clock rounds = .ok out) :
    ∃ tags ev, parseTagsJson C tagsJson = .ok tags ∧
      signEventWithKey C.toEventCrates privkeyHex kind tags content createdAt difficulty maxMs clock rounds = .ok ev ∧
      out = ev.toJson C.toEventCrates := by
  obtain ⟨tags,htags,h⟩ := bind_eq_ok.mp h
  obtain ⟨ev,hev,h⟩ := bind_eq_ok.mp h
  exact ⟨tags,ev,htags,hev,(Except.ok.inj h).symm⟩

/-- Signing with a secret is signing with the key of its identity. -/
theorem signChatEvent_of_identity {secret : String} {account : UInt32} {id : ChatIdentity}
    (h : chatIdentity C.toIdentityCrates secret account = .ok id) (kind : UInt32) (tagsJson content : String)
    (createdAt : UInt64) (difficulty : UInt32) (maxMs : UInt64) (clock : ℕ → UInt64) (rounds : ℕ) :
    signChatEvent C secret account kind tagsJson content createdAt difficulty maxMs clock rounds =
      signChatEventWithKey C id.privkeyHex kind tagsJson content createdAt difficulty maxMs clock rounds := by
  simp only [signChatEvent,signChatEventWithKey,signEvent,h,ok_bind]

section
variable (hhex : C.hex.Documented) (hB : C.bech32.Documented) (hK : XOnly C.curve) (hk : SignsOver C.schnorr C.curve)
include hhex hB hK hk

/-- An identity survives being exported: its texts decode to each other, and signing with the
exported key is signing with the secret, by the same author and without an error about the key. -/
theorem identity_export {secret : String} {account : UInt32} {id : ChatIdentity}
    (h : chatIdentity C.toIdentityCrates secret account = .ok id) :
    nsecToHex C id.nsec = .ok id.privkeyHex ∧ npubToHex C id.npub = .ok id.pubkeyHex ∧
    pubkeyForKey C id.privkeyHex = .ok id.pubkeyHex ∧ hexToNpub C id.pubkeyHex = .ok id.npub ∧
    (∃ bytes key, C.hex.decode (trim id.privkeyHex) = .ok bytes ∧ C.schnorr.signingKeyFromBytes bytes = .ok key) ∧
    ∀ kind tagsJson content createdAt difficulty maxMs clock rounds,
      signChatEvent C secret account kind tagsJson content createdAt difficulty maxMs clock rounds =
        signChatEventWithKey C id.privkeyHex kind tagsJson content createdAt difficulty maxMs clock rounds ∧
      (do signChatEventWithKey C (← nsecToHex C id.nsec) kind tagsJson content createdAt difficulty maxMs clock rounds) =
        signChatEventWithKey C id.privkeyHex kind tagsJson content createdAt difficulty maxMs clock rounds ∧
      ∀ out, signChatEvent C secret account kind tagsJson content createdAt difficulty maxMs clock rounds = .ok out →
        ∃ tags ev, parseTagsJson C tagsJson = .ok tags ∧
          signEventWithKey C.toEventCrates id.privkeyHex kind tags content createdAt difficulty maxMs clock rounds = .ok ev ∧
          out = ev.toJson C.toEventCrates ∧ ev.pubkey = id.pubkeyHex := by
  obtain ⟨sk,nip06,hid⟩ := chatIdentity_eq_ok h
  obtain ⟨hpriv,hpub,hnsec,hnpub⟩ := encodeIdentity_eq_ok hid
  obtain ⟨key,hkey,hbytes⟩ := signingKey_of_scalar (k := C.schnorr) hK hk sk
  -- the public half as 32 bytes, which is what the decoders hand back
  obtain ⟨x,hx⟩ : ∃ x : Bytes 32, x.val = sk.publicKey.val.drop 1 :=
    ⟨⟨_,by rw [List.length_drop,sk.publicKey.property]⟩,rfl⟩
  rw [← hx] at hpub hnpub
  have hxonly : (C.schnorr.verifyingKeyToBytes (C.schnorr.verifyingKey key)).val = x.val := hbytes.trans hx.symm
  obtain ⟨nsec,hencsec,_,hdecsec⟩ := decodeNip19_encode hB (.inr rfl) sk.val.toBytes
  obtain ⟨npub,hencpub,_,hdecpub⟩ := decodeNip19_encode hB (.inl rfl) x
  have hsec : nsec = id.nsec := Except.ok.inj (hencsec.symm.trans hnsec)
  have hown : npub = id.npub := Except.ok.inj (hencpub.symm.trans hnpub)
  rw [hsec] at hdecsec
  rw [hown] at hdecpub hencpub
  have hdecode : C.hex.decode (trim id.privkeyHex) = .ok sk.val.toBytes.val := by
    rw [hpriv]
    change C.hex.decode (trim (C.hex.encode _)) = _
    rw [hhex.trim_encode,hhex.decode_encode]
  have himport : nsecToHex C id.nsec = .ok id.privkeyHex :=
    nsecToHex_eq_ok.mpr ⟨_,hdecsec,⟨key,hkey⟩,hpriv.symm⟩
  have hpubkey : pubkeyForKey C id.privkeyHex = .ok id.pubkeyHex :=
    pubkeyForKey_eq_ok.mpr ⟨_,key,hdecode,hkey,by rw [hxonly,hpub]; rfl⟩
  refine ⟨himport,npubToHex_eq_ok.mpr ⟨x,hdecpub,hpub.symm⟩,hpubkey,?_,⟨_,key,hdecode,hkey⟩,?_⟩
  · rw [hpub]
    change hexToNpub C (C.hex.encode x.val) = _
    rw [hexToNpub_encode hhex,hencpub]
    rfl
  · intro kind tagsJson content createdAt difficulty maxMs clock rounds
    have hsign := signChatEvent_of_identity h kind tagsJson content createdAt difficulty maxMs clock rounds
    refine ⟨hsign,by rw [himport]; rfl,fun out hout => ?_⟩
    rw [hsign] at hout
    obtain ⟨tags,ev,htags,hev,hjson⟩ := signChatEventWithKey_event hout
    exact ⟨tags,ev,htags,hev,hjson,signEventWithKey_author hpubkey hev⟩

end

namespace Shared
open ZkasSigner.Recorded

lemma flip_drop (p : Bytes 33) : (flip p).val.drop 1 = p.val.drop 1 :=
  List.drop_left' (by simp [p.property])

/-- No recorded point is the negative of another. -/
lemma lookup_neg {k : ℕ} {p : Bytes 33} (h : points.lookup k = some p) : points.lookup (curve.order-k) = none := by
  have hall : ∀ e ∈ points, points.lookup (curve.order-e.1) = none := by decide +kernel
  obtain ⟨front,back,hsplit,_⟩ := List.lookup_eq_some_iff.mp h
  exact hall (k,p) (by rw [hsplit]; simp)

theorem xOnly : XOnly signedCurve where
  order_le := by decide +kernel
  x_neg m hpos hlt := by
    have hback : curve.order-(curve.order-m) = m := Nat.sub_sub_self (Nat.le_of_lt hlt)
    change (signedPoint (curve.order-m)).val.drop 1 = (signedPoint m).val.drop 1
    unfold signedPoint
    rw [hback]
    cases hm : points.lookup m with
    | some p =>
      rw [lookup_neg hm]
      exact flip_drop p
    | none =>
      cases points.lookup (curve.order-m) with
      | some q => exact (flip_drop q).symm
      | none => rfl

lemma keepEven_eq_ok {bs : List UInt8} {kept : ℕ} : keepEven bs = .ok kept ↔
    (bs.length = 32 ∧ 0 < Bytes.ofBigEndian bs ∧ Bytes.ofBigEndian bs < curve.order) ∧
      (if (signedPoint (Bytes.ofBigEndian bs)).val.head? = some 3 then curve.order-Bytes.ofBigEndian bs
        else Bytes.ofBigEndian bs) = kept := by
  unfold keepEven
  dsimp only
  split_ifs with h <;> simp [h]

theorem signsOver : SignsOver sharedSchnorr signedCurve where
  fromBytes_ok bs := by
    constructor
    · intro h
      obtain ⟨kept,h⟩ := h
      exact (keepEven_eq_ok.mp h).1
    · intro h
      exact ⟨_,keepEven_eq_ok.mpr ⟨h,rfl⟩⟩
  verifyingKey_eq bs kept h := by
    obtain ⟨_,hkept⟩ := keepEven_eq_ok.mp h
    refine ⟨kept,?_,rfl⟩
    rw [← hkept]
    split_ifs
    · exact .inr rfl
    · exact .inl rfl

end Shared
open ZkasSigner.Recorded Shared

/-- The account with an odd point, exported as `nsec` and imported again, signs the same note. -/
theorem identity_export_shared :
    ∃ id key, chatIdentity chatCrates.toIdentityCrates rawSeed 1 = .ok id ∧ nsecToHex chatCrates id.nsec = .ok key ∧
      signChatEventWithKey chatCrates key 1 "" "gm" 1700000000 0 0 (fun _ => 0) 0 = .ok sharedJson := by
  have hsome : (chatIdentity chatCrates.toIdentityCrates rawSeed 1).toOption.isSome = true := by decide +kernel
  obtain ⟨id,hid⟩ := Option.isSome_iff_exists.mp hsome
  have hid := toOption_eq_some.mp hid
  have hnote : signChatEvent chatCrates rawSeed 1 1 "" "gm" 1700000000 0 0 (fun _ => 0) 0 = .ok sharedJson := by
    decide +kernel
  obtain ⟨hsec,_,_,_,_,hsame⟩ := identity_export (C := chatCrates) hexCrate_documented bech32Crate_documented xOnly
    signsOver hid
  exact ⟨id,_,hid,hsec,(hsame _ _ _ _ _ _ _ _).1.symm.trans hnote⟩

end ZkasSigner.Chat
