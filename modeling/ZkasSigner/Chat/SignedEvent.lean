import ZkasSigner.Chat.Mining

/-! Signing an event, and the object it is published as. The wire form is ordinary JSON, not
the canonical text the id is computed over. -/
namespace ZkasSigner.Chat
open Foundation Foundation.Text Foundation.Outcome

/-- The JSON value a list of tags has. -/
def tagsValue (tags : List (List String)) : Value :=
  .array (tags.map fun t => .array (t.map .string))

/-- The object of an event. Its fields are kept sorted by name, which is also how they are printed. -/
def eventValue (id pubkey : String) (createdAt kind : UInt64) (tags : List (List String))
    (content sig : String) : Value :=
  .object [("content",.string content),("created_at",.number (.posInt createdAt)),("id",.string id),
    ("kind",.number (.posInt kind)),("pubkey",.string pubkey),("sig",.string sig),("tags",tagsValue tags)]

/-- A fully signed event, ready to publish. -/
structure SignedEvent where
  id : String
  pubkey : String
  createdAt : UInt64
  kind : UInt32
  tags : List (List String)
  content : String
  sig : String
  deriving DecidableEq, Repr

def SignedEvent.value (ev : SignedEvent) : Value :=
  eventValue ev.id ev.pubkey ev.createdAt ev.kind.toUInt64 ev.tags ev.content ev.sig

variable (X : EventCrates)

def SignedEvent.toJson (ev : SignedEvent) : String := X.serde.toString ev.value

/-- The event id as the plain path computes it, or as the miner finds it. -/
def tagsAndId (pubkey : String) (kind : UInt32) (tags : List (List String)) (content : String)
    (createdAt : UInt64) (difficulty : UInt32) (maxMs : UInt64) (clock : ℕ → UInt64) (rounds : ℕ) :
    Outcome (List (List String) × Bytes 32) :=
  if difficulty = 0 then return (tags,eventId X.sha256 pubkey createdAt kind tags content)
  else mine X ⟨pubkey,createdAt,kind,tags,content,difficulty,maxMs,clock⟩ rounds

/-- Sign an event with a raw secret key in hexadecimal. The signature is over the bytes of the id. -/
def signEventWithKey (privkeyHex : String) (kind : UInt32) (tags : List (List String))
    (content : String) (createdAt : UInt64) (difficulty : UInt32) (maxMs : UInt64)
    (clock : ℕ → UInt64) (rounds : ℕ) : Outcome SignedEvent := do
  let skBytes ← mapErr ("key is not hex: " ++ ·) (X.hex.decode (trim privkeyHex))
  let signing ← mapErr ("not a valid key: " ++ ·) (X.schnorr.signingKeyFromBytes skBytes)
  let pubkey := X.hex.encode (X.schnorr.verifyingKeyToBytes (X.schnorr.verifyingKey signing)).val
  let (tags,id) ← tagsAndId X pubkey kind tags content createdAt difficulty maxMs clock rounds
  let sig ← mapErr ("could not sign: " ++ ·) (X.schnorr.signPrehash signing id)
  return {
    id := X.hex.encode id.val
    pubkey, createdAt, kind, tags, content
    sig := X.hex.encode (X.schnorr.signatureToBytes sig).val }

variable {X}

/-- On either path the id is the plain event id of the tags that go into the event. -/
theorem tagsAndId_id {pubkey content : String} {kind : UInt32} {tags out : List (List String)}
    {createdAt maxMs : UInt64} {difficulty : UInt32} {clock : ℕ → UInt64} {rounds : ℕ} {id : Bytes 32}
    (h : tagsAndId X pubkey kind tags content createdAt difficulty maxMs clock rounds = .ok (out,id)) :
    id = eventId X.sha256 pubkey createdAt kind out content := by
  unfold tagsAndId at h
  by_cases hd : difficulty = 0
  · rw [if_pos hd,pure_eq_ok,Except.ok.injEq,Prod.mk.injEq] at h
    rw [← h.2,h.1]
  · rw [if_neg hd] at h
    have hm := mine_id h
    exact hm

/-- What a signed event is made of: one key, its own id, and the key's signature over it. -/
structure Signed (X : EventCrates) (ev : SignedEvent) (signing : X.schnorr.SigningKey)
    (s : X.schnorr.Signature) : Prop where
  pubkey : ev.pubkey = X.hex.encode (X.schnorr.verifyingKeyToBytes (X.schnorr.verifyingKey signing)).val
  id : ev.id = X.hex.encode (eventId X.sha256 ev.pubkey ev.createdAt ev.kind ev.tags ev.content).val
  sig : ev.sig = X.hex.encode (X.schnorr.signatureToBytes s).val
  signed : X.schnorr.signPrehash signing
    (eventId X.sha256 ev.pubkey ev.createdAt ev.kind ev.tags ev.content) = .ok s

theorem signEventWithKey_signed {privkeyHex content : String} {kind : UInt32} {tags : List (List String)}
    {createdAt maxMs : UInt64} {difficulty : UInt32} {clock : ℕ → UInt64} {rounds : ℕ} {ev : SignedEvent}
    (h : signEventWithKey X privkeyHex kind tags content createdAt difficulty maxMs clock rounds = .ok ev) :
    ∃ signing sig, Signed X ev signing sig := by
  simp only [signEventWithKey,bind_eq_ok,mapErr_eq_ok] at h
  obtain ⟨_,_,signing,_,⟨out,id⟩,hid,sig,hsig,he⟩ := h
  rw [tagsAndId_id hid] at hsig he
  cases he
  exact ⟨signing,sig,rfl,rfl,rfl,hsig⟩

end ZkasSigner.Chat
