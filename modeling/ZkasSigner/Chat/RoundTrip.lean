import ZkasSigner.Chat.VerifierContract

/-! Signing and verifying agree. The id is computed over the canonical text, by the plain
path or by the miner, while the event travels as ordinary JSON. -/
namespace ZkasSigner.Chat
open Foundation Foundation.Text Foundation.Outcome
variable {X : EventCrates}

def SignedEvent.received (ev : SignedEvent) : Received :=
  ⟨⟨ev.pubkey,ev.createdAt,ev.kind,ev.tags,ev.content⟩,ev.id,ev.sig⟩

/-- Widening `kind` for the wire and narrowing it again is lossless. -/
theorem readEvent_value (ev : SignedEvent) : readEvent ev.value = .ok ev.received := by
  rw [SignedEvent.value,readEvent_eventValue,SignedEvent.received]
  have hk : ev.kind.toUInt64.toUInt32 = ev.kind := by
    apply UInt32.toNat_inj.mp
    rw [UInt64.toNat_toUInt32,UInt32.toNat_toUInt64]
    exact Nat.mod_eq_of_lt ev.kind.toNat_lt
  rw [hk]

/-- An event signed by some key is accepted as its own fields. -/
theorem Signed.accepted {ev : SignedEvent} {signing : X.schnorr.SigningKey} {s : X.schnorr.Signature}
    (hhex : X.hex.Documented) (hverify : X.schnorr.SignaturesVerify) (h : Signed X ev signing s) :
    Accepted X ev.value ev.received := by
  obtain ⟨vk,s',hvk,hs',hok⟩ := hverify signing _ s h.signed
  refine ⟨readEvent_value ev,h.id.symm,?_⟩
  refine ⟨_,vk,_,s',?_,hvk,?_,hs',hok⟩
  · change X.hex.decode ev.pubkey = _
    rw [h.pubkey,hhex.decode_encode]
  · change X.hex.decode ev.sig = _
    rw [h.sig,hhex.decode_encode]

/-- Whatever signing produces, on the plain path or on the mined one, is accepted. -/
theorem signEventWithKey_verifies (hhex : X.hex.Documented) (hverify : X.schnorr.SignaturesVerify)
    {privkeyHex content : String} {kind : UInt32} {tags : List (List String)}
    {createdAt maxMs : UInt64} {difficulty : UInt32} {clock : ℕ → UInt64} {rounds : ℕ} {ev : SignedEvent}
    (h : signEventWithKey X privkeyHex kind tags content createdAt difficulty maxMs clock rounds = .ok ev)
    (hserde : X.serde.RoundTrips ev.value) : verifyEventJson X (ev.toJson X) = .ok true := by
  obtain ⟨signing,s,hs⟩ := signEventWithKey_signed h
  exact verifyEventJson_eq_true.mpr ⟨ev.value,ev.received,hserde,hs.accepted hhex hverify⟩

open ZkasSigner.Recorded Published

def noteEvent : SignedEvent :=
  ⟨hexCrate.encode noteId.val,authorHex,1700000000,1,[["t","zkas"]],"a\x01\"b",sigOf noteId⟩

/-- The note is signed on the plain path, published, and accepted. -/
theorem signEventWithKey_verifies_note :
    verifyEventJson (crates texts) (noteEvent.toJson (crates texts)) = .ok true := by
  have h : signEventWithKey (crates texts) "7f7ff03d123792d6ac594bfa67bf6d0c0ab55b6b1fdb6249303fe861f1ccba9a"
      1 [["t","zkas"]] "a\x01\"b" 1700000000 0 0 (fun _ => 0) 0 = .ok noteEvent := by
    decide +kernel
  exact signEventWithKey_verifies (X := crates texts) hexCrate_documented signaturesVerify h parses_note

end ZkasSigner.Chat
