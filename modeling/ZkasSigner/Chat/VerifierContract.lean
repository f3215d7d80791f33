import ZkasSigner.Chat.Verifier

/-! What the verifier promises on untrusted input: that it returns, that an accepted event
cannot be altered under its id, and that an author has one spelling. Each promise has an
exact condition, because the source narrows `kind`, takes any spelling of a key, and does
not look at the length of a key or a signature before parsing it. -/
namespace ZkasSigner.Chat
open Foundation Foundation.Text Foundation.Outcome
variable {X : EventCrates}

/-! ### Published events

A note as it was published, the same note with 2^32 added to its `kind`, the note under the
upper case spelling of its author, a second note, this note without its signature, and an event
without a key whose id is right. -/
namespace Published
open ZkasSigner.Recorded

/-- The signature the author made for an id, as hexadecimal text. -/
def sigOf (id : Bytes 32) : String :=
  ((signatures.lookup id).map fun sig => hexCrate.encode sig.val).getD ""

def note (pubkey : String) (id : Bytes 32) (kind : UInt64) : Value :=
  eventValue (hexCrate.encode id.val) pubkey 1700000000 kind [["t","zkas"]] "a\x01\"b" (sigOf id)

def noteText (pubkey : String) (id : Bytes 32) (kind : String) : String :=
  "\x7b\"content\":\"a\\u0001\\\"b\",\"created_at\":1700000000,\"id\":\"" ++ hexCrate.encode id.val ++
    "\",\"kind\":" ++ kind ++ ",\"pubkey\":\"" ++ pubkey ++ "\",\"sig\":\"" ++ sigOf id ++
    "\",\"tags\":[[\"t\",\"zkas\"]]\x7d"

def noteJson : String := noteText authorHex noteId "1"

def widenedJson : String := noteText authorHex noteId "4294967297"

def upperJson : String := noteText authorUpper upperId "1"

def greeting (sig : String) : Value :=
  eventValue (hexCrate.encode greetingId.val) authorHex 1700000000 1 [] "gm" sig

def greetingText (sig : String) : String :=
  "\x7b\"content\":\"gm\",\"created_at\":1700000000,\"id\":\"" ++ hexCrate.encode greetingId.val ++
    "\",\"kind\":1,\"pubkey\":\"" ++ authorHex ++ "\",\"sig\":\"" ++ sig ++ "\",\"tags\":[]\x7d"

def greetingJson : String := greetingText (sigOf greetingId)

def unsignedJson : String := greetingText ""

def keylessJson : String :=
  "\x7b\"content\":\"\",\"created_at\":0,\"id\":\"" ++ hexCrate.encode keylessId.val ++
    "\",\"kind\":1,\"pubkey\":\"\",\"sig\":\"\",\"tags\":[]\x7d"

def texts : List (String × Value) :=
  [(noteJson,note authorHex noteId 1),(widenedJson,note authorHex noteId 4294967297),
    (upperJson,note authorUpper upperId 1),(greetingJson,greeting (sigOf greetingId)),(unsignedJson,greeting ""),
    (keylessJson,eventValue (hexCrate.encode keylessId.val) "" 0 1 [] "" "")]

theorem parses {s : String} {v : Value} (h : (s,v) ∈ texts) : (crates texts).serde.fromStr s = .ok v :=
  fromStr_of_mem (by decide +kernel) h

theorem parses_note : (crates texts).serde.fromStr noteJson = .ok (note authorHex noteId 1) :=
  parses (by simp [texts])

theorem parses_widened : (crates texts).serde.fromStr widenedJson = .ok (note authorHex noteId 4294967297) :=
  parses (by simp [texts])

theorem parses_upper : (crates texts).serde.fromStr upperJson = .ok (note authorUpper upperId 1) :=
  parses (by simp [texts])

theorem parses_greeting : (crates texts).serde.fromStr greetingJson = .ok (greeting (sigOf greetingId)) :=
  parses (by simp [texts])

theorem accepts {s : String} {v : Value} {r : Received} (hv : (crates texts).serde.fromStr s = .ok v)
    (hr : readEvent v = .ok r) (hid : hexCrate.encode (r.fields.eventId (crates texts)).val = r.id)
    (hs : checkSignature (crates texts) r = .ok true) : verifyEventJson (crates texts) s = .ok true :=
  verifyEventJson_eq_true.mpr ⟨v,r,hv,hr,hid,checkSignature_eq_true.mp hs⟩

theorem accepts_note : verifyEventJson (crates texts) noteJson = .ok true :=
  accepts parses_note (readEvent_eventValue _ _ _ _ _ _ _) (by decide +kernel) (by decide +kernel)

theorem accepts_widened : verifyEventJson (crates texts) widenedJson = .ok true :=
  accepts parses_widened (readEvent_eventValue _ _ _ _ _ _ _) (by decide +kernel) (by decide +kernel)

theorem accepts_upper : verifyEventJson (crates texts) upperJson = .ok true :=
  accepts parses_upper (readEvent_eventValue _ _ _ _ _ _ _) (by decide +kernel) (by decide +kernel)

theorem accepts_greeting : verifyEventJson (crates texts) greetingJson = .ok true :=
  accepts parses_greeting (readEvent_eventValue _ _ _ _ _ _ _) (by decide +kernel) (by decide +kernel)

end Published
open ZkasSigner.Recorded Published

/-! ### Totality -/

/-- The bytes of the public key are not 32, or they are a key and those of the signature are fewer than 32. -/
def WrongLength (X : EventCrates) (r : Received) : Prop :=
  ∃ pkBytes, X.hex.decode r.fields.pubkey = .ok pkBytes ∧ (pkBytes.length ≠ 32 ∨
    ∃ vk sigBytes, X.schnorr.verifyingKeyFromBytes pkBytes = .ok vk ∧ X.hex.decode r.sig = .ok sigBytes ∧
      sigBytes.length < 32)

/-- The text is an event with well-formed fields and a matching id, over a key or a signature of such a length. -/
def Malformed (X : EventCrates) (json : String) : Prop :=
  ∃ v r, X.serde.fromStr json = .ok v ∧ readEvent v = .ok r ∧
    X.hex.encode (r.fields.eventId X).val = r.id ∧ WrongLength X r

lemma readRow_returns (t : Value) : (readRow t).Returns :=
  (returns_okOr _ _).bind fun row => returns_mapM (fun _ => returns_okOr _ _) row

lemma readEvent_returns (v : Value) : (readEvent v).Returns := by
  unfold readEvent getStr
  repeat refine (returns_okOr _ _).bind fun _ => ?_
  exact (returns_mapM readRow_returns _).bind fun _ => returns_ok _

/-- Behind a matching id only the two parsers can panic. -/
theorem checkSignature_panics (hkey : X.schnorr.ParsesKeys) (hsig : X.schnorr.ParsesSignatures) (r : Received) :
    (checkSignature X r).Panics ↔ WrongLength X r := by
  rw [checkSignature,panics_bind_of_not (not_panics_mapErr _ _),WrongLength]
  simp only [mapErr_eq_ok]
  refine exists_congr fun pkBytes => and_congr_right fun _ => ?_
  rw [← hkey.panics_iff]
  cases hvk : X.schnorr.verifyingKeyFromBytes pkBytes with
  | error stop => cases stop <;> simp [Panics]
  | ok vk =>
    have hnot : ¬ Panics (Except.ok vk : Outcome X.schnorr.VerifyingKey) := not_panics_ok _
    simp only [hnot,false_or,Except.ok.injEq,exists_and_left,exists_eq_left']
    rw [panics_bind_of_not (not_panics_mapErr _ _)]
    simp only [mapErr_eq_ok]
    refine exists_congr fun sigBytes => and_congr_right fun _ => ?_
    rw [← hsig.panics_iff]
    cases hparse : X.schnorr.signatureTryFrom sigBytes with
    | error stop => cases stop <;> simp [Panics]
    | ok sig => exact iff_of_false (not_panics_ok _) (not_panics_ok _)

theorem verifyEventJson_panics (hkey : X.schnorr.ParsesKeys) (hsig : X.schnorr.ParsesSignatures) (json : String) :
    (verifyEventJson X json).Panics ↔ Malformed X json := by
  rw [verifyEventJson,panics_bind_of_not (not_panics_mapErr _ _)]
  simp only [mapErr_eq_ok,panics_bind_of_not (readEvent_returns _).not_panics]
  constructor
  · intro h
    obtain ⟨v,hv,r,hr,h⟩ := h
    split_ifs at h with hid
    · exact absurd h (not_panics_ok _)
    · exact ⟨v,r,hv,hr,not_not.mp hid,(checkSignature_panics hkey hsig r).mp h⟩
  · intro h
    obtain ⟨v,r,hv,hr,hid,hmalformed⟩ := h
    refine ⟨v,hv,r,hr,?_⟩
    rw [if_neg (not_not.mpr hid)]
    exact (checkSignature_panics hkey hsig r).mpr hmalformed

theorem verifyEventJson_finishes (hkey : X.schnorr.ParsesKeys) (hsig : X.schnorr.ParsesSignatures) (json : String) :
    (verifyEventJson X json).Finishes := by
  refine (finishes_mapErr _ _).bind fun v => (readEvent_returns v).finishes.bind fun r => ?_
  split_ifs
  · exact finishes_ok _
  · refine (finishes_mapErr _ _).bind fun pkBytes => ?_
    cases hvk : X.schnorr.verifyingKeyFromBytes pkBytes with
    | error stop =>
      cases stop with
      | err m => exact finishes_ok _
      | panic m => simp [Finishes]
      | unfinished => exact absurd hvk (hkey.finishes pkBytes)
    | ok vk =>
      refine (finishes_mapErr _ _).bind fun sigBytes => ?_
      cases hparse : X.schnorr.signatureTryFrom sigBytes with
      | error stop =>
        cases stop with
        | err m => exact finishes_ok _
        | panic m => simp [Finishes]
        | unfinished => exact absurd hparse (hsig.finishes sigBytes)
      | ok sig => exact finishes_ok _

/-- The verifier, and so what a page calls, returns a verdict or an error exactly on the texts that do not
carry a matching id over a public key of the wrong length, or over a public key and a signature that is too
short to be split. -/
theorem verifyEventJson_total_iff (hkey : X.schnorr.ParsesKeys) (hsig : X.schnorr.ParsesSignatures) (json : String) :
    ((verifyEventJson X json).Returns ↔ ¬ Malformed X json) ∧ ((verifyChatEvent X json).Returns ↔ ¬ Malformed X json) := by
  have hreturns : (verifyEventJson X json).Returns ↔ ¬ Malformed X json := by
    rw [returns_iff,verifyEventJson_panics hkey hsig]
    exact and_iff_left (verifyEventJson_finishes hkey hsig json)
  exact ⟨hreturns,hreturns⟩

/-- An event without a key gets past the id check and takes the verifier down, and so does a note of the
author's without its signature. -/
theorem verifyEventJson_keyless :
    (verifyEventJson (crates texts) keylessJson).Panics ∧ ¬ (verifyEventJson (crates texts) keylessJson).Returns ∧
    (verifyEventJson (crates texts) unsignedJson).Panics ∧ ¬ (verifyEventJson (crates texts) unsignedJson).Returns := by
  have hkeyless : (verifyEventJson (crates texts) keylessJson).Panics := by decide +kernel
  have hunsigned : (verifyEventJson (crates texts) unsignedJson).Panics := by decide +kernel
  exact ⟨hkeyless,fun hr => hr.not_panics hkeyless,hunsigned,fun hr => hr.not_panics hunsigned⟩

theorem verifyEventJson_total_note :
    (verifyChatEvent (crates texts) noteJson).Returns ↔ ¬ Malformed (crates texts) noteJson :=
  (verifyEventJson_total_iff parsesKeys parsesSignatures noteJson).2

/-! ### Tamper evidence -/

def signedFields : List String := ["pubkey","created_at","kind","tags","content"]

/-- The `kind` a JSON event carries, before it is narrowed. -/
def kindValue (v : Value) : ℕ := (((v.get "kind").bind Value.asU64).getD 0).toNat

theorem Accepted.isHex {v : Value} {r : Received} (hhex : X.hex.Documented) (h : Accepted X v r) :
    IsHex r.fields.pubkey := by
  obtain ⟨pkBytes,_,_,_,hpk,_⟩ := h.signed
  exact hhex.isHex_of_decode hpk

/-- Two accepted events with one id have the same fields as the verifier read them. -/
theorem Accepted.fields_eq {v₁ v₂ : Value} {r₁ r₂ : Received} (hhex : X.hex.Documented)
    (h₁ : Accepted X v₁ r₁) (h₂ : Accepted X v₂ r₂) (hid : v₁.get "id" = v₂.get "id")
    (hsha : NoCollision X.sha256 r₁.fields.bytes r₂.fields.bytes) :
    r₁.fields = r₂.fields := by
  obtain ⟨_,hid₁,_⟩ := readEvent_eq_ok.mp h₁.read
  obtain ⟨_,hid₂,_⟩ := readEvent_eq_ok.mp h₂.read
  rw [hid₁,hid₂,Option.some.injEq,Value.string.injEq,← h₁.id_eq,← h₂.id_eq] at hid
  have hdigest := Subtype.ext (hhex.encode_inj hid)
  have hinj : Set.InjOn Fields.bytes {f | IsHex f.pubkey} :=
    fun f hf g hg h => canonical_inj hf hg (asBytes_injective h)
  exact hsha.binding hinj (h₁.isHex hhex) (h₂.isHex hhex) hdigest

/-- Equal fields leave only the high half of `kind` open. -/
theorem signedFields_eq_iff {v₁ v₂ : Value} {r₁ r₂ : Received} (h₁ : readEvent v₁ = .ok r₁)
    (h₂ : readEvent v₂ = .ok r₂) (he : r₁.fields = r₂.fields) :
    (∀ key ∈ signedFields, v₁.get key = v₂.get key) ↔ kindValue v₁/2^32 = kindValue v₂/2^32 := by
  obtain ⟨hp₁,_,_,hc₁,ha₁,⟨k₁,hk₁,hn₁⟩,ht₁⟩ := readEvent_eq_ok.mp h₁
  obtain ⟨hp₂,_,_,hc₂,ha₂,⟨k₂,hk₂,hn₂⟩,ht₂⟩ := readEvent_eq_ok.mp h₂
  -- the hashed `kind` is all that equal fields say about the two values
  have hlow : k₁.toNat % 2^32 = k₂.toNat % 2^32 := by
    have h := congrArg UInt32.toNat (hn₁.trans ((congrArg Fields.kind he).trans hn₂.symm))
    simpa using h
  have hv₁ : kindValue v₁ = k₁.toNat := by simp [kindValue,hk₁,Value.asU64]
  have hv₂ : kindValue v₂ = k₂.toNat := by simp [kindValue,hk₂,Value.asU64]
  simp only [signedFields,List.forall_mem_cons,hp₁,hp₂,hc₁,hc₂,ha₁,ha₂,hk₁,hk₂,ht₁,ht₂,he,hv₁,hv₂]
  simp only [List.not_mem_nil,false_imp_iff,implies_true,and_true,true_and,Option.some.injEq,
    Value.number.injEq,Number.posInt.injEq]
  constructor
  · rintro rfl
    rfl
  · intro h
    apply UInt64.toNat_inj.mp
    omega

theorem accepted_of_true {json : String} {v : Value} {r : Received} (hv : X.serde.fromStr json = .ok v)
    (hr : readEvent v = .ok r) (h : verifyEventJson X json = .ok true) : Accepted X v r := by
  obtain ⟨v',r',hv',ha⟩ := verifyEventJson_eq_true.mp h
  cases hv.symm.trans hv'
  cases hr.symm.trans ha.read
  exact ha

/-- Two accepted texts with one id agree on all five signed fields exactly when their
`kind` values agree above 2^32. -/
theorem verifyEventJson_binds_iff (hhex : X.hex.Documented) {j₁ j₂ : String} {v₁ v₂ : Value}
    {r₁ r₂ : Received} (hv₁ : X.serde.fromStr j₁ = .ok v₁) (hv₂ : X.serde.fromStr j₂ = .ok v₂)
    (hr₁ : readEvent v₁ = .ok r₁) (hr₂ : readEvent v₂ = .ok r₂)
    (h₁ : verifyEventJson X j₁ = .ok true) (h₂ : verifyEventJson X j₂ = .ok true)
    (hid : v₁.get "id" = v₂.get "id")
    (hsha : NoCollision X.sha256 r₁.fields.bytes r₂.fields.bytes) :
    (∀ key ∈ signedFields, v₁.get key = v₂.get key) ↔ kindValue v₁/2^32 = kindValue v₂/2^32 := by
  have ha₁ := accepted_of_true hv₁ hr₁ h₁
  have ha₂ := accepted_of_true hv₂ hr₂ h₂
  exact signedFields_eq_iff hr₁ hr₂ (ha₁.fields_eq hhex ha₂ hid hsha)

/-- A `kind` 2^32 higher is read as the same kind: the altered note is accepted under the id
and the signature of the note. -/
theorem verifyEventJson_widened :
    verifyEventJson (crates texts) noteJson = .ok true ∧
    verifyEventJson (crates texts) widenedJson = .ok true ∧
    ∃ v₁ v₂, (crates texts).serde.fromStr noteJson = .ok v₁ ∧
      (crates texts).serde.fromStr widenedJson = .ok v₂ ∧
      v₁.get "id" = v₂.get "id" ∧ v₁.get "kind" = some (.number (.posInt 1)) ∧
      v₂.get "kind" = some (.number (.posInt 4294967297)) :=
  ⟨accepts_note,accepts_widened,_,_,parses_note,parses_widened,rfl,rfl,rfl⟩

theorem verifyEventJson_binds_widened :
    (∀ key ∈ signedFields, (note authorHex noteId 1).get key = (note authorHex noteId 4294967297).get key) ↔
      kindValue (note authorHex noteId 1)/2^32 = kindValue (note authorHex noteId 4294967297)/2^32 :=
  verifyEventJson_binds_iff (X := crates texts) hexCrate_documented parses_note parses_widened
    (readEvent_eventValue _ _ _ _ _ _ _) (readEvent_eventValue _ _ _ _ _ _ _) accepts_note accepts_widened rfl
    (fun _ => rfl)

/-! ### One spelling of an author -/

/-- Text that decodes to some bytes is their lower case spelling exactly when it has no
upper case letter. -/
theorem eq_encode_iff {hex : HexCrate} (hhex : hex.Documented) {s : String} {bs : List UInt8}
    (h : hex.decode s = .ok bs) : s = hex.encode bs ↔ NoUppercase s := by
  rw [← (hhex.decode_ok s bs).mp h,eq_comm]
  exact toAsciiLowercase_eq_self

theorem decode_pubkey_of_true {json p : String} {v : Value} (hv : X.serde.fromStr json = .ok v)
    (hp : v.get "pubkey" = some (.string p)) (h : verifyEventJson X json = .ok true) :
    ∃ bs, X.hex.decode p = .ok bs := by
  obtain ⟨v',r,hv',ha⟩ := verifyEventJson_eq_true.mp h
  cases hv.symm.trans hv'
  obtain ⟨bs,_,_,_,hb,_⟩ := ha.signed
  have he := (readEvent_eq_ok.mp ha.read).1
  rw [hp,Option.some.injEq,Value.string.injEq] at he
  exact ⟨bs,he ▸ hb⟩

/-- Two accepted texts whose public keys decode alike spell them alike, in lower case,
exactly when neither has an upper case letter in its `pubkey`. -/
theorem verifyEventJson_spelling_iff (hhex : X.hex.Documented) {j₁ j₂ : String} {v₁ v₂ : Value}
    {p₁ p₂ : String} (hv₁ : X.serde.fromStr j₁ = .ok v₁) (hv₂ : X.serde.fromStr j₂ = .ok v₂)
    (hp₁ : v₁.get "pubkey" = some (.string p₁)) (hp₂ : v₂.get "pubkey" = some (.string p₂))
    (h₁ : verifyEventJson X j₁ = .ok true) (h₂ : verifyEventJson X j₂ = .ok true)
    (hsame : X.hex.decode p₁ = X.hex.decode p₂) :
    (p₁ = p₂ ∧ ∃ bs, X.hex.decode p₁ = .ok bs ∧ p₁ = X.hex.encode bs) ↔
      NoUppercase p₁ ∧ NoUppercase p₂ := by
  obtain ⟨bs,hb₁⟩ := decode_pubkey_of_true hv₁ hp₁ h₁
  obtain ⟨cs,hb₂⟩ := decode_pubkey_of_true hv₂ hp₂ h₂
  cases hb₁.symm.trans (hsame.trans hb₂)
  rw [← eq_encode_iff hhex hb₁,← eq_encode_iff hhex hb₂]
  constructor
  · intro h
    obtain ⟨rfl,cs,hcs,he⟩ := h
    cases hb₁.symm.trans hcs
    exact ⟨he,he⟩
  · intro h
    obtain ⟨he₁,he₂⟩ := h
    exact ⟨he₁.trans he₂.symm,bs,hb₁,he₁⟩

/-- The author publishes one note under two spellings of one key. -/
theorem verifyEventJson_two_spellings :
    verifyEventJson (crates texts) noteJson = .ok true ∧
    verifyEventJson (crates texts) upperJson = .ok true ∧
    ∃ v₁ v₂, (crates texts).serde.fromStr noteJson = .ok v₁ ∧
      (crates texts).serde.fromStr upperJson = .ok v₂ ∧
      v₁.get "pubkey" = some (.string authorHex) ∧ v₂.get "pubkey" = some (.string authorUpper) ∧
      hexCrate.decode authorHex = hexCrate.decode authorUpper ∧ authorHex ≠ authorUpper :=
  ⟨accepts_note,accepts_upper,_,_,parses_note,parses_upper,rfl,rfl,by decide +kernel,by decide +kernel⟩

theorem verifyEventJson_spelling_greeting :
    (authorHex = authorHex ∧ ∃ bs, hexCrate.decode authorHex = .ok bs ∧ authorHex = hexCrate.encode bs) ↔
      NoUppercase authorHex ∧ NoUppercase authorHex :=
  verifyEventJson_spelling_iff (X := crates texts) hexCrate_documented
    parses_note parses_greeting rfl rfl accepts_note accepts_greeting rfl

end ZkasSigner.Chat
