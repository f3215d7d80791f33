import ZkasSigner.Foundation.Commitment
import ZkasSigner.Chat.CanonicalDecoder
import ZkasSigner.Chat.SignedEvent

/-! The verifier of untrusted events: it parses, recomputes the id over the fields as they
were received, compares it as text, and only then parses key and signature. -/
namespace ZkasSigner.Chat
open Foundation Foundation.Text Foundation.Outcome

def getStr (v : Value) (key : String) : Outcome String :=
  okOr ("missing field: " ++ key) ((v.get key).bind Value.asStr)

def readRow (t : Value) : Outcome (List String) := do
  let row ← okOr "tag is not an array" t.asArray
  row.mapM fun item => okOr "tag item is not a string" item.asStr

/-- The locals of `verify_event_json` once the fields are read. -/
structure Received where
  fields : Fields
  id : String
  sig : String

/-- The fields in the order they are asked for. A `kind` is read as `u64` and narrowed to `u32`. -/
def readEvent (v : Value) : Outcome Received := do
  let pubkey ← getStr v "pubkey"
  let id ← getStr v "id"
  let sig ← getStr v "sig"
  let content ← getStr v "content"
  let createdAt ← okOr "missing created_at" ((v.get "created_at").bind Value.asU64)
  let kind ← okOr "missing kind" ((v.get "kind").bind Value.asU64)
  let rows ← okOr "missing tags" ((v.get "tags").bind Value.asArray)
  let tags ← rows.mapM readRow
  return ⟨⟨pubkey,createdAt,kind.toUInt32,tags,content⟩,id,sig⟩

variable (X : EventCrates)

def Fields.eventId (f : Fields) : Bytes 32 :=
  Chat.eventId X.sha256 f.pubkey f.createdAt f.kind f.tags f.content

/-- The second half: key and signature over the recomputed id. Refusals of the parsers are
verdicts, their panics are not caught. -/
def checkSignature (r : Received) : Outcome Bool := do
  let pkBytes ← mapErr ("pubkey not hex: " ++ ·) (X.hex.decode r.fields.pubkey)
  match X.schnorr.verifyingKeyFromBytes pkBytes with
  | .error (.err _) => return false
  | .error stop => .error stop
  | .ok vk =>
    let sigBytes ← mapErr ("sig not hex: " ++ ·) (X.hex.decode r.sig)
    match X.schnorr.signatureTryFrom sigBytes with
    | .error (.err _) => return false
    | .error stop => .error stop
    | .ok sig => return X.schnorr.verifyPrehash vk (r.fields.eventId X) sig

def verifyEventJson (json : String) : Outcome Bool := do
  let v ← mapErr ("not JSON: " ++ ·) (X.serde.fromStr json)
  let r ← readEvent v
  if X.hex.encode (r.fields.eventId X).val ≠ r.id then return false
  else checkSignature X r

def verifyChatEvent (json : String) : Outcome Bool := verifyEventJson X json

theorem readRow_eq_ok {t : Value} {row : List String} :
    readRow t = .ok row ↔ t = .array (row.map .string) := by
  simp only [readRow,bind_eq_ok,okOr_eq_ok,Value.asArray_eq_some,mapM_eq_ok,Value.asStr_eq_some]
  constructor
  · intro h
    obtain ⟨items,rfl,h⟩ := h
    rw [← List.forall₂_map_right_iff (R := Eq),List.forall₂_eq_eq_eq] at h
    rw [h]
  · rintro rfl
    refine ⟨_,rfl,?_⟩
    rw [← List.forall₂_map_right_iff (R := Eq),List.forall₂_eq_eq_eq]

theorem mapM_readRow_eq_ok {rows : List Value} {tags : List (List String)} :
    rows.mapM readRow = .ok tags ↔ Value.array rows = tagsValue tags := by
  simp only [mapM_eq_ok,readRow_eq_ok,tagsValue,Value.array.injEq]
  rw [← List.forall₂_map_right_iff (R := Eq),List.forall₂_eq_eq_eq]

lemma getStr_eq_ok {v : Value} {key s : String} :
    getStr v key = .ok s ↔ v.get key = some (.string s) := by
  simp [getStr,Option.bind_eq_some_iff,Value.asStr_eq_some]

/-- Reading succeeds exactly on objects whose fields are the written forms of what was
read. Only `kind` is not recovered: its value is known modulo 2^32. -/
theorem readEvent_eq_ok {v : Value} {r : Received} :
    readEvent v = .ok r ↔ v.get "pubkey" = some (.string r.fields.pubkey) ∧
      v.get "id" = some (.string r.id) ∧ v.get "sig" = some (.string r.sig) ∧
      v.get "content" = some (.string r.fields.content) ∧
      v.get "created_at" = some (.number (.posInt r.fields.createdAt)) ∧
      (∃ k : UInt64, v.get "kind" = some (.number (.posInt k)) ∧ k.toUInt32 = r.fields.kind) ∧
      v.get "tags" = some (tagsValue r.fields.tags) := by
  simp only [readEvent,bind_eq_ok,getStr_eq_ok,okOr_eq_ok,Option.bind_eq_some_iff,Value.asU64_eq_some,
    Value.asArray_eq_some,mapM_readRow_eq_ok,pure_eq_ok,Except.ok.injEq]
  obtain ⟨⟨pubkey,createdAt,kind,tags,content⟩,id,sig⟩ := r
  constructor
  · intro h
    obtain ⟨_,hp,_,hi,_,hs,_,hc,_,⟨_,ha,rfl⟩,k,⟨_,hk,rfl⟩,_,⟨_,ht,rfl⟩,_,hrows,he⟩ := h
    cases he
    exact ⟨hp,hi,hs,hc,ha,⟨k,hk,rfl⟩,hrows ▸ ht⟩
  · intro h
    obtain ⟨hp,hi,hs,hc,ha,⟨k,hk,rfl⟩,ht⟩ := h
    exact ⟨_,hp,_,hi,_,hs,_,hc,_,⟨_,ha,rfl⟩,k,⟨_,hk,rfl⟩,_,⟨_,ht,rfl⟩,_,rfl,rfl⟩

/-- The fields of an object are read back as they were put in, but for the width of `kind`. -/
theorem readEvent_eventValue (id pubkey : String) (createdAt kind : UInt64) (tags : List (List String))
    (content sig : String) :
    readEvent (eventValue id pubkey createdAt kind tags content sig) =
      .ok ⟨⟨pubkey,createdAt,kind.toUInt32,tags,content⟩,id,sig⟩ := by
  rw [readEvent_eq_ok]
  exact ⟨rfl,rfl,rfl,rfl,rfl,⟨kind,rfl,rfl⟩,rfl⟩

/-- What an accepted event satisfies, as the verifier sees it. -/
structure Accepted (v : Value) (r : Received) : Prop where
  read : readEvent v = .ok r
  id_eq : X.hex.encode (r.fields.eventId X).val = r.id
  signed : ∃ pkBytes vk sigBytes sig, X.hex.decode r.fields.pubkey = .ok pkBytes ∧
    X.schnorr.verifyingKeyFromBytes pkBytes = .ok vk ∧ X.hex.decode r.sig = .ok sigBytes ∧
    X.schnorr.signatureTryFrom sigBytes = .ok sig ∧
    X.schnorr.verifyPrehash vk (r.fields.eventId X) sig = true

variable {X}

theorem checkSignature_eq_true {r : Received} :
    checkSignature X r = .ok true ↔ ∃ pkBytes vk sigBytes sig, X.hex.decode r.fields.pubkey = .ok pkBytes ∧
      X.schnorr.verifyingKeyFromBytes pkBytes = .ok vk ∧ X.hex.decode r.sig = .ok sigBytes ∧
      X.schnorr.signatureTryFrom sigBytes = .ok sig ∧
      X.schnorr.verifyPrehash vk (r.fields.eventId X) sig = true := by
  simp only [checkSignature,bind_eq_ok,mapErr_eq_ok]
  constructor
  · intro h
    obtain ⟨pkBytes,hpk,h⟩ := h
    split at h
    · cases h
    · cases h
    · rename_i vk hvk
      obtain ⟨sigBytes,hsb,h⟩ := bind_eq_ok.mp h
      split at h
      · cases h
      · cases h
      · rename_i sig hsig
        exact ⟨pkBytes,vk,sigBytes,sig,hpk,hvk,mapErr_eq_ok.mp hsb,hsig,Except.ok.inj h⟩
  · intro h
    obtain ⟨pkBytes,vk,sigBytes,sig,hpk,hvk,hsb,hsig,h⟩ := h
    refine ⟨pkBytes,hpk,?_⟩
    simp [hvk,hsb,hsig,h,mapErr]

theorem verifyEventJson_eq_true {json : String} :
    verifyEventJson X json = .ok true ↔ ∃ v r, X.serde.fromStr json = .ok v ∧ Accepted X v r := by
  simp only [verifyEventJson,bind_eq_ok,mapErr_eq_ok]
  constructor
  · intro h
    obtain ⟨v,hv,r,hr,h⟩ := h
    split_ifs at h with hid
    · cases h
    · exact ⟨v,r,hv,hr,not_not.mp hid,checkSignature_eq_true.mp h⟩
  · intro h
    obtain ⟨v,r,hv,⟨hr,hid,hs⟩⟩ := h
    refine ⟨v,hv,r,hr,?_⟩
    rw [if_neg (not_not.mpr hid)]
    exact checkSignature_eq_true.mpr hs

end ZkasSigner.Chat
