import ZkasSigner.Chat.SignedEvent

/-! What a mined event commits to. The miner puts its own nonce tag behind the caller's tags, and
a verifier looks for a nonce tag from the front. -/
namespace ZkasSigner.Chat
open Foundation Foundation.Text Foundation.Outcome

def isNonceTag (t : List String) : Bool := t.head? = some "nonce"

/-- The tag a verifier reads the committed target from. -/
def frontNonce (tags : List (List String)) : Option (List String) := tags.find? isNonceTag

/-- The same lookup as `tags.iter().find(|t| t[0] == "nonce")`: it panics at an empty tag. -/
def findNonce : List (List String) → Outcome (Option (List String))
  | [] => .ok none
  | [] :: _ => abort "index out of bounds: the len is 0 but the index is 0"
  | t@(first :: _) :: rest => if first = "nonce" then .ok (some t) else findNonce rest

/-- There is one nonce tag, and a verifier reads from it the nonce that was ground and the
difficulty that was asked for. -/
structure Commits (tags : List (List String)) (nonce : UInt64) (difficulty : UInt32) : Prop where
  only : tags.filter isNonceTag = [nonceTag nonce difficulty]
  front : frontNonce tags = some (nonceTag nonce difficulty)

/-- A tag behind the others is the only nonce tag when none of the others is one, and only then. -/
theorem commits_concat_iff {tags : List (List String)} {nonce : UInt64} {difficulty : UInt32} :
    Commits (tags ++ [nonceTag nonce difficulty]) nonce difficulty ↔ ∀ t ∈ tags, isNonceTag t = false := by
  have hown : isNonceTag (nonceTag nonce difficulty) = true := rfl
  constructor
  · intro h
    have honly := h.only
    rw [List.filter_append,List.filter_singleton,hown,cond_true] at honly
    simpa using honly
  · intro h
    have hnil : tags.filter isNonceTag = [] := by simpa using h
    have hnone : tags.find? isNonceTag = none := by simpa using h
    constructor
    · rw [List.filter_append,hnil,List.filter_singleton,hown]
      rfl
    · rw [frontNonce,List.find?_append,hnone]
      rfl

theorem findNonce_concat {tags : List (List String)} (h : ∀ t ∈ tags, isNonceTag t = false)
    (nonce : UInt64) (difficulty : UInt32) :
    findNonce (tags ++ [nonceTag nonce difficulty]) = .ok (some (nonceTag nonce difficulty)) ↔ [] ∉ tags := by
  induction tags with
  | nil => simp [findNonce,nonceTag]
  | cons t tags ih =>
    have hrest := ih fun t ht => h t (List.mem_cons_of_mem _ ht)
    cases t with
    | nil => simp [findNonce,abort]
    | cons first items =>
      have hfirst : first ≠ "nonce" := by simpa [isNonceTag] using h (first::items) (by simp)
      simpa [findNonce,hfirst] using hrest

variable {X : EventCrates}

/-- A mined event carries the caller's tags, then the tag of the nonce its id was found with. -/
theorem signEventWithKey_mined {privkeyHex content : String} {kind : UInt32} {tags : List (List String)}
    {createdAt maxMs : UInt64} {difficulty : UInt32} {clock : ℕ → UInt64} {rounds : ℕ} {ev : SignedEvent}
    (hd : difficulty ≠ 0)
    (h : signEventWithKey X privkeyHex kind tags content createdAt difficulty maxMs clock rounds = .ok ev) :
    ∃ nonce, ev.tags = tags ++ [nonceTag nonce difficulty] ∧ ∃ id : Bytes 32, ev.id = X.hex.encode id.val ∧
      id = eventId X.sha256 ev.pubkey createdAt kind ev.tags content ∧ difficulty.toNat ≤ leadingZeroBits id := by
  simp only [signEventWithKey,bind_eq_ok,tagsAndId,if_neg hd] at h
  obtain ⟨_,_,signing,_,⟨out,id⟩,hmine,sig,_,he⟩ := h
  cases he
  rw [mine_eq_plainSearch] at hmine
  obtain ⟨nonce,hout,hid,hmeets⟩ := plainSearch_ok hmine
  refine ⟨nonce,hout,id,rfl,?_,hmeets⟩
  rw [hid,hout]
  rfl

/-- A mined event commits to its nonce and its target exactly when the caller passed no nonce tag;
and the lookup that indexes into every tag it passes finds it exactly when none was empty besides. -/
theorem mined_commits_iff {privkeyHex content : String} {kind : UInt32} {tags : List (List String)}
    {createdAt maxMs : UInt64} {difficulty : UInt32} {clock : ℕ → UInt64} {rounds : ℕ} {ev : SignedEvent}
    (hd : difficulty ≠ 0)
    (h : signEventWithKey X privkeyHex kind tags content createdAt difficulty maxMs clock rounds = .ok ev) :
    ∃ nonce, ev.tags = tags ++ [nonceTag nonce difficulty] ∧
      (∃ id : Bytes 32, ev.id = X.hex.encode id.val ∧
        id = eventId X.sha256 ev.pubkey createdAt kind ev.tags content ∧ difficulty.toNat ≤ leadingZeroBits id) ∧
      (Commits ev.tags nonce difficulty ↔ ∀ t ∈ tags, isNonceTag t = false) ∧
      (Commits ev.tags nonce difficulty ∧ findNonce ev.tags = .ok (some (nonceTag nonce difficulty)) ↔
        ∀ t ∈ tags, isNonceTag t = false ∧ t ≠ []) := by
  obtain ⟨nonce,htags,hid⟩ := signEventWithKey_mined hd h
  refine ⟨nonce,htags,hid,?_,?_⟩
  · rw [htags,commits_concat_iff]
  · rw [htags,commits_concat_iff]
    constructor
    · intro h
      obtain ⟨hnone,hfind⟩ := h
      have hempty := (findNonce_concat hnone nonce difficulty).mp hfind
      exact fun t ht => ⟨hnone t ht,fun he => hempty (he ▸ ht)⟩
    · intro h
      have hnone : ∀ t ∈ tags, isNonceTag t = false := fun t ht => (h t ht).1
      exact ⟨hnone,(findNonce_concat hnone nonce difficulty).mpr fun hmem => (h [] hmem).2 rfl⟩

/-! ### Recorded calls

Two events of the recorded author, mined at difficulty 1: one whose tags are plain, one that is
given the nonce tag of an earlier mining at difficulty 20. -/
namespace Mined
open ZkasSigner.Recorded

def plainId : Bytes 32 := bytes 32 0x3c1914c5738bb7e3c7e64048f9c9bf9d5e0e35a4d31374d05d9147c78a318a2d

def staleId : Bytes 32 := bytes 32 0x17278e60214fb1ac68ce7309e6818c353b0f8e1f60452838ba7fb17009e76c70

def plainSig : Bytes 64 := bytes 64 0xf508cec34c5b29bf5c41ca35989a2e9e180e9764c885402c9d5c0c7e267015244e7a5ed16c3ae540fbf487c5de6bd3cd846cc23880e69b32310e65b117e4862a

def staleSig : Bytes 64 := bytes 64 0x5f2e9dea654a62318a956d1bbfa0d821a459c982db070244d697e7962b9e4b8befc92483c916e0db0096bf2af71eb727603b9451154d1371092d870330faf316

def digest (bs : List UInt8) : Bytes 32 :=
  if bs = asBytes ("[0,\"" ++ authorHex ++ "\",1700000000,1,[[\"t\",\"zkas\"],[\"nonce\",\"0\",\"1\"]],\"gm\"]") then plainId
  else if bs = asBytes ("[0,\"" ++ authorHex ++ "\",1700000000,1,[[\"nonce\",\"0\",\"20\"],[\"nonce\",\"0\",\"1\"]],\"gm\"]") then
    staleId
  else bytes 32 0xffffffffffffffffffffffffffffffffffffffffffffffffffffffffffffffff

def signMined (m : Bytes 32) : Except String (Bytes 64) :=
  if m = plainId then .ok plainSig
  else if m = staleId then .ok staleSig
  else .error "signature error"

def minedCrates : EventCrates :=
  { crates [] with
    sha256 := digest
    schnorr := { schnorr with signPrehash := fun _ => signMined } }

def secretHex : String := "7f7ff03d123792d6ac594bfa67bf6d0c0ab55b6b1fdb6249303fe861f1ccba9a"

def sign (tags : List (List String)) : Outcome SignedEvent :=
  signEventWithKey minedCrates secretHex 1 tags "gm" 1700000000 1 1000 (fun _ => 0) 4

lemma sign_plain : sign [["t","zkas"]] = .ok ⟨minedCrates.hex.encode plainId.val,authorHex,1700000000,1,
    [["t","zkas"],["nonce","0","1"]],"gm",minedCrates.hex.encode plainSig.val⟩ := by decide +kernel

end Mined
open Mined

/-- Mined again with its old nonce tag, an event of three leading zero bits announces twenty. -/
theorem mined_stale_target :
    ∃ ev, sign [["nonce","0","20"]] = .ok ev ∧ frontNonce ev.tags = some ["nonce","0","20"] ∧
      ev.id = minedCrates.hex.encode staleId.val ∧ leadingZeroBits staleId = 3 ∧
      ¬ ∃ nonce, Commits ev.tags nonce 1 := by
  have h : sign [["nonce","0","20"]] = .ok ⟨minedCrates.hex.encode staleId.val,Recorded.authorHex,1700000000,1,
      [["nonce","0","20"],["nonce","0","1"]],"gm",minedCrates.hex.encode staleSig.val⟩ := by decide +kernel
  refine ⟨_,h,rfl,rfl,by decide,?_⟩
  rintro ⟨nonce,hc⟩
  exact absurd (congrArg List.length hc.only) (show ¬ 2 = 1 by decide)

theorem mined_commits_plain :
    ∃ ev nonce, sign [["t","zkas"]] = .ok ev ∧ Commits ev.tags nonce 1 := by
  obtain ⟨nonce,_,_,hiff,_⟩ := mined_commits_iff (X := minedCrates) (by decide) sign_plain
  exact ⟨_,nonce,sign_plain,hiff.mpr (by decide)⟩

end ZkasSigner.Chat
