import ZkasSigner.Chat.ChatEvent
import ZkasSigner.Chat.MinedEvent

/-! The difficulty of an id. The miner counts the leading zero bits of the bytes it has hashed, and
a client counts those of the text of an id; both measure the id as one number of 256 bits. -/
namespace ZkasSigner.Chat
open Foundation Foundation.Text Foundation.Outcome

/-- `event_difficulty`, for displaying or filtering. -/
def eventDifficulty (hex : HexCrate) (idHex : String) : Outcome ℕ := do
  let b ← mapErr ("id is not hex: " ++ ·) (hex.decode (trim idHex))
  let id ← okOr "id must be 32 bytes" (Bytes.tryFrom 32 b)
  return leadingZeroBits id

/-- A client that asks for the difficulty lets the id through. -/
def Meets (hex : HexCrate) (idHex : String) (difficulty : UInt32) : Prop :=
  ∃ n, eventDifficulty hex idHex = .ok n ∧ difficulty.toNat ≤ n

/-! ### An id as a number -/

theorem le_leadingZeroBits_iff (id : Bytes 32) {d : ℕ} (hd : d ≤ 256) :
    d ≤ leadingZeroBits id ↔ Bytes.ofBigEndian id.val < 2^(256-d) := by
  have hsize := leadingZeroBits_add_size id
  rw [← Nat.size_le]
  omega

theorem leadingZeroBits_eq_iff (id : Bytes 32) : leadingZeroBits id = 256 ↔ ∀ b ∈ id.val, b = 0 := by
  have hsize := leadingZeroBits_add_size id
  rw [← Bytes.ofBigEndian_eq_zero,← Nat.size_eq_zero]
  omega

theorem leadingZeroBits_antitone {id id' : Bytes 32} (h : Bytes.ofBigEndian id.val ≤ Bytes.ofBigEndian id'.val) :
    leadingZeroBits id' ≤ leadingZeroBits id := by
  have hsize := leadingZeroBits_add_size id
  have hsize' := leadingZeroBits_add_size id'
  have hle := Nat.size_le_size h
  omega

/-! ### An id as a text -/

section
variable {hex : HexCrate}

theorem eventDifficulty_eq_ok {idHex : String} {n : ℕ} : eventDifficulty hex idHex = .ok n ↔
    ∃ id : Bytes 32, hex.decode (trim idHex) = .ok id.val ∧ leadingZeroBits id = n := by
  simp only [eventDifficulty,bind_eq_ok,mapErr_eq_ok,okOr_eq_ok,Bytes.tryFrom_eq_some,pure_eq_ok,Except.ok.injEq]
  constructor
  · intro h
    obtain ⟨b,hb,id,rfl,hn⟩ := h
    exact ⟨id,hb,hn⟩
  · intro h
    obtain ⟨id,hid,hn⟩ := h
    exact ⟨_,hid,id,rfl,hn⟩

/-- Whatever the text, no difficulty above 256 is met. -/
theorem Meets.le {idHex : String} {difficulty : UInt32} (h : Meets hex idHex difficulty) : difficulty.toNat ≤ 256 := by
  obtain ⟨n,hn,hle⟩ := h
  obtain ⟨id,_,rfl⟩ := eventDifficulty_eq_ok.mp hn
  exact hle.trans (leadingZeroBits_le id)

theorem eventDifficulty_encode (hhex : hex.Documented) (id : Bytes 32) :
    eventDifficulty hex (hex.encode id.val) = .ok (leadingZeroBits id) := by
  refine eventDifficulty_eq_ok.mpr ⟨id,?_,rfl⟩
  rw [hhex.trim_encode,hhex.decode_encode]

theorem meets_encode (hhex : hex.Documented) {id : Bytes 32} {difficulty : UInt32}
    (h : difficulty.toNat ≤ leadingZeroBits id) : Meets hex (hex.encode id.val) difficulty :=
  ⟨leadingZeroBits id,eventDifficulty_encode hhex id,h⟩

end

/-! ### Mined ids -/

section
variable {X : EventCrates}

theorem mine_meets {a : MineArgs} {rounds : ℕ} {out : List (List String)} {id : Bytes 32}
    (h : mine X a rounds = .ok (out,id)) : a.difficulty.toNat ≤ leadingZeroBits id := by
  rw [mine_eq_plainSearch] at h
  obtain ⟨_,_,_,hmeets⟩ := plainSearch_ok h
  exact hmeets

/-- With or without mining, an event has the difficulty it was signed for. -/
theorem signEventWithKey_meets {privkeyHex content : String} {kind : UInt32} {tags : List (List String)}
    {createdAt maxMs : UInt64} {difficulty : UInt32} {clock : ℕ → UInt64} {rounds : ℕ} {ev : SignedEvent}
    (h : signEventWithKey X privkeyHex kind tags content createdAt difficulty maxMs clock rounds = .ok ev) :
    ∃ id : Bytes 32, ev.id = X.hex.encode id.val ∧ difficulty.toNat ≤ leadingZeroBits id := by
  by_cases hd : difficulty = 0
  · obtain ⟨_,_,hsigned⟩ := signEventWithKey_signed h
    refine ⟨_,hsigned.id,?_⟩
    rw [hd]
    exact Nat.zero_le _
  · obtain ⟨_,_,id,hid,_,hmeets⟩ := signEventWithKey_mined hd h
    exact ⟨id,hid,hmeets⟩

theorem signEventWithKey_difficulty (hhex : X.hex.Documented) {privkeyHex content : String} {kind : UInt32}
    {tags : List (List String)} {createdAt maxMs : UInt64} {difficulty : UInt32} {clock : ℕ → UInt64} {rounds : ℕ}
    {ev : SignedEvent}
    (h : signEventWithKey X privkeyHex kind tags content createdAt difficulty maxMs clock rounds = .ok ev) :
    Meets X.hex ev.id difficulty := by
  obtain ⟨id,hid,hmeets⟩ := signEventWithKey_meets h
  rw [hid]
  exact meets_encode hhex hmeets

end

section
variable {C : ChatCrates} (hhex : C.hex.Documented)
include hhex

theorem signEvent_difficulty {secret content : String} {account kind : UInt32} {tags : List (List String)}
    {createdAt maxMs : UInt64} {difficulty : UInt32} {clock : ℕ → UInt64} {rounds : ℕ} {ev : SignedEvent}
    (h : signEvent C secret account kind tags content createdAt difficulty maxMs clock rounds = .ok ev) :
    Meets C.hex ev.id difficulty := by
  obtain ⟨identity,_,h⟩ := bind_eq_ok.mp h
  exact signEventWithKey_difficulty hhex h

theorem signChatEvent_difficulty {secret tagsJson content out : String} {account kind : UInt32}
    {createdAt maxMs : UInt64} {difficulty : UInt32} {clock : ℕ → UInt64} {rounds : ℕ}
    (h : signChatEvent C secret account kind tagsJson content createdAt difficulty maxMs clock rounds = .ok out) :
    ∃ ev : SignedEvent, out = ev.toJson C.toEventCrates ∧ Meets C.hex ev.id difficulty := by
  obtain ⟨tags,_,h⟩ := bind_eq_ok.mp h
  obtain ⟨ev,hev,h⟩ := bind_eq_ok.mp h
  exact ⟨ev,(Except.ok.inj h).symm,signEvent_difficulty hhex hev⟩

theorem signChatEventWithKey_difficulty {privkeyHex tagsJson content out : String} {kind : UInt32}
    {createdAt maxMs : UInt64} {difficulty : UInt32} {clock : ℕ → UInt64} {rounds : ℕ}
    (h : signChatEventWithKey C privkeyHex kind tagsJson content createdAt difficulty maxMs clock rounds = .ok out) :
    ∃ ev : SignedEvent, out = ev.toJson C.toEventCrates ∧ Meets C.hex ev.id difficulty := by
  obtain ⟨_,ev,_,hev,hout⟩ := signChatEventWithKey_event h
  exact ⟨ev,hout,signEventWithKey_difficulty hhex hev⟩

end

/-- The count of leading zero bits measures an id as a big-endian number, no difficulty above 256 is
met, and a client that reads the count off the id of a mined event finds what it was mined for. -/
theorem leadingZeroBits_measures :
    (∀ id : Bytes 32, leadingZeroBits id ≤ 256 ∧ (leadingZeroBits id = 256 ↔ ∀ b ∈ id.val, b = 0) ∧
      (∀ d ≤ 256, d ≤ leadingZeroBits id ↔ Bytes.ofBigEndian id.val < 2^(256-d)) ∧
      ∀ id' : Bytes 32, Bytes.ofBigEndian id.val ≤ Bytes.ofBigEndian id'.val → leadingZeroBits id' ≤ leadingZeroBits id) ∧
    (∀ (X : EventCrates) (a : MineArgs), 256 < a.difficulty.toNat → ∀ rounds found, mine X a rounds ≠ .ok found) ∧
    (∀ hex idHex difficulty, Meets hex idHex difficulty → difficulty.toNat ≤ 256) ∧
    (∀ X : EventCrates, X.hex.Documented →
      (∀ id : Bytes 32, eventDifficulty X.hex (X.hex.encode id.val) = .ok (leadingZeroBits id)) ∧
      (∀ a rounds out id, mine X a rounds = .ok (out,id) → Meets X.hex (X.hex.encode id.val) a.difficulty) ∧
      ∀ privkeyHex kind tags content createdAt difficulty maxMs clock rounds ev,
        signEventWithKey X privkeyHex kind tags content createdAt difficulty maxMs clock rounds = .ok ev →
          Meets X.hex ev.id difficulty) ∧
    ∀ C : ChatCrates, C.hex.Documented →
      (∀ secret account kind tags content createdAt difficulty maxMs clock rounds ev,
        signEvent C secret account kind tags content createdAt difficulty maxMs clock rounds = .ok ev →
          Meets C.hex ev.id difficulty) ∧
      (∀ secret account kind tagsJson content createdAt difficulty maxMs clock rounds out,
        signChatEvent C secret account kind tagsJson content createdAt difficulty maxMs clock rounds = .ok out →
          ∃ ev : SignedEvent, out = ev.toJson C.toEventCrates ∧ Meets C.hex ev.id difficulty) ∧
      ∀ privkeyHex kind tagsJson content createdAt difficulty maxMs clock rounds out,
        signChatEventWithKey C privkeyHex kind tagsJson content createdAt difficulty maxMs clock rounds = .ok out →
          ∃ ev : SignedEvent, out = ev.toJson C.toEventCrates ∧ Meets C.hex ev.id difficulty := by
  refine ⟨fun id => ?_,?_,fun _ _ _ h => h.le,fun X hhex => ?_,fun C hhex => ?_⟩
  · exact ⟨leadingZeroBits_le id,leadingZeroBits_eq_iff id,fun d hd => le_leadingZeroBits_iff id hd,
      fun id' => leadingZeroBits_antitone⟩
  · intro X a hd rounds found h
    have hmeets := (mine_meets h).trans (leadingZeroBits_le _)
    omega
  · refine ⟨eventDifficulty_encode hhex,fun a rounds out id h => meets_encode hhex (mine_meets h),?_⟩
    intro privkeyHex kind tags content createdAt difficulty maxMs clock rounds ev h
    exact signEventWithKey_difficulty hhex h
  · refine ⟨?_,?_,?_⟩
    · intro secret account kind tags content createdAt difficulty maxMs clock rounds ev h
      exact signEvent_difficulty hhex h
    · intro secret account kind tagsJson content createdAt difficulty maxMs clock rounds out h
      exact signChatEvent_difficulty hhex h
    · intro privkeyHex kind tagsJson content createdAt difficulty maxMs clock rounds out h
      exact signChatEventWithKey_difficulty hhex h

open Mined

/-- The id of the recorded event starts with the byte `3c`, and meets the difficulty it was mined at. -/
theorem leadingZeroBits_measures_plain :
    ∃ ev, sign [["t","zkas"]] = .ok ev ∧ eventDifficulty minedCrates.hex ev.id = .ok 2 ∧ Meets minedCrates.hex ev.id 1 := by
  obtain ⟨_,_,_,hmined,_⟩ := leadingZeroBits_measures
  obtain ⟨hread,_,hsigned⟩ := hmined minedCrates hexCrate_documented
  have hbits : leadingZeroBits plainId = 2 := by decide
  exact ⟨_,sign_plain,by rw [hread,hbits],hsigned _ _ _ _ _ _ _ _ _ _ sign_plain⟩

end ZkasSigner.Chat
