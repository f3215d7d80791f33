import ZkasSigner.Chat.Canonical
import ZkasSigner.Crates.Codec
import ZkasSigner.Foundation.Reading

/-! Proof of work. The miner does not call `canonical`: it splits the text once around the
digits of the nonce and rewrites only those digits in a reused buffer. Everything here
serves to show that the two agree on every event and every nonce. -/
namespace ZkasSigner.Chat
open Foundation Foundation.Text Foundation.Outcome

/-- `u8::leading_zeros`. -/
def leadingZeros (b : UInt8) : ℕ := if b = 0 then 8 else 7-b.toNat.log2

def leadingZeroBitsFrom : ℕ → List UInt8 → ℕ
  | n, [] => n
  | n, b :: bs => if b = 0 then leadingZeroBitsFrom (n+8) bs else n+leadingZeros b

/-- Leading zero bits of an id, byte by byte until the first byte that is not zero. -/
def leadingZeroBits (id : Bytes 32) : ℕ := leadingZeroBitsFrom 0 id.val

lemma leadingZeros_add_size (b : UInt8) : leadingZeros b+Nat.size b.toNat = 8 := by
  unfold leadingZeros
  split_ifs with hb
  · rw [hb]
    rfl
  · have hne : b.toNat ≠ 0 := fun h => hb (UInt8.toNat_inj.mp h)
    have hsize : Nat.size b.toNat = b.toNat.log2+1 := by
      apply le_antisymm
      · exact Nat.size_le.mpr ((Nat.log2_lt hne).mp (Nat.lt_succ_self _))
      · exact Nat.lt_size.mpr ((Nat.le_log2 hne).mp le_rfl)
    have hlt : b.toNat.log2 < 8 := (Nat.log2_lt hne).mpr b.toNat_lt
    omega

/-- The loop counts the bits that the number the bytes are does not have. -/
theorem leadingZeroBitsFrom_add_size (n : ℕ) (bs : List UInt8) :
    leadingZeroBitsFrom n bs+Nat.size (Bytes.ofBigEndian bs) = n+8*bs.length := by
  induction bs generalizing n with
  | nil => rfl
  | cons b bs ih =>
    rw [leadingZeroBitsFrom,List.length_cons]
    split_ifs with hb
    · have hrest := ih (n+8)
      rw [hb,Bytes.ofBigEndian_zero_cons]
      omega
    · have hbyte := leadingZeros_add_size b
      rw [Bytes.size_ofBigEndian_cons hb]
      omega

theorem leadingZeroBits_add_size (id : Bytes 32) : leadingZeroBits id+Nat.size (Bytes.ofBigEndian id.val) = 256 := by
  rw [leadingZeroBits,leadingZeroBitsFrom_add_size,id.property]

theorem leadingZeroBits_le (id : Bytes 32) : leadingZeroBits id ≤ 256 :=
  (leadingZeroBits_add_size id).le.trans' (Nat.le_add_right _ _)

/-- `u64::saturating_sub`. -/
def saturatingSub (a b : UInt64) : UInt64 := if a < b then 0 else a-b

/-- The digit loop: `i -= 1; digits[i] = b'0' + (n % 10) as u8; n /= 10` until `n` is zero.
At `i = 0` the subtraction would leave the buffer, which panics in either profile. -/
def renderDigits : ℕ → UInt64 → List UInt8 → Outcome (ℕ × List UInt8)
  | 0, _, _ => abort "attempt to subtract with overflow"
  | i+1, n, digits =>
    let digits := digits.set i (48+(n % 10).toUInt8)
    if n/10 = 0 then .ok (i,digits) else renderDigits i (n/10) digits

/-- The tags array left open before the nonce tag: `[` or `[a,b,`. -/
def tagsOpen (tags : List (List String)) : Outcome String :=
  if tags.isEmpty then .ok "["
  else
    let others := serializeTags tags
    match sliceTo others (others.utf8ByteSize-1) with
    | some s => .ok (s ++ ",")
    | none => abort "byte index is not a char boundary"

def minePrefix (pubkey : String) (createdAt : UInt64) (kind : UInt32) (opened : String) : String :=
  "[0,\"" ++ pubkey ++ "\"," ++ toString createdAt ++ "," ++ toString kind ++ "," ++ opened ++
    "[\"nonce\",\""

def mineSuffix (content : String) (difficulty : UInt32) : String :=
  "\",\"" ++ toString difficulty ++ "\"]],\"" ++ escape content ++ "\"]"

/-- The bytes hashed for one nonce, and the digit buffer they leave behind. -/
def candidate (front back : String) (digits : List UInt8) (nonce : UInt64) :
    Outcome (List UInt8 × List UInt8) := do
  let (i,digits) ← renderDigits digits.length nonce digits
  return (asBytes front ++ digits.drop i ++ asBytes back,digits)

def nonceTag (nonce : UInt64) (difficulty : UInt32) : List String :=
  ["nonce",toString nonce,toString difficulty]

/-- What `mine` was called with, and the clock: its readings in order, the first one at the start. -/
structure MineArgs where
  pubkey : String
  createdAt : UInt64
  kind : UInt32
  tags : List (List String)
  content : String
  difficulty : UInt32
  maxMs : UInt64
  clock : ℕ → UInt64

/-- The search from one nonce on, for so many rounds; `reads` readings of the clock were taken.
In a debug build the range of nonces overflows when it hands out the last one. -/
def mineLoop (X : EventCrates) (a : MineArgs) (front back : String) :
    ℕ → UInt64 → List UInt8 → ℕ → Outcome (List (List String) × Bytes 32)
  | 0, _, _, _ => .error .unfinished
  | rounds+1, nonce, digits, reads => do
    if X.debugBuild && nonce = 18446744073709551615 then abort "attempt to add with overflow"
    else
      let (buf,digits) ← candidate front back digits nonce
      let id := X.sha256 buf
      if a.difficulty.toNat ≤ leadingZeroBits id then
        let out := a.tags ++ [nonceTag nonce a.difficulty]
        if X.debugBuild && id ≠ eventId X.sha256 a.pubkey a.createdAt a.kind out a.content then
          abort "mining fast path diverged from the canonical serializer"
        else return (out,id)
      else if nonce % 8192 = 0 then
        if a.maxMs < saturatingSub (a.clock reads) (a.clock 0) then
          fail ("proof of work gave up after " ++ toString a.maxMs ++ " ms at difficulty " ++
            toString a.difficulty)
        else mineLoop X a front back rounds (nonce+1) digits (reads+1)
      else mineLoop X a front back rounds (nonce+1) digits reads

/-- Grind the nonce tag until the id has `difficulty` leading zero bits. -/
def mine (X : EventCrates) (a : MineArgs) (rounds : ℕ) : Outcome (List (List String) × Bytes 32) := do
  let opened ← tagsOpen a.tags
  mineLoop X a (minePrefix a.pubkey a.createdAt a.kind opened) (mineSuffix a.content a.difficulty)
    rounds 0 (List.replicate 20 0) 1

/-- `mineLoop`, with the texts it hashes. -/
def mineLoopLogged (X : EventCrates) (a : MineArgs) (front back : String) :
    ℕ → UInt64 → List UInt8 → ℕ → List (List UInt8) × Outcome (List (List String) × Bytes 32)
  | 0, _, _, _ => ([],.error .unfinished)
  | rounds+1, nonce, digits, reads =>
    if X.debugBuild && nonce = 18446744073709551615 then ([],abort "attempt to add with overflow")
    else
      match candidate front back digits nonce with
      | .error stop => ([],.error stop)
      | .ok (buf,digits) =>
        let id := X.sha256 buf
        if a.difficulty.toNat ≤ leadingZeroBits id then
          let out := a.tags ++ [nonceTag nonce a.difficulty]
          if X.debugBuild && id ≠ eventId X.sha256 a.pubkey a.createdAt a.kind out a.content then
            ([buf],abort "mining fast path diverged from the canonical serializer")
          else ([buf],.ok (out,id))
        else if nonce % 8192 = 0 then
          if a.maxMs < saturatingSub (a.clock reads) (a.clock 0) then
            ([buf],fail ("proof of work gave up after " ++ toString a.maxMs ++ " ms at difficulty " ++
              toString a.difficulty))
          else
            let rest := mineLoopLogged X a front back rounds (nonce+1) digits (reads+1)
            (buf::rest.1,rest.2)
        else
          let rest := mineLoopLogged X a front back rounds (nonce+1) digits reads
          (buf::rest.1,rest.2)

/-- The texts `mine` hashes within so many rounds, in order. -/
def hashed (X : EventCrates) (a : MineArgs) (rounds : ℕ) : List (List UInt8) :=
  match tagsOpen a.tags with
  | .error _ => []
  | .ok opened => (mineLoopLogged X a (minePrefix a.pubkey a.createdAt a.kind opened)
      (mineSuffix a.content a.difficulty) rounds 0 (List.replicate 20 0) 1).1

/-- The record changes nothing. -/
theorem mineLoopLogged_snd {X : EventCrates} {a : MineArgs} (front back : String) (rounds : ℕ) (nonce : UInt64)
    (digits : List UInt8) (reads : ℕ) :
    (mineLoopLogged X a front back rounds nonce digits reads).2 = mineLoop X a front back rounds nonce digits reads := by
  induction rounds generalizing nonce digits reads with
  | zero => rfl
  | succ rounds ih =>
    cases hc : candidate front back digits nonce with
    | error stop =>
      simp only [mineLoopLogged,mineLoop,hc,error_bind]
      split_ifs <;> rfl
    | ok drawn =>
      simp only [mineLoopLogged,mineLoop,hc,ok_bind,← ih]
      split_ifs <;> rfl

lemma digitChar_byte {d : ℕ} (h : d < 10) : UInt8.ofNat (Nat.digitChar d).toNat = 48+UInt8.ofNat d := by
  interval_cases d <;> decide

lemma asBytes_toDigits (n : ℕ) :
    asBytes (String.ofList (Nat.toDigits 10 n)) =
      (Nat.toDigits 10 n).map fun c => UInt8.ofNat c.toNat := by
  apply asBytes_ofList_ascii
  intro c hc
  have hd := Nat.isDigit_of_mem_toDigits (by decide) (by decide) hc
  simp only [Char.isDigit,Bool.and_eq_true,decide_eq_true_eq] at hd
  exact Nat.lt_of_le_of_lt (show c.val.toNat ≤ 57 from hd.2) (by decide)

/-- The digit loop at index `i`: it stops inside the buffer, and from where it stops the
buffer holds the decimal digits of `n` in front of what stood at `i`. -/
theorem renderDigits_spec {i : ℕ} {n : UInt64} {digits : List UInt8} (hn : n.toNat < 10^i)
    (hi : 0 < i) (hl : i ≤ digits.length) :
    ∃ j out, renderDigits i n digits = .ok (j,out) ∧ j < i ∧ out.length = digits.length ∧
      out.drop j = asBytes (toString n) ++ digits.drop i := by
  rw [show toString n = String.ofList (Nat.toDigits 10 n.toNat) from rfl,asBytes_toDigits]
  induction i generalizing n digits with
  | zero => omega
  | succ i ih =>
    -- one digit goes in front of what stood from `i+1` on, and the quotient is left to write
    have hset : (digits.set i (48+(n % 10).toUInt8)).drop i = (48+(n % 10).toUInt8)::digits.drop (i+1) := by
      rw [List.drop_set,if_neg (by omega),Nat.sub_self,List.drop_eq_getElem_cons (by omega),List.set_cons_zero]
    have hbyte : UInt8.ofNat (Nat.digitChar (n.toNat % 10)).toNat = 48+(n % 10).toUInt8 := by
      rw [digitChar_byte (Nat.mod_lt _ (by decide))]
      rfl
    have hdiv : (n/10).toNat = n.toNat/10 := by simp
    simp only [renderDigits]
    split_ifs with hz
    · have hlt : n.toNat < 10 := by
        have h := congrArg UInt64.toNat hz
        rw [hdiv,UInt64.toNat_zero] at h
        omega
      refine ⟨i,_,rfl,by omega,by simp,?_⟩
      rw [hset,Nat.toDigits_of_lt_base hlt,← Nat.mod_eq_of_lt hlt]
      simp [hbyte]
    · have hge : 10 ≤ n.toNat := by
        by_contra h
        apply hz
        apply UInt64.toNat_inj.mp
        rw [hdiv,UInt64.toNat_zero]
        omega
      have hpow : (n/10).toNat < 10^i := by
        rw [hdiv]
        have h := Nat.pow_succ (n := 10) (m := i)
        omega
      have hi' : 0 < i := by
        by_contra h
        have h0 : i = 0 := by omega
        subst h0
        omega
      have hl' : i ≤ (digits.set i (48+(n % 10).toUInt8)).length := by
        rw [List.length_set]
        omega
      obtain ⟨j,out,hr,hj,hlen,hdrop⟩ := ih hpow hi' hl'
      refine ⟨j,out,hr,by omega,by simpa using hlen,?_⟩
      rw [hdrop,hset,Nat.toDigits_of_base_le (by decide) hge,hdiv]
      simp [hbyte]

/-- Every `u64` fits the 20 bytes of the buffer, the last one exactly. -/
theorem candidate_spec (front back : String) {digits : List UInt8} (hl : digits.length = 20)
    (nonce : UInt64) :
    ∃ out, candidate front back digits nonce =
      .ok (asBytes front ++ asBytes (toString nonce) ++ asBytes back,out) ∧ out.length = 20 := by
  have hn : nonce.toNat < 10^20 := Nat.lt_trans nonce.toNat_lt (by decide)
  obtain ⟨j,out,hr,_,hlen,hdrop⟩ := renderDigits_spec hn (by decide) hl.ge
  refine ⟨out,?_,hlen.trans hl⟩
  rw [candidate,hl,hr,ok_bind]
  simp only [hdrop,List.drop_eq_nil_of_le hl.le,List.append_nil,pure_eq_ok]

/-- The text of a non-empty list up to its last bracket. -/
def openTags (tags : List (List String)) : String := "[" ++ ",".intercalate (tags.map serializeTag)

theorem serializeTags_eq (tags : List (List String)) : serializeTags tags = openTags tags ++ "]" := rfl

theorem sliceTo_serializeTags (tags : List (List String)) :
    sliceTo (serializeTags tags) ((serializeTags tags).utf8ByteSize-1) = some (openTags tags) := by
  rw [serializeTags_eq]
  exact sliceTo_dropLast (openTags tags) (c := ']') (by decide)

theorem serializeTags_concat {tags : List (List String)} (h : tags ≠ []) (t : List String) :
    serializeTags (tags ++ [t]) = openTags tags ++ "," ++ serializeTag t ++ "]" := by
  have hne : tags.map serializeTag ≠ [] := by simpa using h
  rw [serializeTags,List.map_append,List.map_singleton,String.intercalate_append_of_ne_nil hne (List.cons_ne_nil _ _),
    String.intercalate_singleton,openTags]
  simp only [String.append_assoc]

lemma escape_toDigits (n : ℕ) :
    escape (String.ofList (Nat.toDigits 10 n)) = String.ofList (Nat.toDigits 10 n) := by
  apply escape_eq_self
  intro c hc
  rw [String.toList_ofList] at hc
  have hd := Nat.isDigit_of_mem_toDigits (by decide) (by decide) hc
  fun_cases escapeChar c
  case case8 => rfl
  all_goals exact absurd hd (by decide)

theorem serializeTag_nonceTag (nonce : UInt64) (difficulty : UInt32) :
    serializeTag (nonceTag nonce difficulty) =
      "[\"nonce\",\"" ++ toString nonce ++ "\",\"" ++ toString difficulty ++ "\"]" := by
  have h0 : escape "nonce" = "nonce" := by decide
  have h1 : escape (toString nonce) = toString nonce := escape_toDigits nonce.toNat
  have h2 : escape (toString difficulty) = toString difficulty := escape_toDigits difficulty.toNat
  rw [serializeTag,nonceTag]
  simp only [List.map_cons,List.map_nil,String.intercalate_cons_cons,String.intercalate_singleton,h0,h1,h2]
  rw [← String.toList_inj]
  simp

/-- The split text around the digits is the canonical text with the nonce tag in last place. -/
theorem mineSplit_canonical {pubkey : String} {createdAt : UInt64} {kind : UInt32}
    {tags : List (List String)} {content : String} {difficulty : UInt32} {opened : String}
    (h : tagsOpen tags = .ok opened) (nonce : UInt64) :
    minePrefix pubkey createdAt kind opened ++ toString nonce ++ mineSuffix content difficulty =
      canonical pubkey createdAt kind (tags ++ [nonceTag nonce difficulty]) content := by
  have hs : opened ++ serializeTag (nonceTag nonce difficulty) ++ "]" =
      serializeTags (tags ++ [nonceTag nonce difficulty]) := by
    cases tags with
    | nil =>
      have ho : "[" = opened := by simpa [tagsOpen] using h
      rw [← ho,List.nil_append,serializeTags,List.map_singleton,String.intercalate_singleton]
    | cons t ts =>
      have ho : openTags (t::ts) ++ "," = opened := by
        simpa [tagsOpen,sliceTo_serializeTags] using h
      rw [← ho,serializeTags_concat (List.cons_ne_nil t ts)]
  rw [canonical,← hs,serializeTag_nonceTag,minePrefix,mineSuffix,← String.toList_inj]
  simp

theorem tagsOpen_ok (tags : List (List String)) : ∃ opened, tagsOpen tags = .ok opened := by
  cases tags with
  | nil => exact ⟨_,rfl⟩
  | cons t ts => exact ⟨openTags (t::ts) ++ ",",by simp [tagsOpen,sliceTo_serializeTags]⟩

/-- The id the plain serializer gives to the event with one more nonce tag. -/
def minedId (X : EventCrates) (a : MineArgs) (nonce : UInt64) : Bytes 32 :=
  eventId X.sha256 a.pubkey a.createdAt a.kind (a.tags ++ [nonceTag nonce a.difficulty]) a.content

/-- The text of the event with one nonce. -/
def attempt (a : MineArgs) (n : ℕ) : List UInt8 :=
  asBytes (canonical a.pubkey a.createdAt a.kind (a.tags ++ [nonceTag (UInt64.ofNat n) a.difficulty]) a.content)

/-- The search as the plain serializer would run it: no split text, no buffer, no assertion. -/
def plainSearch (X : EventCrates) (a : MineArgs) :
    ℕ → UInt64 → ℕ → Outcome (List (List String) × Bytes 32)
  | 0, _, _ => .error .unfinished
  | rounds+1, nonce, reads =>
    if X.debugBuild && nonce = 18446744073709551615 then abort "attempt to add with overflow"
    else if a.difficulty.toNat ≤ leadingZeroBits (minedId X a nonce) then
      .ok (a.tags ++ [nonceTag nonce a.difficulty],minedId X a nonce)
    else if nonce % 8192 = 0 then
      if a.maxMs < saturatingSub (a.clock reads) (a.clock 0) then
        fail ("proof of work gave up after " ++ toString a.maxMs ++ " ms at difficulty " ++
          toString a.difficulty)
      else plainSearch X a rounds (nonce+1) (reads+1)
    else plainSearch X a rounds (nonce+1) reads

/-- One round and hence every run of the fast path is the plain one; the assertion never fires. -/
theorem mineLoop_eq_plainSearch (X : EventCrates) (a : MineArgs) {front back : String}
    (hsplit : ∀ nonce : UInt64, front ++ toString nonce ++ back =
      canonical a.pubkey a.createdAt a.kind (a.tags ++ [nonceTag nonce a.difficulty]) a.content)
    (rounds : ℕ) (nonce : UInt64) {digits : List UInt8} (hl : digits.length = 20) (reads : ℕ) :
    mineLoop X a front back rounds nonce digits reads = plainSearch X a rounds nonce reads := by
  induction rounds generalizing nonce digits reads with
  | zero => rfl
  | succ rounds ih =>
    -- the buffer changes from round to round, but only its length matters
    obtain ⟨out,hc,hout⟩ := candidate_spec front back hl nonce
    have hid : X.sha256 (asBytes front ++ asBytes (toString nonce) ++ asBytes back) = minedId X a nonce := by
      rw [← asBytes_append,← asBytes_append,hsplit]
      rfl
    have hassert : X.sha256 (asBytes front ++ asBytes (toString nonce) ++ asBytes back) =
        eventId X.sha256 a.pubkey a.createdAt a.kind (a.tags ++ [nonceTag nonce a.difficulty]) a.content := hid
    simp only [mineLoop,plainSearch,hc,ok_bind,← hassert,hid,ne_eq,not_true_eq_false,decide_false,
      Bool.and_false,Bool.false_eq_true,if_false,ih _ hout,pure_eq_ok]

theorem ofNat_succ (n : ℕ) : UInt64.ofNat n+1 = UInt64.ofNat (n+1) := by
  simp [UInt64.ofNat_add]

/-- Every candidate is the text of its nonce. -/
theorem candidate_attempt {a : MineArgs} {front back : String} (hsplit : ∀ nonce : UInt64, front ++ toString nonce ++ back =
    canonical a.pubkey a.createdAt a.kind (a.tags ++ [nonceTag nonce a.difficulty]) a.content)
    {digits : List UInt8} (hl : digits.length = 20) (n : ℕ) :
    ∃ out, candidate front back digits (UInt64.ofNat n) = .ok (attempt a n,out) ∧ out.length = 20 := by
  obtain ⟨out,hc,hout⟩ := candidate_spec front back hl (UInt64.ofNat n)
  rw [← asBytes_append,← asBytes_append,hsplit] at hc
  exact ⟨out,hc,hout⟩

/-- The texts of the nonces are hashed one after another, up to where the search ends. -/
theorem mineLoopLogged_fst (X : EventCrates) (a : MineArgs) {front back : String}
    (hsplit : ∀ nonce : UInt64, front ++ toString nonce ++ back =
      canonical a.pubkey a.createdAt a.kind (a.tags ++ [nonceTag nonce a.difficulty]) a.content)
    (rounds n : ℕ) {digits : List UInt8} (hl : digits.length = 20) (reads : ℕ) : ∃ k ≤ rounds,
      (mineLoopLogged X a front back rounds (UInt64.ofNat n) digits reads).1 =
        (List.range k).map fun j => attempt a (n+j) := by
  induction rounds generalizing n digits reads with
  | zero => exact ⟨0,le_refl 0,rfl⟩
  | succ rounds ih =>
    obtain ⟨out,hc,hout⟩ := candidate_attempt hsplit hl n
    have hlast : ∃ k ≤ rounds+1, [attempt a n] = (List.range k).map fun j => attempt a (n+j) :=
      ⟨1,Nat.le_add_left 1 rounds,rfl⟩
    -- one text more, in front of those of the rest of the search
    have hmore : ∀ reads, ∃ k ≤ rounds+1,
        attempt a n::(mineLoopLogged X a front back rounds (UInt64.ofNat (n+1)) out reads).1 =
          (List.range k).map fun j => attempt a (n+j) := by
      intro reads
      obtain ⟨k,hk,hrest⟩ := ih (n+1) hout reads
      refine ⟨k+1,Nat.succ_le_succ hk,?_⟩
      rw [hrest,List.range_succ_eq_map,List.map_cons,List.map_map]
      refine congrArg _ (List.map_congr_left fun j _ => ?_)
      rw [Function.comp_apply,Nat.succ_eq_add_one,Nat.add_right_comm,Nat.add_assoc]
    simp only [mineLoopLogged,hc,ofNat_succ]
    split_ifs
    · exact ⟨0,Nat.zero_le _,rfl⟩
    · exact hlast
    · exact hlast
    · exact hlast
    · exact hmore _
    · exact hmore _

/-- The fast path refines the plain search, on every event and for every clock. -/
theorem mine_eq_plainSearch (X : EventCrates) (a : MineArgs) (rounds : ℕ) :
    mine X a rounds = plainSearch X a rounds 0 1 := by
  obtain ⟨opened,ho⟩ := tagsOpen_ok a.tags
  rw [mine,ho,ok_bind]
  exact mineLoop_eq_plainSearch X a (fun nonce => mineSplit_canonical ho nonce) rounds 0 (by simp) 1

/-- What a successful search returns: the input tags, the nonce tag, and the id over both. -/
theorem plainSearch_ok {X : EventCrates} {a : MineArgs} {rounds : ℕ} {nonce : UInt64} {reads : ℕ}
    {out : List (List String)} {id : Bytes 32} (h : plainSearch X a rounds nonce reads = .ok (out,id)) :
    ∃ n, out = a.tags ++ [nonceTag n a.difficulty] ∧ id = minedId X a n ∧
      a.difficulty.toNat ≤ leadingZeroBits id := by
  induction rounds generalizing nonce reads with
  | zero => cases h
  | succ rounds ih =>
    simp only [plainSearch] at h
    split_ifs at h with _ hd
    · cases h
    · cases h
      exact ⟨nonce,rfl,rfl,hd⟩
    · cases h
    · exact ih h
    · exact ih h

theorem mine_id {X : EventCrates} {a : MineArgs} {rounds : ℕ} {out : List (List String)} {id : Bytes 32}
    (h : mine X a rounds = .ok (out,id)) :
    id = eventId X.sha256 a.pubkey a.createdAt a.kind out a.content := by
  rw [mine_eq_plainSearch] at h
  obtain ⟨n,rfl,hid,_⟩ := plainSearch_ok h
  exact hid

/-- No digit string with the same value is shorter than the decimal text of a number. -/
theorem toString_shortest (nonce : UInt64) {ds : List Char} (hne : ds ≠ [])
    (hd : ∀ c ∈ ds, c.isDigit = true) (hv : Nat.ofDigitChars 10 ds 0 = nonce.toNat) :
    (asBytes (toString nonce)).length ≤ ds.length := by
  rw [show toString nonce = String.ofList (Nat.toDigits 10 nonce.toNat) from rfl,asBytes_toDigits,
    List.length_map,Nat.length_toDigits_le_iff (by decide) (List.length_pos_iff.mpr hne),← hv]
  exact Reading.ofDigitChars_lt hd

theorem hashed_attempts (X : EventCrates) (a : MineArgs) (rounds : ℕ) :
    ∃ k ≤ rounds, hashed X a rounds = (List.range k).map (attempt a) := by
  obtain ⟨opened,ho⟩ := tagsOpen_ok a.tags
  obtain ⟨k,hk,hlog⟩ := mineLoopLogged_fst X a (fun nonce => mineSplit_canonical ho nonce) rounds 0
    (List.length_replicate (n := 20) (a := (0 : UInt8))) 1
  refine ⟨k,hk,?_⟩
  rw [hashed,ho]
  refine hlog.trans (List.map_congr_left fun n _ => ?_)
  rw [Nat.zero_add]

end ZkasSigner.Chat
