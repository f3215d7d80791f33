import ZkasSigner.Chat.Mining

/-! How a search for a nonce ends. The two least numbers that count, the first nonce that meets the
difficulty and the first one after which the deadline is seen to have passed, decide everything. -/
namespace ZkasSigner.Chat
open Foundation Foundation.Text Foundation.Outcome
variable (X : EventCrates) (a : MineArgs)

/-- The nonces whose id meets the difficulty. -/
def hits : Set ℕ := {n | n < 2^64 ∧ a.difficulty.toNat ≤ leadingZeroBits (minedId X a (UInt64.ofNat n))}

/-- The nonces after which the clock is read and the deadline has passed. -/
def timeouts : Set ℕ :=
  {n | n < 2^64 ∧ ∃ j, n = 8192*j ∧ a.maxMs < saturatingSub (a.clock (j+1)) (a.clock 0)}

/-- The readings taken before an attempt: the first one, and one for each multiple of 8192 below. -/
def readsBefore (n : ℕ) : ℕ := (n+8191)/8192+1

variable {X a}

/-- Only a debug build refuses a nonce, and only the last one. -/
theorem notLast {n : ℕ} (hn : n < 2^64) (hdebug : X.debugBuild = true → n+1 < 2^64) :
    (X.debugBuild && decide (UInt64.ofNat n = 18446744073709551615)) = false := by
  rw [Bool.and_eq_false_iff,decide_eq_false_iff_not]
  by_cases hd : X.debugBuild = true
  · right
    intro he
    have hval := congrArg UInt64.toNat he
    rw [UInt64.toNat_ofNat_of_lt' hn] at hval
    have hlt := hdebug hd
    rw [hval] at hlt
    exact absurd hlt (by decide)
  · left
    simpa using hd

theorem isLast {n : ℕ} (hn : n+1 = 2^64) (hdebug : X.debugBuild = true) :
    (X.debugBuild && decide (UInt64.ofNat n = 18446744073709551615)) = true := by
  have hval : n = 18446744073709551615 := by omega
  rw [hdebug,hval]
  rfl

section
variable {front back : String} (hsplit : ∀ nonce : UInt64, front ++ toString nonce ++ back =
  canonical a.pubkey a.createdAt a.kind (a.tags ++ [nonceTag nonce a.difficulty]) a.content)
include hsplit

/-- An attempt that neither meets the difficulty nor sees the deadline is followed by the next one. -/
theorem mineLoopLogged_next {n : ℕ} {digits : List UInt8} (hl : digits.length = 20) (hn : n < 2^64)
    (hdebug : X.debugBuild = true → n+1 < 2^64) (hmiss : n ∉ hits X a) (hearly : n ∉ timeouts a) :
    ∃ out, out.length = 20 ∧ ∀ rounds,
      mineLoopLogged X a front back (rounds+1) (UInt64.ofNat n) digits (readsBefore n) =
        (attempt a n::(mineLoopLogged X a front back rounds (UInt64.ofNat (n+1)) out (readsBefore (n+1))).1,
          (mineLoopLogged X a front back rounds (UInt64.ofNat (n+1)) out (readsBefore (n+1))).2) := by
  obtain ⟨out,hc,hout⟩ := candidate_attempt hsplit hl n
  have hval : (UInt64.ofNat n).toNat = n := UInt64.toNat_ofNat_of_lt' hn
  have hlast := notLast hn hdebug
  have hhit : ¬ a.difficulty.toNat ≤ leadingZeroBits (X.sha256 (attempt a n)) := fun h => hmiss ⟨hn,h⟩
  have hmod : UInt64.ofNat n % 8192 = 0 ↔ n % 8192 = 0 := by
    rw [← UInt64.toNat_inj,UInt64.toNat_mod,hval]
    rfl
  refine ⟨out,hout,fun rounds => ?_⟩
  simp only [mineLoopLogged,hlast,hc,hhit,hmod,ofNat_succ,Bool.false_eq_true,if_false]
  by_cases hcheck : n % 8192 = 0
  · have hread : readsBefore n = n/8192+1 ∧ readsBefore (n+1) = readsBefore n+1 := by
      unfold readsBefore
      omega
    have hgo : ¬ a.maxMs < saturatingSub (a.clock (readsBefore n)) (a.clock 0) := fun h =>
      hearly ⟨hn,n/8192,by omega,by rw [← hread.1]; exact h⟩
    simp only [hcheck,hgo,hread.2,if_true,if_false]
  · have hread : readsBefore (n+1) = readsBefore n := by
      unfold readsBefore
      omega
    simp only [hcheck,hread,if_false]

/-- The first attempts, none of which ends the search, are hashed one after another. -/
theorem mineLoopLogged_run {k : ℕ} (hk : k ≤ 2^64) (hdebug : X.debugBuild = true → k < 2^64)
    (hmiss : ∀ n < k, n ∉ hits X a) (hearly : ∀ n < k, n ∉ timeouts a) :
    ∃ out, out.length = 20 ∧ ∀ rounds,
      mineLoopLogged X a front back (rounds+k) 0 (List.replicate 20 0) 1 =
        ((List.range k).map (attempt a) ++
            (mineLoopLogged X a front back rounds (UInt64.ofNat k) out (readsBefore k)).1,
          (mineLoopLogged X a front back rounds (UInt64.ofNat k) out (readsBefore k)).2) := by
  induction k with
  | zero => exact ⟨List.replicate 20 0,List.length_replicate,fun rounds => rfl⟩
  | succ k ih =>
    obtain ⟨mid,hmid,hrun⟩ := ih (by omega) (fun hd => by have := hdebug hd; omega)
      (fun n h => hmiss n (by omega)) (fun n h => hearly n (by omega))
    obtain ⟨out,hout,hstep⟩ := mineLoopLogged_next hsplit hmid (by omega) hdebug
      (hmiss k (by omega)) (hearly k (by omega))
    refine ⟨out,hout,fun rounds => ?_⟩
    rw [show rounds+(k+1) = rounds+1+k by omega,hrun,hstep,List.range_succ,List.map_append]
    simp

/-- A nonce that meets the difficulty ends the search, whatever the clock says. -/
theorem mineLoopLogged_hit {m : ℕ} {digits : List UInt8} (hl : digits.length = 20) (h : m ∈ hits X a)
    (hdebug : X.debugBuild = true → m+1 < 2^64) (rounds reads : ℕ) :
    mineLoopLogged X a front back (rounds+1) (UInt64.ofNat m) digits reads =
      ([attempt a m],.ok (a.tags ++ [nonceTag (UInt64.ofNat m) a.difficulty],minedId X a (UInt64.ofNat m))) := by
  obtain ⟨hm,hmeets⟩ := h
  obtain ⟨out,hc,_⟩ := candidate_attempt hsplit hl m
  have hid : X.sha256 (attempt a m) = minedId X a (UInt64.ofNat m) := rfl
  have hassert : eventId X.sha256 a.pubkey a.createdAt a.kind
      (a.tags ++ [nonceTag (UInt64.ofNat m) a.difficulty]) a.content = minedId X a (UInt64.ofNat m) := rfl
  simp only [mineLoopLogged,notLast hm hdebug,hc,hid,hmeets,hassert,ne_eq,not_true_eq_false,decide_false,
    Bool.and_false,Bool.false_eq_true,if_true,if_false]

/-- An attempt after which the deadline has passed ends the search, unless it met the difficulty. -/
theorem mineLoopLogged_timeout {n : ℕ} {digits : List UInt8} (hl : digits.length = 20) (h : n ∈ timeouts a)
    (hmiss : n ∉ hits X a) (rounds : ℕ) :
    (mineLoopLogged X a front back (rounds+1) (UInt64.ofNat n) digits (readsBefore n)).1 = [attempt a n] ∧
    (mineLoopLogged X a front back (rounds+1) (UInt64.ofNat n) digits (readsBefore n)).2.Errs := by
  obtain ⟨hn,j,rfl,hlate⟩ := h
  obtain ⟨out,hc,_⟩ := candidate_attempt hsplit hl (8192*j)
  have hhit : ¬ a.difficulty.toNat ≤ leadingZeroBits (X.sha256 (attempt a (8192*j))) := fun h => hmiss ⟨hn,h⟩
  have hmod : UInt64.ofNat (8192*j) % 8192 = 0 := by
    rw [← UInt64.toNat_inj,UInt64.toNat_mod,UInt64.toNat_ofNat_of_lt' hn]
    exact Nat.mul_mod_right 8192 j
  have hread : readsBefore (8192*j) = j+1 := by
    unfold readsBefore
    omega
  simp only [mineLoopLogged,notLast hn (fun _ => by omega),hc,hhit,hmod,hread,hlate,Bool.false_eq_true,
    if_true,if_false]
  exact ⟨trivial,_,rfl⟩

/-- No search goes past a nonce that ends it. -/
theorem mineLoopLogged_length {s : ℕ} (h : s ∈ hits X a ∨ s ∈ timeouts a) (rounds : ℕ) {n : ℕ} (hn : n ≤ s)
    {digits : List UInt8} (hl : digits.length = 20) :
    (mineLoopLogged X a front back rounds (UInt64.ofNat n) digits (readsBefore n)).1.length ≤ s+1-n := by
  have hs : s < 2^64 := h.elim And.left And.left
  induction rounds generalizing n digits with
  | zero => simp [mineLoopLogged]
  | succ rounds ih =>
    by_cases hdebug : X.debugBuild = true ∧ n+1 = 2^64
    · -- a debug build panics in front of the last nonce, and hashes nothing
      simp [mineLoopLogged,isLast hdebug.2 hdebug.1]
    · by_cases hhit : n ∈ hits X a
      · have hnext : X.debugBuild = true → n+1 < 2^64 := fun hd =>
          Nat.lt_of_le_of_ne (Nat.succ_le_of_lt hhit.1) fun he => hdebug ⟨hd,he⟩
        rw [mineLoopLogged_hit hsplit hl hhit hnext]
        simp only [List.length_singleton]
        omega
      · by_cases hlate : n ∈ timeouts a
        · rw [(mineLoopLogged_timeout hsplit hl hlate hhit rounds).1]
          simp only [List.length_singleton]
          omega
        · have hne : n ≠ s := by
            rintro rfl
            exact h.elim hhit hlate
          obtain ⟨out,hout,hstep⟩ := mineLoopLogged_next hsplit hl (by omega)
            (fun hd => by omega) hhit hlate
          rw [hstep,List.length_cons]
          have hrest := ih (show n+1 ≤ s by omega) hout
          omega

end

/-- The recorded loop is what `mine` runs, on a split of the canonical text. -/
theorem mine_logged (X : EventCrates) (a : MineArgs) : ∃ front back : String,
    (∀ nonce : UInt64, front ++ toString nonce ++ back =
      canonical a.pubkey a.createdAt a.kind (a.tags ++ [nonceTag nonce a.difficulty]) a.content) ∧
    ∀ rounds, mine X a rounds = (mineLoopLogged X a front back rounds 0 (List.replicate 20 0) 1).2 ∧
      hashed X a rounds = (mineLoopLogged X a front back rounds 0 (List.replicate 20 0) 1).1 := by
  obtain ⟨opened,ho⟩ := tagsOpen_ok a.tags
  refine ⟨_,_,fun nonce => mineSplit_canonical ho nonce,fun rounds => ⟨?_,?_⟩⟩
  · rw [mine,ho,ok_bind,mineLoopLogged_snd]
  · rw [hashed,ho]

/-- The least nonce that meets the difficulty is returned, with the input tags in front of its
tag, unless the deadline is seen to have passed before. A debug build never tries the last nonce. -/
theorem mine_of_hit {m : ℕ} (h : IsLeast (hits X a) m) (hearly : ∀ n ∈ timeouts a, m ≤ n)
    (hdebug : X.debugBuild = true → m+1 < 2^64) {rounds : ℕ} (hr : m < rounds) :
    mine X a rounds = .ok (a.tags ++ [nonceTag (UInt64.ofNat m) a.difficulty],minedId X a (UInt64.ofNat m)) ∧
      hashed X a rounds = (List.range (m+1)).map (attempt a) := by
  obtain ⟨hhit,hleast⟩ := h
  obtain ⟨front,back,hsplit,hmine⟩ := mine_logged X a
  obtain ⟨k,rfl⟩ : ∃ k, rounds = k+1+m := ⟨rounds-1-m,by omega⟩
  obtain ⟨out,hout,hrun⟩ := mineLoopLogged_run hsplit hhit.1.le (fun hd => hhit.1)
    (fun n hn hmem => Nat.not_le.mpr hn (hleast hmem)) (fun n hn hmem => Nat.not_le.mpr hn (hearly n hmem))
  obtain ⟨hres,hlog⟩ := hmine (k+1+m)
  rw [hres,hlog,hrun,mineLoopLogged_hit hsplit hout hhit hdebug,List.range_succ,List.map_append]
  exact ⟨rfl,rfl⟩

/-- Once the deadline is seen to have passed, the search gives up, having hashed the texts of
all nonces up to that one. -/
theorem mine_of_timeout {n : ℕ} (h : IsLeast (timeouts a) n) (hmiss : ∀ m ∈ hits X a, n < m) {rounds : ℕ}
    (hr : n < rounds) :
    (mine X a rounds).Errs ∧ hashed X a rounds = (List.range (n+1)).map (attempt a) := by
  obtain ⟨hlate,hleast⟩ := h
  obtain ⟨front,back,hsplit,hmine⟩ := mine_logged X a
  obtain ⟨k,rfl⟩ : ∃ k, rounds = k+1+n := ⟨rounds-1-n,by omega⟩
  obtain ⟨out,hout,hrun⟩ := mineLoopLogged_run hsplit hlate.1.le (fun hd => hlate.1)
    (fun i hi hmem => Nat.not_le.mpr hi (hmiss i hmem).le) (fun i hi hmem => Nat.not_le.mpr hi (hleast hmem))
  obtain ⟨hlog,herrs⟩ := mineLoopLogged_timeout hsplit hout hlate (fun hmem => lt_irrefl n (hmiss n hmem)) k
  obtain ⟨hres,hhashed⟩ := hmine (k+1+n)
  rw [hres,hhashed,hrun,hlog,List.range_succ,List.map_append]
  exact ⟨herrs,rfl⟩

/-- In a debug build a search for the last nonce panics in front of it. -/
theorem mine_of_last {m : ℕ} (hdebug : X.debugBuild = true) (h : IsLeast (hits X a) m) (hm : m+1 = 2^64)
    (hearly : timeouts a = ∅) {rounds : ℕ} (hr : m < rounds) :
    (mine X a rounds).Panics ∧ hashed X a rounds = (List.range m).map (attempt a) := by
  obtain ⟨front,back,hsplit,hmine⟩ := mine_logged X a
  obtain ⟨k,rfl⟩ : ∃ k, rounds = k+1+m := ⟨rounds-1-m,by omega⟩
  obtain ⟨out,hout,hrun⟩ := mineLoopLogged_run hsplit h.1.1.le (fun _ => h.1.1)
    (fun n hn hmem => Nat.not_le.mpr hn (h.2 hmem)) (fun n hn hmem => by rw [hearly] at hmem; exact hmem)
  have hstop : ∀ reads, mineLoopLogged X a front back (k+1) (UInt64.ofNat m) out reads =
      ([],abort "attempt to add with overflow") := by
    intro reads
    simp only [mineLoopLogged,isLast hm hdebug,if_true]
  obtain ⟨hres,hhashed⟩ := hmine (k+1+m)
  rw [hres,hhashed,hrun,hstop,List.append_nil]
  exact ⟨panics_abort _,rfl⟩

lemma toNat_saturatingSub (a b : UInt64) : (saturatingSub a b).toNat = a.toNat-b.toNat := by
  unfold saturatingSub
  split_ifs with h
  · have hlt := UInt64.lt_iff_toNat_lt.mp h
    rw [UInt64.toNat_zero]
    omega
  · exact UInt64.toNat_sub_of_le _ _ (UInt64.le_iff_toNat_le.mpr (Nat.not_lt.mp fun hlt => h (UInt64.lt_iff_toNat_lt.mpr hlt)))

/-- Behind the first attempt by whose end a clock that never goes back has passed the deadline,
fewer than 8192 more are made. -/
theorem hashed_length_le {time : ℕ → UInt64} (hmono : ∀ i j, i ≤ j → time i ≤ time j)
    (hclock : ∀ j, 8192*j < 2^64 → a.clock (j+1) = time (8192*j)) {k : ℕ} (hk : k+8192 ≤ 2^64)
    (hlate : a.maxMs < saturatingSub (time k) (a.clock 0)) (rounds : ℕ) :
    (hashed X a rounds).length ≤ k+8192 := by
  -- the clock is read next after the first multiple of 8192 from `k` on
  have hj : k ≤ 8192*((k+8191)/8192) ∧ 8192*((k+8191)/8192) < k+8192 := by omega
  obtain ⟨hge,hlt⟩ := hj
  have hmem : 8192*((k+8191)/8192) ∈ timeouts a := by
    refine ⟨by omega,_,rfl,?_⟩
    rw [hclock _ (by omega)]
    have hle := UInt64.le_iff_toNat_le.mp (hmono _ _ hge)
    rw [UInt64.lt_iff_toNat_lt,toNat_saturatingSub] at hlate ⊢
    omega
  obtain ⟨front,back,hsplit,hmine⟩ := mine_logged X a
  rw [(hmine rounds).2]
  exact (mineLoopLogged_length hsplit (.inr hmem) rounds (Nat.zero_le _) List.length_replicate).trans (by omega)

/-- No id meets a difficulty above 256. -/
theorem hits_eq_empty (h : 256 < a.difficulty.toNat) : hits X a = ∅ := by
  refine Set.eq_empty_of_forall_notMem fun n hn => ?_
  exact absurd (hn.2.trans (leadingZeroBits_le _)) (by omega)

lemma nonceTag_ofNat {n : ℕ} (h : n < 2^64) (difficulty : UInt32) :
    nonceTag (UInt64.ofNat n) difficulty = ["nonce",toString n,toString difficulty] := by
  have hval : toString (UInt64.ofNat n) = toString (UInt64.ofNat n).toNat := rfl
  rw [nonceTag,hval,UInt64.toNat_ofNat_of_lt' h]

/-- How mining ends, for every event, difficulty and clock: with the first nonce that meets the
difficulty, or with an error at the first look at the clock past the deadline, whichever comes
first. Only the last nonce of all is out of reach of a debug build. -/
theorem mine_outcome (X : EventCrates) (a : MineArgs) :
    (∀ m, IsLeast (hits X a) m → (∀ n ∈ timeouts a, m ≤ n) → (X.debugBuild = true → m+1 < 2^64) → ∀ rounds > m,
      mine X a rounds = .ok (a.tags ++ [["nonce",toString m,toString a.difficulty]],
        eventId X.sha256 a.pubkey a.createdAt a.kind (a.tags ++ [["nonce",toString m,toString a.difficulty]]) a.content) ∧
      hashed X a rounds = (List.range (m+1)).map (attempt a)) ∧
    (∀ n, IsLeast (timeouts a) n → (∀ m ∈ hits X a, n < m) → ∀ rounds > n,
      (mine X a rounds).Errs ∧ hashed X a rounds = (List.range (n+1)).map (attempt a)) ∧
    (∀ m, IsLeast (hits X a) m → timeouts a = ∅ → X.debugBuild = true → m+1 = 2^64 → ∀ rounds > m,
      (mine X a rounds).Panics) ∧
    ∀ time : ℕ → UInt64, (∀ i j, i ≤ j → time i ≤ time j) →
      (∀ j, 8192*j < 2^64 → a.clock (j+1) = time (8192*j)) → ∀ k, k+8192 ≤ 2^64 →
        a.maxMs < saturatingSub (time k) (a.clock 0) → ∀ rounds, (hashed X a rounds).length ≤ k+1+8192 := by
  refine ⟨fun m h hearly hlast rounds hr => ?_,fun n h hmiss rounds hr => mine_of_timeout h hmiss hr,
    fun m h hearly hdebug hm rounds hr => (mine_of_last hdebug h hm hearly hr).1,
    fun time hmono hclock k hk hlate rounds => (hashed_length_le hmono hclock hk hlate rounds).trans (by omega)⟩
  have hm := h.1.1
  have hmine := mine_of_hit h hearly hlast hr
  rw [minedId,nonceTag_ofNat hm] at hmine
  exact hmine

/-- A difficulty no id can meet, and a clock that is past the deadline at its third reading. -/
def hopeless : MineArgs := ⟨"",0,1,[],"x",257,300,fun j => UInt64.ofNat (200*j)⟩

/-- The search gives up after 8193 texts. -/
theorem mine_outcome_hopeless :
    (mine (Recorded.crates []) hopeless 9000).Errs ∧ (hashed (Recorded.crates []) hopeless 9000).length = 8193 := by
  obtain ⟨_,hgives,_⟩ := mine_outcome (Recorded.crates []) hopeless
  have hleast : IsLeast (timeouts hopeless) 8192 := by
    refine ⟨⟨by decide,1,rfl,by decide⟩,?_⟩
    rintro n ⟨_,j,rfl,hj⟩
    cases j with
    | zero => exact absurd hj (by decide)
    | succ j => omega
  have hmiss : hits (Recorded.crates []) hopeless = ∅ := hits_eq_empty (by decide)
  obtain ⟨herrs,hlog⟩ := hgives 8192 hleast (by simp [hmiss]) 9000 (by decide)
  exact ⟨herrs,by rw [hlog,List.length_map,List.length_range]⟩

end ZkasSigner.Chat
