import ZkasSigner.Crates.Keys
import ZkasSigner.Foundation.Base32

/-! The `bech32` crate in both directions, as the decoders of shared keys call it. -/
namespace ZkasSigner
open Foundation Foundation.Text

structure Bech32Crate extends Bech32 where
  decode : String → Except String (String × List (Fin 32) × Variant)
  fromBase32 : List (Fin 32) → Except String (List UInt8)

/-- Capital and small letters are not mixed. -/
def SingleCase (s : String) : Prop :=
  (s.toList.any Char.isUpper && s.toList.any Char.isLower) = false

instance (s : String) : Decidable (SingleCase s) := inferInstanceAs (Decidable (_ = false))

/-- Decoding undoes encoding, on texts of a single letter case and up to that case, and accepts
nothing else; groups stand for bytes exactly when they regroup to them. -/
structure Bech32Crate.Documented (B : Bech32Crate) : Prop where
  regroups : ∀ bs, Base32.Regroups (B.toBase32 bs) bs
  fromBase32_ok : ∀ d bs, B.fromBase32 d = .ok bs ↔ Base32.Regroups d bs
  decode_ok : ∀ s hrp data v, B.decode s = .ok (hrp,data,v) ↔
    SingleCase s ∧ NoUppercase hrp ∧ B.encode hrp data v = .ok (toAsciiLowercase s)
  encode_letters : ∀ hrp, hrp = "npub" ∨ hrp = "nsec" → ∀ data v, ∃ s, B.encode hrp data v = .ok s ∧
    ∀ c ∈ s.toList, c.isLower = true ∨ c.isDigit = true

/-! ### The crate, computed -/
namespace Recorded

/-- `check_hrp`. -/
def checkHrp (hrp : String) : Bool :=
  0 < hrp.utf8ByteSize && hrp.utf8ByteSize ≤ 83 && hrp.toList.all (fun c => 33 ≤ c.toNat && c.toNat ≤ 126)

def symbol (d : Fin 32) : Char := charset.getD d.val 'q'

def symbolValue (c : Char) : Option (Fin 32) := (List.finRange 32).find? fun d => symbol d = c

def bech32Text (hrp : String) (data : List (Fin 32)) (variant : Variant) : String :=
  hrp ++ "1" ++ String.ofList ((data ++ checksum hrp data variant).map symbol)

/-- A text in small letters: the last `1` separates the two parts, and the last six symbols are
the checksum of one of the variants. -/
def decodeLower (s : String) : Except String (String × List (Fin 32) × Variant) :=
  let back := (s.toList.reverse.takeWhile (· ≠ '1')).reverse
  match s.toList.reverse.dropWhile (· ≠ '1') with
  | [] => .error "missing human-readable separator, \"1\""
  | _ :: front =>
    let hrp := String.ofList front.reverse
    match back.mapM symbolValue with
    | none => .error "invalid character"
    | some data =>
      let payload := data.take (data.length-6)
      if data.length < 6 || !checkHrp hrp then .error "invalid length"
      else if data.drop (data.length-6) = checksum hrp payload .bech32 then .ok (hrp,payload,.bech32)
      else if data.drop (data.length-6) = checksum hrp payload .bech32m then .ok (hrp,payload,.bech32m)
      else .error "invalid checksum"

def bech32Crate : Bech32Crate where
  toBase32 := Base32.ofBytes
  encode hrp data variant :=
    if checkHrp hrp then .ok (bech32Text (toAsciiLowercase hrp) data variant) else .error "invalid length"
  decode s := if SingleCase s then decodeLower (toAsciiLowercase s) else .error "mixed-case strings not allowed"
  fromBase32 d :=
    match Base32.toBytes d with
    | some bs => .ok bs
    | none => .error "invalid padding"

lemma symbol_facts : ∀ d : Fin 32, symbolValue (symbol d) = some d ∧ symbol d ≠ '1' ∧
    ((symbol d).isLower = true ∨ (symbol d).isDigit = true) ∧ (symbol d).isUpper = false := by decide

lemma symbol_of_symbolValue {c : Char} {d : Fin 32} (h : symbolValue c = some d) : symbol d = c := by
  simpa using List.find?_some h

lemma mapM_symbolValue {cs : List Char} {ds : List (Fin 32)} (h : cs.mapM symbolValue = some ds) :
    ds.map symbol = cs := by
  induction cs generalizing ds with
  | nil =>
    cases h
    rfl
  | cons c cs ih =>
    rw [List.mapM_cons] at h
    obtain ⟨d,hd,h⟩ := Option.bind_eq_some_iff.mp h
    obtain ⟨es,hes,h⟩ := Option.bind_eq_some_iff.mp h
    cases h
    rw [List.map_cons,symbol_of_symbolValue hd,ih hes]

lemma mapM_symbol (ds : List (Fin 32)) : (ds.map symbol).mapM symbolValue = some ds := by
  induction ds with
  | nil => rfl
  | cons d ds ih =>
    rw [List.map_cons,List.mapM_cons,(symbol_facts d).1,ih]
    rfl

@[simp] lemma checksum_length (hrp : String) (data : List (Fin 32)) (variant : Variant) :
    (checksum hrp data variant).length = 6 := by
  simp [checksum]

/-- The last symbol of the checksum tells the variants apart. -/
lemma checksum_variant (hrp : String) (data : List (Fin 32)) :
    checksum hrp data .bech32 ≠ checksum hrp data .bech32m := by
  intro h
  have hlast : ∀ S : ℕ, (S ^^^ 1) % 2^5 ≠ (S ^^^ 0x2bc830a3) % 2^5 := by
    intro S he
    have hbit := congrArg (fun n => n.testBit 1) he
    have h1 : Nat.testBit 1 1 = false := rfl
    have h2 : Nat.testBit 0x2bc830a3 1 = true := rfl
    simp only [Nat.testBit_mod_two_pow,Nat.testBit_xor,h1,h2] at hbit
    cases hb : S.testBit 1 <;> simp [hb] at hbit
  have hend := congrArg (fun l => (l[5]?).map Fin.val) h
  simp only [checksum,List.range,List.range.loop] at hend
  exact hlast _ (by simpa using hend)

/-- A text is split at its last separator. -/
lemma toList_of_split {s : String} {c : Char} {front : List Char} {ds : List (Fin 32)}
    (hfront : s.toList.reverse.dropWhile (· ≠ '1') = c::front)
    (hdata : (s.toList.reverse.takeWhile (· ≠ '1')).reverse.mapM symbolValue = some ds) :
    s.toList = front.reverse ++ '1'::ds.map symbol := by
  have hsep : c = '1' := by
    have hhead := List.head?_dropWhile_not (fun c : Char => decide (c ≠ '1')) s.toList.reverse
    rw [hfront] at hhead
    simpa using hhead
  have happ := List.takeWhile_append_dropWhile (p := fun c : Char => decide (c ≠ '1')) (l := s.toList.reverse)
  rw [hfront,hsep] at happ
  rw [← List.reverse_reverse s.toList,← happ,mapM_symbolValue hdata]
  simp

lemma bech32Text_of_decodeLower {s hrp : String} {data : List (Fin 32)} {variant : Variant} (hs : NoUppercase s)
    (h : decodeLower s = .ok (hrp,data,variant)) :
    NoUppercase hrp ∧ checkHrp hrp = true ∧ bech32Text hrp data variant = s := by
  cases hfront : s.toList.reverse.dropWhile (· ≠ '1') with
  | nil => simp only [decodeLower,hfront,reduceCtorEq] at h
  | cons c front =>
    cases hdata : (s.toList.reverse.takeWhile (· ≠ '1')).reverse.mapM symbolValue with
    | none => simp only [decodeLower,hfront,hdata,reduceCtorEq] at h
    | some ds =>
      have hsplit := toList_of_split hfront hdata
      have hlow : NoUppercase (String.ofList front.reverse) := by
        rw [NoUppercase,hsplit,List.all_append,Bool.and_eq_true] at hs
        rw [NoUppercase,String.toList_ofList]
        exact hs.1
      have htext : ∀ variant, ds.drop (ds.length-6) =
          checksum (String.ofList front.reverse) (ds.take (ds.length-6)) variant →
          bech32Text (String.ofList front.reverse) (ds.take (ds.length-6)) variant = s := by
        intro variant hsum
        rw [bech32Text,← hsum,List.take_append_drop,← String.toList_inj,hsplit]
        simp
      simp only [decodeLower,hfront,hdata] at h
      split_ifs at h with hbad h1 h2
      all_goals
        simp only [Bool.or_eq_true,Bool.not_eq_true',not_or,Bool.not_eq_false] at hbad
        cases h
      · exact ⟨hlow,hbad.2,htext _ h1⟩
      · exact ⟨hlow,hbad.2,htext _ h2⟩

lemma decodeLower_bech32Text {hrp : String} {data : List (Fin 32)} {variant : Variant} (hcheck : checkHrp hrp = true) :
    decodeLower (bech32Text hrp data variant) = .ok (hrp,data,variant) := by
  have hsymbols : ∀ c ∈ ((data ++ checksum hrp data variant).map symbol).reverse, c ≠ '1' := by
    intro c hc
    obtain ⟨d,_,rfl⟩ := List.mem_map.mp (List.mem_reverse.mp hc)
    exact (symbol_facts d).2.1
  have hrev : (bech32Text hrp data variant).toList.reverse =
      ((data ++ checksum hrp data variant).map symbol).reverse ++ '1'::hrp.toList.reverse := by
    simp [bech32Text]
  have hfront : (bech32Text hrp data variant).toList.reverse.dropWhile (· ≠ '1') = '1'::hrp.toList.reverse := by
    rw [hrev,List.dropWhile_append_of_pos (by simpa using hsymbols)]
    rfl
  have hback : (bech32Text hrp data variant).toList.reverse.takeWhile (· ≠ '1') =
      ((data ++ checksum hrp data variant).map symbol).reverse := by
    rw [hrev,List.takeWhile_append_of_pos (by simpa using hsymbols)]
    simp
  have hlen : (data ++ checksum hrp data variant).length-6 = data.length := by simp
  have hsix : ¬ (data ++ checksum hrp data variant).length < 6 := by simp
  simp only [decodeLower,hfront,hback,List.reverse_reverse,mapM_symbol,String.ofList_toList,hlen,
    List.take_left,List.drop_left,hcheck,hsix,decide_false,Bool.not_true,Bool.or_self,Bool.false_eq_true,if_false]
  cases variant with
  | bech32 => rw [if_pos rfl]
  | bech32m => rw [if_neg (checksum_variant hrp data).symm,if_pos rfl]

/-- What the small letters of a text are decoded to is what encodes to it. -/
theorem decodeLower_ok {s hrp : String} {data : List (Fin 32)} {variant : Variant} (hs : NoUppercase s) :
    decodeLower s = .ok (hrp,data,variant) ↔
      NoUppercase hrp ∧ checkHrp hrp = true ∧ bech32Text hrp data variant = s := by
  constructor
  · intro h
    exact bech32Text_of_decodeLower hs h
  · intro h
    obtain ⟨_,hcheck,rfl⟩ := h
    exact decodeLower_bech32Text hcheck

lemma noUppercase_toAsciiLowercase (s : String) : NoUppercase (toAsciiLowercase s) := by
  simp [NoUppercase]

theorem bech32Crate_documented : bech32Crate.Documented where
  regroups := Base32.ofBytes_regroups
  fromBase32_ok d bs := by
    rw [← Base32.toBytes_eq_some]
    simp only [bech32Crate]
    cases Base32.toBytes d <;> simp
  decode_ok s hrp data variant := by
    simp only [bech32Crate]
    by_cases hs : SingleCase s
    · rw [if_pos hs,decodeLower_ok (noUppercase_toAsciiLowercase s)]
      constructor
      · intro h
        obtain ⟨hlow,hcheck,htext⟩ := h
        exact ⟨hs,hlow,by rw [if_pos hcheck,toAsciiLowercase_eq_self.mpr hlow,htext]⟩
      · intro h
        obtain ⟨_,hlow,h⟩ := h
        by_cases hcheck : checkHrp hrp = true
        · rw [if_pos hcheck,toAsciiLowercase_eq_self.mpr hlow,Except.ok.injEq] at h
          exact ⟨hlow,hcheck,h⟩
        · rw [if_neg hcheck] at h
          cases h
    · simp [hs]
  encode_letters hrp hhrp data variant := by
    have hstatic : checkHrp hrp = true ∧
        (toAsciiLowercase hrp).toList.all (fun c => c.isLower || c.isDigit) = true := by
      rcases hhrp with rfl | rfl <;> decide
    refine ⟨_,if_pos hstatic.1,fun c hc => ?_⟩
    simp only [bech32Text,String.toList_append,String.toList_ofList,List.mem_append] at hc
    rcases hc with (hc | hc) | hc
    · simpa using List.all_eq_true.mp hstatic.2 c hc
    · have hone : c = '1' := by simpa using hc
      rw [hone]
      decide
    · obtain ⟨d,_,rfl⟩ := List.mem_map.mp hc
      exact (symbol_facts d).2.2.1

end Recorded
end ZkasSigner
