import ZkasSigner.Foundation.Spelling

/-! Hexadecimal text of byte strings: written in lower case, read in either case. -/
namespace Foundation.Hex

/-- The sixteen digits, each at the position of its value. -/
def digits : List Char :=
  ['0','1','2','3','4','5','6','7','8','9','a','b','c','d','e','f']

def encodeChars (bs : List UInt8) : List Char :=
  bs.flatMap fun b => [Nat.digitChar (b.toNat/16),Nat.digitChar (b.toNat%16)]

def encode (bs : List UInt8) : String := String.ofList (encodeChars bs)

def digitValue (c : Char) : Option ℕ := digits.findIdx? (· == c.toLower)

def decodeChars : List Char → Option (List UInt8)
  | [] => some []
  | [_] => none
  | h :: l :: cs =>
    match digitValue h, digitValue l, decodeChars cs with
    | some a, some b, some bs => some (UInt8.ofNat (16*a+b) :: bs)
    | _, _, _ => none

def decode (s : String) : Option (List UInt8) := decodeChars s.toList

lemma digitChar_mem {n : ℕ} (h : n < 16) : Nat.digitChar n ∈ digits := by
  interval_cases n <;> decide

/-- What is checked digit by digit holds of all of them. -/
lemma digits_forall {P : Char → Prop} [DecidablePred P] (h : digits.all (fun d => P d) = true) :
    ∀ d ∈ digits, P d := by
  intro d hd
  simpa using List.all_eq_true.mp h d hd

lemma digits_toLower : ∀ c ∈ digits, c.toLower = c := digits_forall (by decide)

/-- Lower case forms are digits only of the digits themselves, in either case. -/
theorem isAsciiHexdigit_of_toLower_mem {c : Char} (h : c.toLower ∈ digits) :
    Text.isAsciiHexdigit c = true := by
  have hd : ∀ d ∈ digits, Text.isAsciiHexdigit d = true := digits_forall (by decide)
  rw [← Text.isAsciiHexdigit_toLower]
  exact hd _ h

/-- A digit is read as `n` exactly when its lower case form is the one written for `n`. -/
theorem digitValue_eq_some {c : Char} {n : ℕ} :
    digitValue c = some n ↔ n < 16 ∧ c.toLower = Nat.digitChar n := by
  have hread : ∀ n < 16, digits.findIdx? (· == Nat.digitChar n) = some n := by decide
  have hwritten : ∀ d ∈ digits, ∃ n < 16, d = Nat.digitChar n := digits_forall (by decide)
  constructor
  · intro h
    have hm : c.toLower ∈ digits := by
      obtain ⟨hn,he,_⟩ := List.findIdx?_eq_some_iff_getElem.mp h
      exact (beq_iff_eq.mp he) ▸ List.getElem_mem hn
    have hall : ∀ d ∈ digits, ∀ n, digits.findIdx? (· == d) = some n → n < 16 ∧ d = Nat.digitChar n := by
      intro d hd n hn
      obtain ⟨m,hm,rfl⟩ := hwritten d hd
      rw [hread m hm,Option.some.injEq] at hn
      exact hn ▸ ⟨hm,rfl⟩
    exact hall _ hm n h
  · intro h
    obtain ⟨hn,he⟩ := h
    rw [digitValue,he]
    exact hread n hn

lemma encodeChars_cons (b : UInt8) (bs : List UInt8) :
    encodeChars (b::bs) = Nat.digitChar (b.toNat/16) :: Nat.digitChar (b.toNat%16) :: encodeChars bs := rfl

lemma byte_digits (b : UInt8) :
    b.toNat/16 < 16 ∧ b.toNat%16 < 16 ∧ UInt8.ofNat (16*(b.toNat/16)+b.toNat%16) = b := by
  have hb := b.toNat_lt
  refine ⟨by omega,by omega,?_⟩
  rw [show 16*(b.toNat/16)+b.toNat%16 = b.toNat by omega,UInt8.ofNat_toNat]

lemma digits_byte {a b : ℕ} (ha : a < 16) (hb : b < 16) :
    (UInt8.ofNat (16*a+b)).toNat/16 = a ∧ (UInt8.ofNat (16*a+b)).toNat%16 = b := by
  rw [UInt8.toNat_ofNat_of_lt' (by simp only [UInt8.size]; omega)]
  omega

theorem decodeChars_eq_some {cs : List Char} {bs : List UInt8} :
    decodeChars cs = some bs ↔ cs.map Char.toLower = encodeChars bs := by
  induction cs using decodeChars.induct generalizing bs with
  | case1 => cases bs <;> simp [decodeChars,encodeChars]
  | case2 c => cases bs <;> simp [decodeChars,encodeChars]
  | case3 h l cs a b bs' hcs hb ha ih =>
    obtain ⟨ha',hal⟩ := digitValue_eq_some.mp ha
    obtain ⟨hb',hbl⟩ := digitValue_eq_some.mp hb
    simp only [decodeChars,ha,hb,hcs,List.map_cons,hal,hbl,ih.mp hcs,Option.some.injEq]
    constructor
    · rintro rfl
      obtain ⟨h1,h2⟩ := digits_byte ha' hb'
      rw [encodeChars_cons,h1,h2]
    · intro he
      cases bs with
      | nil => cases he
      | cons d ds =>
        obtain ⟨h1,h2,h3⟩ := byte_digits d
        simp only [encodeChars_cons,List.cons.injEq] at he
        have h4 := (digitValue_eq_some.mpr ⟨h1,hal.trans he.1⟩).symm.trans ha
        have h5 := (digitValue_eq_some.mpr ⟨h2,hbl.trans he.2.1⟩).symm.trans hb
        have h6 := (ih.mpr ((ih.mp hcs).trans he.2.2)).symm.trans hcs
        cases h4; cases h5; cases h6
        rw [h3]
  | case4 h l cs hno ih =>
    have hn : decodeChars (h::l::cs) = none := by simp only [decodeChars]
    simp only [hn,reduceCtorEq,false_iff]
    intro he
    cases bs with
    | nil => cases he
    | cons d ds =>
      obtain ⟨h1,h2,_⟩ := byte_digits d
      simp only [List.map_cons,encodeChars_cons,List.cons.injEq] at he
      exact hno _ _ _ (digitValue_eq_some.mpr ⟨h1,he.1⟩) (digitValue_eq_some.mpr ⟨h2,he.2.1⟩)
        (ih.mpr he.2.2)

/-- Text is read as some bytes exactly when its lower case form is what is written for them. -/
theorem decode_eq_some {s : String} {bs : List UInt8} :
    decode s = some bs ↔ Text.toAsciiLowercase s = encode bs := by
  rw [decode,decodeChars_eq_some,← String.toList_inj]
  simp [encode]

theorem encodeChars_length (bs : List UInt8) : (encodeChars bs).length = 2*bs.length := by
  induction bs with
  | nil => rfl
  | cons b bs ih =>
    rw [encodeChars_cons,List.length_cons,List.length_cons,List.length_cons,ih]
    omega

/-- A digit of either case has a value. -/
lemma digitValue_of_isAsciiHexdigit {c : Char} (h : Text.isAsciiHexdigit c = true) :
    ∃ n, digitValue c = some n := by
  have hall : ∀ n < 103, Text.isAsciiHexdigit (Char.ofNat n) = true →
      (digitValue (Char.ofNat n)).isSome = true := by decide
  have hn : c.toNat < 103 := by
    have hb := Text.isAsciiHexdigit_iff.mp h
    omega
  rw [← Char.ofNat_toNat c] at h ⊢
  exact Option.isSome_iff_exists.mp (hall c.toNat hn h)

/-- Every even number of digits is read. -/
theorem decodeChars_total {cs : List Char} (h : ∀ c ∈ cs, Text.isAsciiHexdigit c = true)
    (heven : cs.length % 2 = 0) : ∃ bs, decodeChars cs = some bs := by
  induction cs using decodeChars.induct with
  | case1 => exact ⟨[],rfl⟩
  | case2 c => simp at heven
  | case3 d l cs a b bs hcs hb ha ih =>
    exact ⟨UInt8.ofNat (16*a+b)::bs,by simp only [decodeChars,ha,hb,hcs]⟩
  | case4 d l cs hno ih =>
    obtain ⟨a,ha⟩ := digitValue_of_isAsciiHexdigit (h d (by simp))
    obtain ⟨b,hb⟩ := digitValue_of_isAsciiHexdigit (h l (by simp))
    obtain ⟨bs,hbs⟩ := ih (fun c hc => h c (by simp [hc])) (by simp only [List.length_cons] at heven; omega)
    exact absurd hbs (hno a b bs ha hb)

theorem encodeChars_mem {bs : List UInt8} : ∀ c ∈ encodeChars bs, c ∈ digits := by
  intro c hc
  obtain ⟨b,_,hb⟩ := List.mem_flatMap.mp hc
  obtain ⟨h1,h2,_⟩ := byte_digits b
  simp only [List.mem_cons,List.not_mem_nil,or_false] at hb
  rcases hb with rfl | rfl
  · exact digitChar_mem h1
  · exact digitChar_mem h2

theorem encode_mem {bs : List UInt8} : ∀ c ∈ (encode bs).toList, c ∈ digits := by
  simpa [encode] using encodeChars_mem

end Foundation.Hex
