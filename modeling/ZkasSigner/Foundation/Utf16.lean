import ZkasSigner.Foundation.Text

/-! Text as JavaScript sees it: a sequence of 16-bit units. A character beyond the first 2^16 is a pair
of surrogates, and a surrogate that is in no pair stands for no character. -/
namespace Foundation.Utf16
open Foundation.Text

def isHigh (u : UInt16) : Bool := 0xD800 ≤ u.toNat && u.toNat < 0xDC00

def isLow (u : UInt16) : Bool := 0xDC00 ≤ u.toNat && u.toNat < 0xE000

/-- The character of a pair of surrogates. -/
def pair (u v : UInt16) : Char := Char.ofNat (0x10000+(u.toNat-0xD800)*0x400+(v.toNat-0xDC00))

/-- The character of a unit by itself, or the replacement character. -/
def alone (u : UInt16) : Char := if isHigh u || isLow u then '\uFFFD' else Char.ofNat u.toNat

/-- The characters of a text, the first way a unit can be read first. -/
def chars : List UInt16 → List Char
  | [] => []
  | [u] => [alone u]
  | u::v::rest => if isHigh u && isLow v then pair u v::chars rest else alone u::chars (v::rest)

/-- The units of a character. -/
def units (c : Char) : List UInt16 :=
  if c.toNat < 0x10000 then [UInt16.ofNat c.toNat]
  else [UInt16.ofNat (0xD800+(c.toNat-0x10000)/0x400),UInt16.ofNat (0xDC00+(c.toNat-0x10000)%0x400)]

/-- A text of the library, as JavaScript has it. -/
def ofString (s : String) : List UInt16 := s.toList.flatMap units

/-- `TextEncoder.encode`. -/
def encode (text : List UInt16) : List UInt8 := (chars text).flatMap String.utf8EncodeChar

theorem encode_eq (text : List UInt16) : encode text = asBytes (String.ofList (chars text)) :=
  (asBytes_ofList _).symm

theorem chars_cons {u : UInt16} (h : isHigh u = false) (text : List UInt16) : chars (u::text) = alone u::chars text := by
  cases text with
  | nil => rfl
  | cons v rest => rw [chars,h,Bool.false_and,if_neg Bool.false_ne_true]

theorem toNat_not_surrogate (c : Char) : c.toNat < 0xD800 ∨ 0xE000 ≤ c.toNat ∧ c.toNat < 0x110000 := by
  have hvalid : c.toNat.isValidChar := c.valid
  rcases hvalid with h | ⟨h,h'⟩
  · exact .inl h
  · exact .inr ⟨h,h'⟩

theorem chars_units_append (c : Char) (text : List UInt16) : chars (units c ++ text) = c::chars text := by
  have hrange := toNat_not_surrogate c
  rw [units]
  split
  case isTrue hsmall =>
    have hunit : (UInt16.ofNat c.toNat).toNat = c.toNat := by
      simp only [UInt16.toNat_ofNat']
      omega
    have hhigh : isHigh (UInt16.ofNat c.toNat) = false := by
      simp only [isHigh,hunit,Bool.and_eq_false_iff,decide_eq_false_iff_not]
      omega
    have hlow : isLow (UInt16.ofNat c.toNat) = false := by
      simp only [isLow,hunit,Bool.and_eq_false_iff,decide_eq_false_iff_not]
      omega
    rw [List.singleton_append,chars_cons hhigh,alone,hhigh,hlow,Bool.or_false,if_neg Bool.false_ne_true,hunit,
      Char.ofNat_toNat]
  case isFalse hlarge =>
    have hu : (UInt16.ofNat (0xD800+(c.toNat-0x10000)/0x400)).toNat = 0xD800+(c.toNat-0x10000)/0x400 := by
      simp only [UInt16.toNat_ofNat']
      omega
    have hv : (UInt16.ofNat (0xDC00+(c.toNat-0x10000)%0x400)).toNat = 0xDC00+(c.toNat-0x10000)%0x400 := by
      simp only [UInt16.toNat_ofNat']
      omega
    have hhigh : isHigh (UInt16.ofNat (0xD800+(c.toNat-0x10000)/0x400)) = true := by
      simp only [isHigh,hu,Bool.and_eq_true,decide_eq_true_eq]
      omega
    have hlow : isLow (UInt16.ofNat (0xDC00+(c.toNat-0x10000)%0x400)) = true := by
      simp only [isLow,hv,Bool.and_eq_true,decide_eq_true_eq]
      omega
    have hpair : pair (UInt16.ofNat (0xD800+(c.toNat-0x10000)/0x400))
        (UInt16.ofNat (0xDC00+(c.toNat-0x10000)%0x400)) = c := by
      rw [pair,hu,hv]
      have hvalue : 0x10000+(0xD800+(c.toNat-0x10000)/0x400-0xD800)*0x400+
          (0xDC00+(c.toNat-0x10000)%0x400-0xDC00) = c.toNat := by omega
      rw [hvalue,Char.ofNat_toNat]
    change chars (_::_::text) = _
    rw [chars,hhigh,hlow,Bool.and_self,if_pos rfl,hpair]

/-- A text of the library is read back from its units. -/
theorem chars_ofString (s : String) : chars (ofString s) = s.toList := by
  rw [ofString]
  induction s.toList with
  | nil => rfl
  | cons c cs ih => rw [List.flatMap_cons,chars_units_append,ih]

/-! ### Sizes -/

/-- One unit below 2^7 is one byte. -/
theorem encode_ascii_cons {u : UInt16} (h : u.toNat ≤ 0x7F) (text : List UInt16) :
    encode (u::text) = UInt8.ofNat u.toNat::encode text := by
  have hhigh : isHigh u = false := by
    simp only [isHigh,Bool.and_eq_false_iff,decide_eq_false_iff_not]
    omega
  have hlow : isLow u = false := by
    simp only [isLow,Bool.and_eq_false_iff,decide_eq_false_iff_not]
    omega
  have hchar : (Char.ofNat u.toNat).toNat = u.toNat := by
    rw [Char.toNat_ofNat,if_pos (Or.inl (by omega))]
  have hval : (Char.ofNat u.toNat).val.toNat = u.toNat := hchar
  have hbyte : String.utf8EncodeChar (Char.ofNat u.toNat) = [UInt8.ofNat u.toNat] := by
    simp only [String.utf8EncodeChar,hval,if_pos h]
  rw [encode,chars_cons hhigh,alone,hhigh,hlow,Bool.or_false,if_neg Bool.false_ne_true,List.flatMap_cons,hbyte]
  rfl

theorem utf8Size_alone (u : UInt16) : (alone u).utf8Size ≤ 3 := by
  have hsmall : (alone u).val ≤ 0xFFFF := by
    rw [UInt32.le_iff_toNat_le]
    change (alone u).toNat ≤ 0xFFFF
    have hunit := u.toNat_lt
    rw [alone]
    split
    · decide
    · rw [Char.toNat_ofNat]
      split <;> omega
  rw [Char.utf8Size]
  split
  · decide
  split
  · decide
  · exact (if_pos hsmall).le

/-- No unit needs more than three bytes. -/
theorem encode_length (text : List UInt16) : (encode text).length ≤ text.length*3 := by
  induction text using chars.induct with
  | case1 => exact le_refl 0
  | case2 u =>
    have hsize := utf8Size_alone u
    simpa [encode,chars] using hsize
  | case3 u v rest hpair ih =>
    have hsize := (pair u v).utf8Size_le_four
    rw [encode,chars,if_pos hpair,List.flatMap_cons,List.length_append,String.length_utf8EncodeChar,← encode]
    simp only [List.length_cons]
    omega
  | case4 u v rest hpair ih =>
    have hsize := utf8Size_alone u
    rw [encode,chars,if_neg hpair,List.flatMap_cons,List.length_append,String.length_utf8EncodeChar,← encode]
    simp only [List.length_cons] at ih ⊢
    omega

end Foundation.Utf16
