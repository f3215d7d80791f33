import Mathlib

/-! Text as the Rust standard library sees it: a string is a sequence of Unicode
scalar values, stored as its UTF-8 bytes, and lengths and slices count those bytes. -/
namespace Foundation.Text

/-- `str::as_bytes`. -/
def asBytes (s : String) : List UInt8 := s.toByteArray.data.toList

@[simp] theorem asBytes_append (s t : String) : asBytes (s++t) = asBytes s ++ asBytes t := by
  simp [asBytes,String.toByteArray_append,ByteArray.data_append]

theorem asBytes_injective : Function.Injective asBytes := by
  intro s t h
  rw [← String.toByteArray_inj]
  exact ByteArray.ext (Array.ext' h)

theorem asBytes_length (s : String) : (asBytes s).length = s.utf8ByteSize := by
  simp [asBytes]

/-- The text that some bytes spell, if they spell one. -/
def decodeUtf8 (bytes : List UInt8) : Option String := String.fromUTF8? ⟨bytes.toArray⟩

theorem decodeUtf8_eq_some {bytes : List UInt8} {s : String} : decodeUtf8 bytes = some s ↔ bytes = asBytes s := by
  rw [decodeUtf8,String.fromUTF8?]
  constructor
  · intro h
    split at h
    · cases h
      rfl
    · cases h
  · rintro rfl
    have hbytes : (⟨(asBytes s).toArray⟩ : ByteArray) = s.toByteArray := rfl
    rw [hbytes,dif_pos s.isValidUTF8]
    rfl

theorem asBytes_ofList (cs : List Char) :
    asBytes (String.ofList cs) = cs.flatMap String.utf8EncodeChar := by
  simp [asBytes,List.utf8Encode]

theorem asBytes_ofList_ascii {cs : List Char} (h : ∀ c ∈ cs, c.toNat < 128) :
    asBytes (String.ofList cs) = cs.map (fun c => UInt8.ofNat c.toNat) := by
  rw [asBytes_ofList]
  induction cs with
  | nil => rfl
  | cons c cs ih =>
    have hc : c.toNat < 128 := h c (by simp)
    have he : String.utf8EncodeChar c = [UInt8.ofNat c.toNat] := by
      have hv : c.val.toNat ≤ 127 := by change c.toNat ≤ 127; omega
      simp only [String.utf8EncodeChar,hv,if_true]
      rfl
    rw [List.flatMap_cons,he,ih (fun d hd => h d (by simp [hd]))]
    rfl

/-- `char::is_ascii_hexdigit`. -/
def isAsciiHexdigit (c : Char) : Bool :=
  ('0' ≤ c && c ≤ '9') || ('a' ≤ c && c ≤ 'f') || ('A' ≤ c && c ≤ 'F')

/-- Every character is an ASCII hexadecimal digit, of either letter case. -/
def IsHex (s : String) : Prop := s.toList.all isAsciiHexdigit = true

instance (s : String) : Decidable (IsHex s) := inferInstanceAs (Decidable (_ = true))

/-- `str::to_ascii_lowercase`. -/
def toAsciiLowercase (s : String) : String := String.ofList (s.toList.map Char.toLower)

@[simp] theorem toList_toAsciiLowercase (s : String) :
    (toAsciiLowercase s).toList = s.toList.map Char.toLower := by simp [toAsciiLowercase]

def NoUppercase (s : String) : Prop := s.toList.all (fun c => !c.isUpper) = true

instance (s : String) : Decidable (NoUppercase s) := inferInstanceAs (Decidable (_ = true))

lemma toLower_eq_self {c : Char} : c.toLower = c ↔ c.isUpper = false := by
  constructor
  · intro h
    rw [← h]
    exact Char.isUpper_toLower_eq_false c
  · intro h
    apply Char.toLower_eq_of_not_isUpper
    simp [h]

theorem toAsciiLowercase_eq_self {s : String} : toAsciiLowercase s = s ↔ NoUppercase s := by
  rw [← String.toList_inj,toList_toAsciiLowercase,NoUppercase,List.all_eq_true]
  constructor
  · intro h c hc
    have hl : c.toLower = id c := List.map_inj_left.mp (h.trans (List.map_id _).symm) c hc
    simpa using toLower_eq_self.mp hl
  · intro h
    have hl : ∀ c ∈ s.toList, c.toLower = id c := fun c hc =>
      toLower_eq_self.mpr (by simpa using h c hc)
    rw [List.map_congr_left hl,List.map_id]

/-- `char::is_whitespace`, the Unicode `White_Space` property. -/
def isWhitespace (c : Char) : Bool :=
  let n := c.toNat
  (0x9 ≤ n && n ≤ 0xD) || n = 0x20 || n = 0x85 || n = 0xA0 || n = 0x1680 ||
    (0x2000 ≤ n && n ≤ 0x200A) || n = 0x2028 || n = 0x2029 || n = 0x202F || n = 0x205F || n = 0x3000

/-- `str::trim`. -/
def trim (s : String) : String :=
  String.ofList ((s.toList.dropWhile isWhitespace).reverse.dropWhile isWhitespace).reverse

/-- `str::split_whitespace`: split at every white space character, drop the empty pieces. -/
def splitWhitespace (s : String) : List String :=
  ((s.toList.splitOnP isWhitespace).filter (fun w => !w.isEmpty)).map String.ofList

/-- The front part of some characters that is `n` bytes long, if a character ends there. -/
def takeBytes : List Char → ℕ → Option (List Char)
  | _, 0 => some []
  | [], _+1 => none
  | c :: cs, n+1 =>
    if c.utf8Size ≤ n+1 then (takeBytes cs (n+1-c.utf8Size)).map (c :: ·) else none

/-- `&s[..n]`; there is no slice when `n` is not a character boundary of `s`. -/
def sliceTo (s : String) (n : ℕ) : Option String := (takeBytes s.toList n).map String.ofList

theorem takeBytes_append (l r : List Char) :
    takeBytes (l++r) (l.map Char.utf8Size).sum = some l := by
  induction l with
  | nil => simp [takeBytes]
  | cons c l ih =>
    have hp : 0 < c.utf8Size := c.utf8Size_pos
    obtain ⟨k,hk⟩ : ∃ k, c.utf8Size + (l.map Char.utf8Size).sum = k+1 := ⟨_,(Nat.succ_pred (by omega)).symm⟩
    have hr : k+1-c.utf8Size = (l.map Char.utf8Size).sum := by omega
    simp only [List.cons_append,List.map_cons,List.sum_cons,hk,takeBytes]
    rw [if_pos (by omega),hr,ih]
    rfl

theorem utf8ByteSize_eq_sum (s : String) :
    s.utf8ByteSize = (s.toList.map Char.utf8Size).sum := by
  rw [← asBytes_length,← String.ofList_toList (s := s),asBytes_ofList,List.length_flatMap]
  simp [String.length_utf8EncodeChar]

/-- Cutting one byte off the end removes exactly a final one-byte character. -/
theorem sliceTo_dropLast (s : String) {c : Char} (hc : c.utf8Size = 1) :
    sliceTo (s++String.singleton c) ((s++String.singleton c).utf8ByteSize-1) = some s := by
  have hn : (s++String.singleton c).utf8ByteSize-1 = (s.toList.map Char.utf8Size).sum := by
    rw [String.utf8ByteSize_append,String.utf8ByteSize_singleton,hc,utf8ByteSize_eq_sum s]
    omega
  rw [hn,sliceTo,String.toList_append,takeBytes_append]
  simp

end Foundation.Text
