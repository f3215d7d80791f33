import ZkasSigner.Foundation.Text
import ZkasSigner.Foundation.Words

/-! Two spellings of one text: the white space around its words, and the case of its ASCII
letters. Lowering by the Unicode tables does not see either spelling of a letter. -/
namespace Foundation.Text
open Foundation.Words

lemma isUpper_iff {c : Char} : c.isUpper = true ↔ 65 ≤ c.toNat ∧ c.toNat ≤ 90 := by
  simp [Char.isUpper,UInt32.le_iff_toNat_le]

lemma toNat_toLower {c : Char} (h : c.isUpper = true) : c.toLower.toNat = c.toNat+32 := by
  have hb := isUpper_iff.mp h
  have hv : (c.toNat+32).isValidChar := by
    left
    omega
  rw [Char.toLower_eq_of_isUpper h,Char.toNat_ofNat,if_pos hv]

lemma isAsciiHexdigit_iff {c : Char} : isAsciiHexdigit c = true ↔
    (48 ≤ c.toNat ∧ c.toNat ≤ 57) ∨ (97 ≤ c.toNat ∧ c.toNat ≤ 102) ∨ (65 ≤ c.toNat ∧ c.toNat ≤ 70) := by
  simp [isAsciiHexdigit,Char.le_def,UInt32.le_iff_toNat_le,or_assoc]

theorem isAsciiHexdigit_toLower (c : Char) : isAsciiHexdigit c.toLower = isAsciiHexdigit c := by
  by_cases hu : c.isUpper = true
  · have hb := isUpper_iff.mp hu
    rw [Bool.eq_iff_iff,isAsciiHexdigit_iff,isAsciiHexdigit_iff,toNat_toLower hu]
    omega
  · rw [Char.toLower_eq_of_not_isUpper hu]

lemma not_isWhitespace_of_isAsciiHexdigit {c : Char} (h : isAsciiHexdigit c = true) :
    isWhitespace c = false := by
  have hb := isAsciiHexdigit_iff.mp h
  simp only [isWhitespace,Bool.or_eq_false_iff,Bool.and_eq_false_iff,decide_eq_false_iff_not]
  omega

/-- A small letter or a decimal digit is neither a capital nor white space. -/
lemma plain_of_lower_or_digit {c : Char} (h : c.isLower = true ∨ c.isDigit = true) :
    c.isUpper = false ∧ isWhitespace c = false := by
  have hb : 97 ≤ c.toNat ∧ c.toNat ≤ 122 ∨ 48 ≤ c.toNat ∧ c.toNat ≤ 57 := by
    simpa [Char.isLower,Char.isDigit,UInt32.le_iff_toNat_le] using h
  rw [Bool.eq_false_iff,ne_eq,isUpper_iff]
  simp only [isWhitespace,Bool.or_eq_false_iff,Bool.and_eq_false_iff,decide_eq_false_iff_not]
  omega

lemma utf8Size_of_ascii {c : Char} (h : c.toNat < 128) : c.utf8Size = 1 := by
  have hv : c.val ≤ 0x7f := by
    rw [UInt32.le_iff_toNat_le]
    exact Nat.le_of_lt_succ h
  exact if_pos hv

theorem utf8Size_toLower (c : Char) : c.toLower.utf8Size = c.utf8Size := by
  by_cases hu : c.isUpper = true
  · have hb := isUpper_iff.mp hu
    have hl := toNat_toLower hu
    rw [utf8Size_of_ascii (by omega),utf8Size_of_ascii (by omega)]
  · rw [Char.toLower_eq_of_not_isUpper hu]

/-! ### White space -/

theorem splitWhitespace_trim (s : String) : splitWhitespace (trim s) = splitWhitespace s := by
  change ((words isWhitespace (trim s).toList).map String.ofList) = _
  rw [trim,String.toList_ofList]
  exact congrArg (List.map String.ofList) (words_stripped s.toList)

theorem trim_of_no_blank {s : String} (h : ∀ c ∈ s.toList, isWhitespace c = false) : trim s = s := by
  change String.ofList (stripped isWhitespace s.toList) = s
  rw [stripped_of_no_blank h,String.ofList_toList]

theorem splitWhitespace_of_no_blank {s : String} (hne : s ≠ "")
    (h : ∀ c ∈ s.toList, isWhitespace c = false) : splitWhitespace s = [s] := by
  change (words isWhitespace s.toList).map String.ofList = [s]
  rw [words_of_no_blank (by simpa using hne) h,List.map_singleton,String.ofList_toList]

/-- Around a single word there is nothing but white space. -/
theorem trim_of_single_word {s w : String} (h : splitWhitespace s = [w]) : trim s = w := by
  obtain ⟨cs,hcs,rfl⟩ := List.map_eq_singleton_iff.mp h
  exact congrArg String.ofList (stripped_of_single_word hcs)

theorem trim_eq_empty {s : String} : trim s = "" ↔ splitWhitespace s = [] := by
  change String.ofList (stripped isWhitespace s.toList) = String.ofList [] ↔
    (words isWhitespace s.toList).map String.ofList = []
  rw [String.ofList_inj,List.map_eq_nil_iff,stripped_eq_nil]

/-! ### Letter case -/

/-- The same text up to the case of ASCII letters. -/
def SameLetters (s t : String) : Prop := toAsciiLowercase s = toAsciiLowercase t

/-- The same words up to the case of ASCII letters, with any white space around them. -/
def SameWords (s t : String) : Prop := List.Forall₂ SameLetters (splitWhitespace s) (splitWhitespace t)

theorem SameWords.symm {s t : String} (h : SameWords s t) : SameWords t s :=
  List.Forall₂.flip (h.imp fun _ _ h => Eq.symm h)

theorem SameLetters.utf8ByteSize {s t : String} (h : SameLetters s t) : s.utf8ByteSize = t.utf8ByteSize := by
  have hl : ∀ s : String, (toAsciiLowercase s).utf8ByteSize = s.utf8ByteSize := by
    intro s
    rw [utf8ByteSize_eq_sum,utf8ByteSize_eq_sum,toList_toAsciiLowercase,List.map_map]
    exact congrArg List.sum (List.map_congr_left fun c _ => utf8Size_toLower c)
  rw [← hl s,h,hl t]

theorem SameLetters.isHex {s t : String} (h : SameLetters s t) (hs : IsHex s) : IsHex t := by
  have hl : ∀ s, IsHex (toAsciiLowercase s) ↔ IsHex s := by
    intro s
    simp [IsHex,isAsciiHexdigit_toLower]
  rw [← hl t,← h,hl s]
  exact hs

/-- What a text is lowered by: the tables of the Unicode standard, of which only the ASCII
part is pinned down. -/
structure CaseTables where
  lower : Char → List Char
  cased : Char → Bool
  caseIgnorable : Char → Bool
  lower_ascii : ∀ c, c.toNat < 128 → lower c = [c.toLower]
  cased_letter : ∀ c, c.isAlpha = true → cased c = true
  caseIgnorable_letter : ∀ c, c.isAlpha = true → caseIgnorable c = false

namespace CaseTables
variable (T : CaseTables)

/-- The first character that is not ignored is a letter. -/
def meetsCased (cs : List Char) : Bool :=
  match cs.dropWhile T.caseIgnorable with
  | c :: _ => T.cased c
  | [] => false

/-- The loop of `str::to_lowercase`, with the characters already passed. A capital sigma becomes
a final one behind a letter, when no letter follows. -/
def lowerFrom : List Char → List Char → List Char
  | _, [] => []
  | before, c :: rest =>
    (if c = 'Σ' then [if T.meetsCased before && !T.meetsCased rest then 'ς' else 'σ'] else T.lower c) ++
      lowerFrom (c :: before) rest

/-- `str::to_lowercase`. -/
def toLowercase (s : String) : String := String.ofList (T.lowerFrom [] s.toList)

variable {T}

lemma isAlpha_of_isUpper {c : Char} (h : c.isUpper = true) : c.isAlpha = true := by
  simp [Char.isAlpha,h]

/-- Nothing the loop looks at tells a letter from its lower case form. -/
lemma reads_toLower (c : Char) : T.lower c.toLower = T.lower c ∧ T.cased c.toLower = T.cased c ∧
    T.caseIgnorable c.toLower = T.caseIgnorable c ∧ (c.toLower = 'Σ' ↔ c = 'Σ') := by
  by_cases hu : c.isUpper = true
  · have hb := isUpper_iff.mp hu
    have hl := toNat_toLower hu
    have ha := isAlpha_of_isUpper hu
    have ha' : c.toLower.isAlpha = true := by rw [Char.isAlpha_toLower_eq_isAlpha,ha]
    have hsigma : 'Σ'.toNat = 931 := rfl
    refine ⟨?_,?_,?_,?_⟩
    · rw [T.lower_ascii c (by omega),T.lower_ascii c.toLower (by omega),Char.toLower_toLower_eq_toLower]
    · rw [T.cased_letter c ha,T.cased_letter c.toLower ha']
    · rw [T.caseIgnorable_letter c ha,T.caseIgnorable_letter c.toLower ha']
    · refine iff_of_false (fun h => ?_) fun h => ?_
      · rw [h] at hl
        omega
      · rw [h] at hb
        omega
  · rw [Char.toLower_eq_of_not_isUpper hu]
    exact ⟨rfl,rfl,rfl,Iff.rfl⟩

lemma meetsCased_toLower (cs : List Char) : T.meetsCased (cs.map Char.toLower) = T.meetsCased cs := by
  induction cs with
  | nil => rfl
  | cons c cs ih =>
    obtain ⟨_,hcased,hignore,_⟩ := reads_toLower (T := T) c
    unfold meetsCased at ih ⊢
    rw [List.map_cons,List.dropWhile_cons,List.dropWhile_cons,hignore]
    split_ifs
    · exact ih
    · exact hcased

lemma lowerFrom_toLower (before rest : List Char) :
    T.lowerFrom (before.map Char.toLower) (rest.map Char.toLower) = T.lowerFrom before rest := by
  induction rest generalizing before with
  | nil => rfl
  | cons c rest ih =>
    obtain ⟨hlower,_,_,hsigma⟩ := reads_toLower (T := T) c
    have hrest := ih (c::before)
    rw [List.map_cons] at hrest
    simp only [List.map_cons,lowerFrom,hrest,meetsCased_toLower,hlower,hsigma]

/-- Texts that differ only in the case of ASCII letters are lowered to one text. -/
theorem toLowercase_congr {s t : String} (h : SameLetters s t) : T.toLowercase s = T.toLowercase t := by
  have hl : ∀ s : String, T.toLowercase (toAsciiLowercase s) = T.toLowercase s := by
    intro s
    rw [toLowercase,toList_toAsciiLowercase]
    exact congrArg String.ofList (lowerFrom_toLower [] s.toList)
  rw [← hl s,h,hl t]

/-- ASCII text is lowered letter by letter. -/
theorem toLowercase_ascii {s : String} (h : ∀ c ∈ s.toList, c.toNat < 128) :
    T.toLowercase s = toAsciiLowercase s := by
  have hl : ∀ before rest : List Char, (∀ c ∈ rest, c.toNat < 128) →
      T.lowerFrom before rest = rest.map Char.toLower := by
    intro before rest hr
    induction rest generalizing before with
    | nil => rfl
    | cons c rest ih =>
      have hc := hr c (by simp)
      have hne : c ≠ 'Σ' := by
        rintro rfl
        exact absurd hc (by decide)
      rw [lowerFrom,if_neg hne,T.lower_ascii c hc,ih _ fun d hd => hr d (by simp [hd])]
      rfl
  rw [toLowercase,hl [] s.toList h,toAsciiLowercase]

end CaseTables

/-- Words joined by single spaces again. -/
def joined (s : String) : String := " ".intercalate (splitWhitespace s)

theorem toAsciiLowercase_intercalate (ws : List String) :
    toAsciiLowercase (" ".intercalate ws) = " ".intercalate (ws.map toAsciiLowercase) := by
  have happ : ∀ s t : String, toAsciiLowercase (s++t) = toAsciiLowercase s ++ toAsciiLowercase t := by
    intro s t
    rw [← String.toList_inj]
    simp
  induction ws with
  | nil => rfl
  | cons w ws ih =>
    cases ws with
    | nil => simp
    | cons v ws =>
      have hspace : toAsciiLowercase " " = " " := rfl
      rw [String.intercalate_cons_cons,happ,happ,ih,hspace]
      simp only [List.map_cons,String.intercalate_cons_cons]

theorem SameWords.joined {s t : String} (h : SameWords s t) :
    SameLetters (Text.joined s) (Text.joined t) := by
  have hw : (splitWhitespace s).map toAsciiLowercase = (splitWhitespace t).map toAsciiLowercase := by
    rw [← List.forall₂_eq_eq_eq,List.forall₂_map_left_iff,List.forall₂_map_right_iff]
    exact h
  rw [SameLetters,Text.joined,Text.joined,toAsciiLowercase_intercalate,toAsciiLowercase_intercalate,hw]

end Foundation.Text
