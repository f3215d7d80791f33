import ZkasSigner.Crates.Keys
import ZkasSigner.Foundation.Spelling

/-! What both signers do to a secret before anything is derived from it: they tell a raw seed
from a phrase, and clean the phrase. Each carries its own copy of the two steps. -/
namespace ZkasSigner
open Foundation Foundation.Text

/-- `to_lowercase` goes by the tables of Unicode, and `parse_normalized` takes no phrase of
fewer than twelve words. -/
structure Phrases.Documented (p : Phrases) (T : CaseTables) : Prop where
  toLowercase_eq : ∀ s, p.toLowercase s = T.toLowercase s
  twelve_words : ∀ s m, p.parseNormalized s = .ok m → 12 ≤ (splitWhitespace s).length

theorem isRawSeed_iff {s : String} : isRawSeed s = true ↔ s.utf8ByteSize = 64 ∧ IsHex s := by
  simp [isRawSeed,IsHex]

theorem isRawSeed_congr {s t : String} (h : SameLetters s t) : isRawSeed s = isRawSeed t := by
  rw [Bool.eq_iff_iff,isRawSeed_iff,isRawSeed_iff,h.utf8ByteSize]
  exact and_congr_right fun _ => ⟨h.isHex,SameLetters.isHex h.symm⟩

lemma no_blank_of_isRawSeed {s : String} (h : isRawSeed s = true) :
    ∀ c ∈ s.toList, isWhitespace c = false := fun c hc =>
  not_isWhitespace_of_isAsciiHexdigit (List.all_eq_true.mp (isRawSeed_iff.mp h).2 c hc)

theorem trim_of_isRawSeed {s : String} (h : isRawSeed s = true) : trim s = s :=
  trim_of_no_blank (no_blank_of_isRawSeed h)

theorem ne_empty_of_isRawSeed {s : String} (h : isRawSeed s = true) : s ≠ "" := by
  rintro rfl
  exact absurd h (by decide)

theorem splitWhitespace_of_isRawSeed {s : String} (h : isRawSeed s = true) : splitWhitespace s = [s] :=
  splitWhitespace_of_no_blank (ne_empty_of_isRawSeed h) (no_blank_of_isRawSeed h)

lemma ascii_of_isHex {s : String} (h : IsHex s) : ∀ c ∈ s.toList, c.toNat < 128 := by
  intro c hc
  have hb := isAsciiHexdigit_iff.mp (List.all_eq_true.mp h c hc)
  omega

lemma toList_length_of_isRawSeed {s : String} (h : isRawSeed s = true) : s.toList.length = 64 := by
  obtain ⟨hsize,hhex⟩ := isRawSeed_iff.mp h
  have hone : s.toList.map Char.utf8Size = s.toList.map fun _ => 1 :=
    List.map_congr_left fun c hc => utf8Size_of_ascii (ascii_of_isHex hhex c hc)
  rw [← hsize,utf8ByteSize_eq_sum,hone]
  simp

/-- The 64 digits of 32 bytes are a raw seed. -/
theorem isRawSeed_encode {hex : HexCrate} (hhex : hex.Documented) (hdig : hex.TwoDigits) (k : Bytes 32) :
    isRawSeed (hex.encode k.val) = true := by
  have hhx := hhex.isHex_encode k.val
  have hone : (hex.encode k.val).toList.map Char.utf8Size = (hex.encode k.val).toList.map fun _ => 1 :=
    List.map_congr_left fun c hc => utf8Size_of_ascii (ascii_of_isHex hhx c hc)
  refine isRawSeed_iff.mpr ⟨?_,hhx⟩
  rw [utf8ByteSize_eq_sum,hone]
  simp [hdig.encode_length,k.property]

/-- A raw seed in either letter case is 32 bytes. -/
theorem decode_of_isRawSeed {hex : HexCrate} (hhex : hex.Documented) (hdig : hex.TwoDigits) {s : String}
    (h : isRawSeed s = true) : ∃ k : Bytes 32, hex.decode s = .ok k.val := by
  have hlen := toList_length_of_isRawSeed h
  obtain ⟨bs,hbs⟩ := hdig.decode_digits s (isRawSeed_iff.mp h).2 (by rw [hlen])
  have htwo := hdig.encode_length bs
  rw [← (hhex.decode_ok s bs).mp hbs,toList_toAsciiLowercase,List.length_map,hlen] at htwo
  exact ⟨⟨bs,by omega⟩,hbs⟩

/-- The same words make the same secret: both are raw seeds, equal up to letter case, or neither is. -/
theorem isRawSeed_trim_congr {s t : String} (h : SameWords s t) :
    isRawSeed (trim s) = isRawSeed (trim t) ∧ (isRawSeed (trim s) = true → SameLetters (trim s) (trim t)) := by
  have hone : ∀ {s t : String}, SameWords s t → isRawSeed (trim s) = true →
      isRawSeed (trim t) = true ∧ SameLetters (trim s) (trim t) := by
    intro s t h hs
    have hw := splitWhitespace_of_isRawSeed hs
    rw [splitWhitespace_trim] at hw
    rw [SameWords,hw,List.forall₂_cons_left_iff] at h
    obtain ⟨w,ws,hl,hnil,ht⟩ := h
    rw [List.forall₂_nil_left_iff] at hnil
    rw [hnil] at ht
    have hword := trim_of_single_word ht
    rw [hword]
    exact ⟨isRawSeed_congr hl ▸ hs,hl⟩
  refine ⟨?_,fun hs => (hone h hs).2⟩
  rw [Bool.eq_iff_iff]
  exact ⟨fun hs => (hone h hs).1,fun ht => (hone h.symm ht).1⟩

namespace Phrases
variable (p : Phrases)

/-- Trimming in front of the cleaning changes nothing. -/
theorem cleaned_trim (s : String) : p.cleaned (trim s) = p.cleaned s := by
  rw [cleaned,splitWhitespace_trim,cleaned]

variable {p} {T : CaseTables} (hp : p.Documented T)
include hp

theorem cleaned_congr {s t : String} (h : SameWords s t) : p.cleaned s = p.cleaned t := by
  rw [cleaned,cleaned,hp.toLowercase_eq,hp.toLowercase_eq]
  exact CaseTables.toLowercase_congr h.joined

/-- Neither a raw seed nor nothing at all is taken for a phrase. -/
theorem parse_cleaned_error {s : String} (h : isRawSeed (trim s) = true ∨ trim s = "") :
    ∃ e, p.parseNormalized (p.cleaned s) = .error e := by
  cases hm : p.parseNormalized (p.cleaned s) with
  | error e => exact ⟨e,rfl⟩
  | ok m =>
    have hcount := hp.twelve_words _ m hm
    rw [← cleaned_trim,cleaned,hp.toLowercase_eq] at hcount
    rcases h with hraw | hempty
    · -- a raw seed is one word, and stays one word when it is lowered
      have hlow := isRawSeed_congr (show SameLetters (trim s) (toAsciiLowercase (trim s)) by
        simp [SameLetters,toAsciiLowercase,Function.comp_def])
      rw [splitWhitespace_of_isRawSeed hraw,String.intercalate_singleton,
        CaseTables.toLowercase_ascii (ascii_of_isHex (isRawSeed_iff.mp hraw).2),
        splitWhitespace_of_isRawSeed (hlow ▸ hraw)] at hcount
      simp at hcount
    · have hnone : T.toLowercase (" ".intercalate (splitWhitespace (trim s))) = "" := by
        rw [hempty]
        rfl
      rw [hnone] at hcount
      exact absurd hcount (by decide)

end Phrases

namespace Recorded

/-- Case tables that know the ASCII letters only. -/
def asciiTables : CaseTables where
  lower c := [c.toLower]
  cased := Char.isAlpha
  caseIgnorable _ := false
  lower_ascii _ _ := rfl
  cased_letter _ h := h
  caseIgnorable_letter _ _ := rfl

def phrase : String := "leader monkey parrot ring guide accident before fence cannon height naive bean"

/-- The same words as a person types them. -/
def typedPhrase : String :=
  " LEADER monkey\tparrot ring guide accident\nbefore fence cannon height naive Bean "

def phraseSeed : Bytes 64 :=
  bytes 64 0x173b9c5f0d165502d08a4d122b2c9bf1e33e27806eac119713600a263c1241101dc55fb7cffb8f48a59b19a5ba65b037904f907bb8d08eb5bff8a17e85c2ee93

/-- `bip39` on one phrase, without a passphrase. -/
def spoken : Phrases where
  toLowercase := asciiTables.toLowercase
  Mnemonic := Unit
  parseNormalized s := if s = phrase then .ok () else .error "mnemonic has an invalid word count"
  toSeedNormalized _ _ := phraseSeed

theorem spoken_documented : spoken.Documented asciiTables where
  toLowercase_eq _ := rfl
  twelve_words s m h := by
    have hs : s = phrase := by
      by_contra hne
      simp [spoken,hne] at h
    rw [hs]
    decide +kernel

end Recorded
end ZkasSigner
