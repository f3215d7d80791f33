import Mathlib.Data.List.DropRight
import Mathlib.Data.List.TakeWhile

/-! Words of a list between its blanks, and the list without the blanks around it. Which
blanks there are, and how many, is forgotten by the words. -/
namespace Foundation.Words
variable {α : Type*} (p : α → Bool)

/-- Cut at every blank, and drop the empty pieces. -/
def words (xs : List α) : List (List α) := (xs.splitOnP p).filter fun w => !w.isEmpty

/-- Without the blanks in front and behind. -/
def stripped (xs : List α) : List α := (xs.dropWhile p).rdropWhile p

variable {p}

@[simp] theorem words_nil : words p [] = [] := rfl

theorem words_append_cons {b : α} (hb : p b = true) (xs ys : List α) :
    words p (xs++b::ys) = words p xs ++ words p ys := by
  rw [words,List.splitOnP_append_cons xs ys hb,List.filter_append]
  rfl

@[simp] theorem words_cons {b : α} (hb : p b = true) (xs : List α) : words p (b::xs) = words p xs :=
  words_append_cons hb [] xs

theorem words_append_replicate {b : α} (hb : p b = true) (n : ℕ) (xs ys : List α) :
    words p (xs ++ (List.replicate (n+1) b ++ ys)) = words p xs ++ words p ys := by
  induction n with
  | zero => exact words_append_cons hb xs ys
  | succ n ih =>
    rw [List.replicate_succ,List.cons_append,words_append_cons hb,← ih,List.replicate_succ,List.cons_append,
      words_append_cons hb,words_cons hb]

theorem words_of_no_blank {w : List α} (hne : w ≠ []) (hw : ∀ c ∈ w, p c = false) : words p w = [w] := by
  rw [words,List.splitOnP_eq_singleton hw]
  simp [hne]

/-- The first word, and the rest of the list behind it. -/
theorem words_of_letter {c : α} (hc : p c = false) (xs : List α) :
    words p (c::xs) = (c::xs.takeWhile fun d => !p d) :: words p (xs.dropWhile fun d => !p d) := by
  have hw : ∀ d ∈ c::xs.takeWhile fun d => !p d, p d = false := by
    intro d hd
    rcases List.mem_cons.mp hd with rfl | hd
    · exact hc
    · simpa using List.mem_takeWhile_imp hd
  have hone := words_of_no_blank (p := p) (List.cons_ne_nil _ _) hw
  have hsplit : c::xs = (c::xs.takeWhile fun d => !p d) ++ xs.dropWhile fun d => !p d := by simp
  cases hr : xs.dropWhile fun d => !p d with
  | nil =>
    rw [hr,List.append_nil] at hsplit
    rw [hsplit,hone,words_nil]
  | cons b ys =>
    -- the piece behind the first word starts with a blank
    have hb : p b = true := by
      have h := List.head?_dropWhile_not (fun d => !p d) xs
      rw [hr] at h
      simpa using h
    rw [hr] at hsplit
    calc words p (c::xs) = words p ((c::xs.takeWhile fun d => !p d) ++ b::ys) := by rw [← hsplit]
      _ = (c::xs.takeWhile fun d => !p d) :: words p ys := by rw [words_append_cons hb,hone]; rfl
      _ = (c::xs.takeWhile fun d => !p d) :: words p (b::ys) := by rw [words_cons hb]

theorem mem_intercalate {b c : α} {ws : List (List α)} (h : c ∈ [b].intercalate ws) : c = b ∨ ∃ w ∈ ws, c ∈ w := by
  induction ws with
  | nil => exact absurd h List.not_mem_nil
  | cons w ws ih =>
    cases ws with
    | nil =>
      rw [List.intercalate_singleton] at h
      exact .inr ⟨w,List.mem_cons_self,h⟩
    | cons v ws =>
      rw [List.intercalate_cons_cons,List.mem_append,List.mem_append,List.mem_singleton] at h
      rcases h with (h | h) | h
      · exact .inr ⟨w,List.mem_cons_self,h⟩
      · exact .inl h
      · exact (ih h).imp_right fun ⟨u,hu,hc⟩ => ⟨u,List.mem_cons_of_mem _ hu,hc⟩

/-- Words with single blanks between them are those words. -/
theorem words_intercalate {b : α} (hb : p b = true) {ws : List (List α)} (hne : ∀ w ∈ ws, w ≠ [])
    (hws : ∀ w ∈ ws, ∀ c ∈ w, p c = false) : words p ([b].intercalate ws) = ws := by
  induction ws with
  | nil => rfl
  | cons w ws ih =>
    have hw := words_of_no_blank (hne w List.mem_cons_self) (hws w List.mem_cons_self)
    cases ws with
    | nil => rw [List.intercalate_singleton,hw]
    | cons v ws =>
      have hrest := ih (fun u hu => hne u (List.mem_cons_of_mem _ hu)) fun u hu => hws u (List.mem_cons_of_mem _ hu)
      rw [List.intercalate_cons_cons,List.append_assoc,List.singleton_append,words_append_cons hb,hw,hrest,
        List.singleton_append]

theorem words_eq_nil {xs : List α} : words p xs = [] ↔ ∀ c ∈ xs, p c = true := by
  induction xs with
  | nil => simp
  | cons c xs ih =>
    cases hc : p c with
    | true => simp [words_cons hc,ih,hc]
    | false => simp [words_of_letter hc,hc]

/-- Blanks in front and behind do not change the words. -/
theorem words_stripped (xs : List α) : words p (stripped p xs) = words p xs := by
  have hfront : words p (xs.dropWhile p) = words p xs := by
    induction xs with
    | nil => rfl
    | cons c xs ih =>
      cases hc : p c with
      | true => rw [List.dropWhile_cons_of_pos hc,ih,words_cons hc]
      | false => rw [List.dropWhile_cons_of_neg (by simp [hc])]
  rw [← hfront,stripped]
  induction xs.dropWhile p using List.reverseRecOn with
  | nil => rfl
  | append_singleton ys c ih =>
    cases hc : p c with
    | true => rw [List.rdropWhile_concat_pos _ _ _ hc,ih,words_append_cons hc,words_nil,List.append_nil]
    | false => rw [List.rdropWhile_concat_neg _ _ _ (by simp [hc])]

theorem stripped_of_no_blank {w : List α} (hw : ∀ c ∈ w, p c = false) : stripped p w = w := by
  have hfront : w.dropWhile p = w := by
    cases w with
    | nil => rfl
    | cons c w => exact List.dropWhile_cons_of_neg (by simp [hw c])
  rw [stripped,hfront,List.rdropWhile_eq_self_iff]
  intro hne
  simp [hw _ (List.getLast_mem hne)]

/-- What is left of a list with a single word is that word. -/
theorem stripped_of_single_word {xs w : List α} (h : words p xs = [w]) : stripped p xs = w := by
  induction xs with
  | nil => cases h
  | cons c xs ih =>
    cases hc : p c with
    | true =>
      rw [words_cons hc] at h
      rw [← ih h,stripped,stripped,List.dropWhile_cons_of_pos hc]
    | false =>
      rw [words_of_letter hc,List.cons.injEq,words_eq_nil] at h
      obtain ⟨hw,hback⟩ := h
      have hsplit : c::xs = w ++ xs.dropWhile fun d => !p d := by simp [← hw]
      have hlast : ∀ hne : w ≠ [], ¬ p (w.getLast hne) = true := by
        intro hne
        have hm : w.getLast hne ∈ c::xs.takeWhile fun d => !p d := hw ▸ List.getLast_mem hne
        rcases List.mem_cons.mp hm with he | hm
        · simp [he,hc]
        · simpa using List.mem_takeWhile_imp hm
      rw [stripped,List.dropWhile_cons_of_neg (by simp [hc]),hsplit]
      -- everything behind the word is blank, and its own last letter is not
      have hdrop : (w ++ xs.dropWhile fun d => !p d).rdropWhile p = w.rdropWhile p := by
        rw [List.rdropWhile,List.reverse_append,List.dropWhile_append_of_pos (by simpa using hback)]
        rfl
      rw [hdrop]
      exact List.rdropWhile_eq_self_iff.mpr hlast

theorem stripped_eq_nil {xs : List α} : stripped p xs = [] ↔ words p xs = [] := by
  constructor
  · intro h
    rw [← words_stripped,h,words_nil]
  · intro h
    have hall : xs.dropWhile p = [] := by simpa using words_eq_nil.mp h
    rw [stripped,hall,List.rdropWhile_nil]

end Foundation.Words
