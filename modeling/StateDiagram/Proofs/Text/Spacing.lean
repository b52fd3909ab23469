import StateDiagram.Text.Words

/-!
# Words and the blanks around them

The words of a line do not depend on how far apart they stand, and the lines of a text are the
pieces that line feeds were put between.
-/

namespace StateDiagram.Text

def AllBlank (text : List Char) : Prop := ∀ c ∈ text, isBlank c = true

def IsWord (word : List Char) : Prop := word ≠ [] ∧ ∀ c ∈ word, isBlank c = false

instance (text : List Char) : Decidable (AllBlank text) :=
  decidable_of_iff (text.all isBlank = true) List.all_eq_true

instance (word : List Char) : Decidable (IsWord word) :=
  decidable_of_iff (word ≠ [] ∧ word.all (fun c => !isBlank c) = true) (by simp [IsWord])

/-- The line holds the words in order, with blanks between them and maybe around them. -/
inductive Spaced : List (List Char) → List Char → Prop where
  | blank (blanks : List Char) (h : AllBlank blanks) : Spaced [] blanks
  | last (indent word : List Char) (h : AllBlank indent) :
      Spaced [word] (indent ++ word)
  | cons (indent word : List Char) (c : Char) {words : List (List Char)} {rest : List Char}
      (h : AllBlank indent) (hc : isBlank c = true) (hrest : Spaced words rest) :
      Spaced (word :: words) (indent ++ word ++ c :: rest)

theorem words_blank_append {blanks : List Char} (h : AllBlank blanks)
    (rest : List Char) : words (blanks ++ rest) = words rest := by
  induction blanks with
  | nil => rfl
  | cons c blanks ih =>
      have hcut := words_append_cons (h c (by simp)) [] (blanks ++ rest)
      rw [List.nil_append, words_nil, List.nil_append] at hcut
      rw [List.cons_append, hcut]
      exact ih fun d hd => h d (List.mem_cons_of_mem c hd)

theorem words_of_spaced {ws : List (List Char)} {line : List Char} (hws : ∀ w ∈ ws, IsWord w)
    (h : Spaced ws line) : words line = ws := by
  induction h with
  | blank blanks hblanks =>
      have hwords := words_blank_append hblanks []
      rwa [List.append_nil] at hwords
  | last indent word hindent =>
      obtain ⟨hne, hword⟩ := hws word (by simp)
      rw [words_blank_append hindent, words_of_forall_not_blank hne hword]
  | cons indent word c hindent hc _ ih =>
      obtain ⟨hne, hword⟩ := hws word (by simp)
      rw [words_append_cons hc, words_blank_append hindent, words_of_forall_not_blank hne hword,
        ih fun w hw => hws w (List.mem_cons_of_mem word hw)]
      rfl

/-- A last line without a character is none: it is what is left after a final line feed. -/
theorem lines_intercalate {ls : List (List Char)} (h : ∀ line ∈ ls, '\n' ∉ line) :
    lines (['\n'].intercalate ls) = if ls.getLast? = some [] then ls.dropLast else ls := by
  cases ls with
  | nil => rfl
  | cons line ls =>
      rw [lines, List.splitOn_intercalate '\n' h (List.cons_ne_nil line ls)]

theorem dropWhile_isBlank_append {blanks word : List Char}
    (h : AllBlank blanks) (hword : IsWord word) (rest : List Char) :
    (blanks ++ word ++ rest).dropWhile isBlank = word ++ rest := by
  rw [List.append_assoc, List.dropWhile_append_of_pos h]
  obtain ⟨hne, hblank⟩ := hword
  cases word with
  | nil => contradiction
  | cons c word => rw [List.cons_append, List.dropWhile_cons_of_neg (by simp [hblank c])]

theorem trim_pad {before word after : List Char} (hbefore : AllBlank before)
    (hword : IsWord word) (hafter : AllBlank after) :
    trim (before ++ word ++ after) = word := by
  have hback : IsWord word.reverse := by simpa [IsWord] using hword
  have hcut := dropWhile_isBlank_append (by simpa [AllBlank] using hafter : AllBlank after.reverse) hback []
  rw [List.append_nil, List.append_nil] at hcut
  rw [trim, dropWhile_isBlank_append hbefore hword, List.reverse_append, hcut,
    List.reverse_reverse]

theorem trim_of_blank {blanks : List Char} (h : AllBlank blanks) :
    trim blanks = [] := by
  have hdrop := @List.dropWhile_append_of_pos _ isBlank blanks [] h
  rw [List.append_nil] at hdrop
  rw [trim, hdrop]
  rfl

/-- Trimming leaves out the first run of blanks, and blanks at the end. -/
theorem exists_eq_append_trim (text : List Char) :
    ∃ after, AllBlank after ∧ text = text.takeWhile isBlank ++ trim text ++ after := by
  let kept := text.dropWhile isBlank
  have hkept : trim text ++ (kept.reverse.takeWhile isBlank).reverse = kept := by
    rw [trim, ← List.reverse_append, List.takeWhile_append_dropWhile, List.reverse_reverse]
  refine ⟨(kept.reverse.takeWhile isBlank).reverse, ?_, ?_⟩
  · intro c hc
    exact List.all_eq_true.1 List.all_takeWhile c (List.mem_reverse.1 hc)
  · rw [List.append_assoc, hkept, List.takeWhile_append_dropWhile]

theorem trim_eq_nil_iff {text : List Char} : trim text = [] ↔ AllBlank text := by
  refine ⟨fun htrim => ?_, trim_of_blank⟩
  obtain ⟨after, hafter, htext⟩ := exists_eq_append_trim text
  rw [htrim, List.append_nil] at htext
  rw [htext]
  intro c hc
  rcases List.mem_append.1 hc with hc | hc
  · exact List.all_eq_true.1 List.all_takeWhile c hc
  · exact hafter c hc

end StateDiagram.Text
