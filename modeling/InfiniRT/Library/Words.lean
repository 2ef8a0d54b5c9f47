import Mathlib.Data.List.TakeWhile
import Mathlib.Tactic.Common

/-!
# Searching a text for a word

A word boundary lies between a word character and one that is none, and at the ends of a text next
to a word character.  A search for a name between two boundaries looks at every position.  It
succeeds exactly if the name is one of the words of the text, which are the parts between its other
characters.

The search carries the character before the position.  While that is a word character, the position
is inside of a word, and a name cannot start there.  Proved:

* **`words_append_cons`** — the words of a text are those of its parts around a character between
  words;
* **`search_iff`** — a search between two boundaries finds a name exactly if it is a word of the
  text.
-/

namespace InfiniRT.Library.Words

variable {α : Type} (isWord : α → Bool) {name text part : List α} {c : α} {before : Option α}

/-- The words of a text, from left to right. -/
def words (text : List α) : List (List α) :=
  (text.splitOnP fun c => !isWord c).filter fun part => !part.isEmpty

variable {isWord}

/-! ### The words of a text -/

theorem words_nil : words isWord ([] : List α) = [] := rfl

theorem words_append_cons (hc : isWord c = false) (left right : List α) :
    words isWord (left ++ c :: right) = words isWord left ++ words isWord right := by
  unfold words
  rw [List.splitOnP_append_cons left right (by rw [hc]; rfl), List.filter_append]

theorem words_cons_of_not (hc : isWord c = false) : words isWord (c :: text) = words isWord text :=
  words_append_cons hc [] text

/-- A part without other characters is one word. -/
theorem words_of_forall (hne : part ≠ []) (h : ∀ c ∈ part, isWord c = true) :
    words isWord part = [part] := by
  unfold words
  rw [List.splitOnP_eq_singleton fun c hc => by rw [h c hc]; rfl]
  exact List.filter_cons_of_pos (by simpa using hne)

/-- The first word of a text, and the words after it. -/
theorem words_cons_of_word (hc : isWord c = true) :
    words isWord (c :: text) =
      (c :: text.takeWhile isWord) :: words isWord (text.dropWhile isWord) := by
  have hsplit : c :: text = (c :: text.takeWhile isWord) ++ text.dropWhile isWord := by
    rw [List.cons_append, List.takeWhile_append_dropWhile]
  have hpart : ∀ d ∈ c :: text.takeWhile isWord, isWord d = true := by
    intro d hd
    rcases List.mem_cons.mp hd with rfl | hd
    · exact hc
    · exact List.mem_takeWhile_imp hd
  conv_lhs => rw [hsplit]
  cases hrest : text.dropWhile isWord with
  | nil => rw [List.append_nil, words_of_forall (List.cons_ne_nil _ _) hpart, words_nil]
  | cons d rest =>
    have hd : isWord d = false := by
      have hhead := List.head_dropWhile_not isWord (l := text)
        (by rw [hrest]; exact List.cons_ne_nil _ _)
      simpa only [hrest, List.head_cons] using hhead
    rw [words_append_cons hd, words_of_forall (List.cons_ne_nil _ _) hpart, words_cons_of_not hd,
      List.singleton_append]

/-- A name of word characters that is a prefix, and ends where the word does, is the word. -/
theorem prefix_word_iff (hword : ∀ d ∈ name, isWord d = true) :
    name <+: text ∧ ((text.drop name.length).head?.any isWord = false) ↔
      name = text.takeWhile isWord := by
  constructor
  · rintro ⟨⟨rest, rfl⟩, hend⟩
    rw [List.drop_left] at hend
    rw [List.takeWhile_append_of_pos hword]
    cases rest with
    | nil => simp
    | cons d rest =>
      have hd : isWord d = false := by simpa using hend
      rw [List.takeWhile_cons_of_neg (by rw [hd]; exact Bool.false_ne_true), List.append_nil]
  · intro h
    have hsplit : text = name ++ text.dropWhile isWord := by
      rw [h, List.takeWhile_append_dropWhile]
    refine ⟨⟨_, hsplit.symm⟩, ?_⟩
    have hdrop : text.drop name.length = text.dropWhile isWord := by
      conv_lhs => rw [hsplit]
      exact List.drop_left
    rw [hdrop]
    cases hrest : text.dropWhile isWord with
    | nil => rfl
    | cons d rest =>
      have hhead := List.head_dropWhile_not isWord (l := text)
        (by rw [hrest]; exact List.cons_ne_nil _ _)
      simpa only [hrest, List.head_cons, List.head?_cons, Option.any_some] using hhead

/-! ### The search -/

section Search

variable [DecidableEq α] (isWord)

/-- There is a word boundary between two places, either of which may be outside of the text. -/
def boundary (before after : Option α) : Bool := before.any isWord != after.any isWord

/-- The name stands at the start of the text between two boundaries. -/
def matchesAt (name : List α) (before : Option α) (text : List α) : Bool :=
  boundary isWord before text.head? && name.isPrefixOf text &&
    boundary isWord (name.getLast?.or before) (text.drop name.length).head?

/-- Search for the name between two boundaries. -/
def search (name : List α) : Option α → List α → Bool
  | before, [] => matchesAt isWord name before []
  | before, c :: text => matchesAt isWord name before (c :: text) || search name (some c) text

variable {isWord}

/-- The words that can start at the position or after it. -/
def wordsAfter (isWord : α → Bool) (before : Option α) (text : List α) : List (List α) :=
  if before.any isWord then words isWord (text.dropWhile isWord) else words isWord text

/-- A name starts at a position exactly if it is the word that starts there. -/
theorem matchesAt_iff (hne : name ≠ []) (hword : ∀ d ∈ name, isWord d = true) :
    matchesAt isWord name before text = true ↔
      before.any isWord = false ∧ name = text.takeWhile isWord := by
  obtain ⟨first, rest, rfl⟩ := List.exists_cons_of_ne_nil hne
  have hlast : ((first :: rest).getLast?.or before).any isWord = true := by
    rw [List.getLast?_eq_some_getLast (List.cons_ne_nil _ _)]
    exact hword _ (List.getLast_mem _)
  rw [← prefix_word_iff hword, matchesAt, Bool.and_eq_true, Bool.and_eq_true,
    List.isPrefixOf_iff_prefix, boundary, boundary, hlast]
  constructor
  · rintro ⟨⟨hstart, hinit⟩, hend⟩
    obtain ⟨suffix, rfl⟩ := hinit
    have hfirst : isWord first = true := hword first List.mem_cons_self
    refine ⟨?_, ⟨suffix, rfl⟩, ?_⟩
    · simpa [hfirst] using hstart
    · simpa using hend
  · rintro ⟨hstart, ⟨suffix, rfl⟩, hend⟩
    have hfirst : isWord first = true := hword first List.mem_cons_self
    exact ⟨⟨by simp [hstart, hfirst], suffix, rfl⟩, by rw [hend]; rfl⟩

/-- The induction is on the text; what was read of a word is in the character before the
position. -/
theorem search_iff_wordsAfter (hne : name ≠ []) (hword : ∀ d ∈ name, isWord d = true)
    (before : Option α) (text : List α) :
    search isWord name before text = true ↔ name ∈ wordsAfter isWord before text := by
  induction text generalizing before with
  | nil =>
    rw [search, matchesAt_iff hne hword, List.takeWhile_nil]
    refine iff_of_false (fun h => hne h.2) ?_
    unfold wordsAfter
    split <;> exact List.not_mem_nil
  | cons c text ih =>
    rw [search, Bool.or_eq_true, matchesAt_iff hne hword, ih]
    cases hc : isWord c with
    | false =>
      -- no name starts with the character, and a word that was begun ends before it
      have hafter : wordsAfter isWord (some c) text = words isWord text := if_neg (by simp [hc])
      have hall : wordsAfter isWord before (c :: text) = words isWord text := by
        unfold wordsAfter
        rw [List.dropWhile_cons_of_neg (by simp [hc]), words_cons_of_not hc, ite_self]
      rw [hafter, hall, List.takeWhile_cons_of_neg (by simp [hc])]
      exact or_iff_right fun h => hne h.2
    | true =>
      have hafter : wordsAfter isWord (some c) text = words isWord (text.dropWhile isWord) :=
        if_pos hc
      rw [hafter, List.takeWhile_cons_of_pos hc]
      cases hbefore : before.any isWord with
      | true =>
        have hall : wordsAfter isWord before (c :: text) =
            words isWord (text.dropWhile isWord) := by
          unfold wordsAfter
          rw [if_pos hbefore, List.dropWhile_cons_of_pos hc]
        rw [hall]
        exact or_iff_right fun h => Bool.false_ne_true h.1.symm
      | false =>
        have hall : wordsAfter isWord before (c :: text) =
            (c :: text.takeWhile isWord) :: words isWord (text.dropWhile isWord) := by
          unfold wordsAfter
          rw [if_neg (by simp [hbefore]), words_cons_of_word hc]
        rw [hall, List.mem_cons]
        exact or_congr_left (and_iff_right rfl)

/-- **The search finds a name** exactly if it is a word of the text. -/
theorem search_iff (hne : name ≠ []) (hword : ∀ d ∈ name, isWord d = true) (text : List α) :
    search isWord name none text = true ↔ name ∈ words isWord text :=
  search_iff_wordsAfter hne hword none text

end Search

end InfiniRT.Library.Words
