import InfiniRT.Headers.DetailHeaders
import Mathlib.Data.List.TakeWhile

/-!
# Rewritten includes

A detail header is written with its includes rewritten.  The text that is written has no include
left that the pattern matches, so writing it again changes nothing.  What is between the matches is
kept.

A rewritten include has no quote, and it differs from the include it stands for where that has its
first quote.  A match that is new in the output would have to reach across this place, and its name
would contain a character that is in no directory and no name of the pattern.  Proved:

* **`matchDetailInclude_substitute`** — the output starts with no match if the input starts with
  none;
* **`substitute_complete`** — rewriting changes the matches and nothing else, and leaves none.
-/

namespace InfiniRT.Headers

variable {text target : Text} {c : Char} {skip : ℕ}

/-! ## Matches -/

/-- The pattern matches a quoted name at the start of the text. -/
theorem matchDetailInclude_eq_some :
    matchDetailInclude text = some target ↔
      (∃ rest, text = opening ++ (target ++ quote :: rest)) ∧ quote ∉ target ∧
        isDetailName target = true := by
  unfold matchDetailInclude
  constructor
  · intro h
    split at h
    · next hopening =>
      obtain ⟨rest, rfl⟩ := List.isPrefixOf_iff_prefix.mp hopening
      rw [List.drop_left] at h
      dsimp only at h
      split at h
      · next hname =>
        obtain rfl := Option.some.inj h
        simp only [Bool.and_eq_true, decide_eq_true_eq] at hname
        have hquote : quote ∉ rest.takeWhile (· ≠ quote) := fun hmem => by
          simpa using List.mem_takeWhile_imp hmem
        refine ⟨?_, hquote, hname.2⟩
        -- what stops the name is a quote
        cases hrest : rest.dropWhile (· ≠ quote) with
        | nil =>
          have hall := List.takeWhile_append_dropWhile (p := (· ≠ quote)) (l := rest)
          rw [hrest, List.append_nil] at hall
          rw [hall] at hname
          exact absurd hname.1 (lt_irrefl _)
        | cons d rest' =>
          have hd : ¬decide (d ≠ quote) = true := by
            have hhead := List.head_dropWhile_not (fun e => decide (e ≠ quote)) (l := rest)
              (by rw [hrest]; exact List.cons_ne_nil _ _)
            simp only [hrest, List.head_cons] at hhead
            rw [hhead]
            exact Bool.false_ne_true
          obtain rfl : d = quote := of_not_not fun hne => hd (decide_eq_true hne)
          refine ⟨rest', ?_⟩
          rw [← hrest, List.takeWhile_append_dropWhile]
      · cases h
    · cases h
  · rintro ⟨⟨rest, rfl⟩, hquote, hname⟩
    have htake : (target ++ quote :: rest).takeWhile (· ≠ quote) = target := by
      rw [List.takeWhile_append_of_pos fun c hc => decide_eq_true (ne_of_mem_of_not_mem hc hquote),
        List.takeWhile_cons_of_neg (by simp), List.append_nil]
    rw [if_pos (List.isPrefixOf_iff_prefix.mpr ⟨_, rfl⟩), List.drop_left]
    dsimp only
    rw [htake, hname, if_pos (by simp)]

/-! ## Pieces -/

/-- A piece in the input. -/
def Piece.source : Piece → Text
  | .copied c => [c]
  | .rewritten target => opening ++ (target ++ [quote])

/-- The pieces make up the text. -/
theorem flatMap_source (skip : ℕ) (text : Text) :
    (pieces skip text).flatMap Piece.source = text.drop skip := by
  induction text generalizing skip with
  | nil => simp [pieces]
  | cons c text ih =>
    cases skip with
    | succ skip => exact ih skip
    | zero =>
      rw [pieces]
      cases hmatch : matchDetailInclude (c :: text) with
      | none => exact congrArg (c :: ·) (ih 0)
      | some target =>
        obtain ⟨⟨rest, htext⟩, -, -⟩ := matchDetailInclude_eq_some.mp hmatch
        show opening ++ (target ++ [quote]) ++ (pieces _ text).flatMap Piece.source = c :: text
        have hdrop : (c :: text).drop (opening.length + target.length + 1) = rest := by
          rw [htext, ← List.append_assoc, List.append_cons, List.drop_left']
          simp [Nat.add_assoc]
        rw [ih, ← List.drop_succ_cons, hdrop, htext]
        simp only [List.append_assoc, List.singleton_append]

/-- Without a match a text is copied. -/
theorem pieces_of_findAll_eq_nil (h : findAll text = []) : pieces 0 text = text.map .copied := by
  induction text with
  | nil => rfl
  | cons c text ih =>
    rw [findAll, pieces] at h
    cases hmatch : matchDetailInclude (c :: text) with
    | none =>
      rw [hmatch] at h
      rw [pieces, hmatch, List.map_cons]
      exact congrArg (Piece.copied c :: ·) (ih h)
    | some target =>
      rw [hmatch] at h
      cases h

theorem substitute_of_findAll_eq_nil (h : findAll text = []) : substitute text = text := by
  rw [substitute, pieces_of_findAll_eq_nil h, List.flatMap_map]
  exact List.flatMap_singleton' text

/-- A text has a match where one of its suffixes starts with one. -/
theorem findAll_eq_nil (h : ∀ suffix, suffix <:+ text → matchDetailInclude suffix = none) :
    findAll text = [] := by
  induction text with
  | nil => rfl
  | cons c text ih =>
    rw [findAll, pieces, h (c :: text) List.suffix_rfl]
    exact ih fun suffix hsuffix => h suffix (hsuffix.trans (List.suffix_cons c text))

/-! ## The output has no match -/

/-- How every include starts. -/
def includeStart : Text := "#include ".toList

theorem opening_eq : opening = includeStart ++ [quote] := rfl

/-- Up to the first match the output is the input, and there it has a bracket for the quote. -/
theorem substitute_cases (text : Text) : substitute text = text ∨
    ∃ copied rest rest', text = copied ++ includeStart ++ quote :: rest ∧
      substitute text = copied ++ includeStart ++ '<' :: rest' := by
  induction text with
  | nil => exact .inl rfl
  | cons c text ih =>
    cases hmatch : matchDetailInclude (c :: text) with
    | none =>
      have hout : substitute (c :: text) = c :: substitute text := by
        rw [substitute, pieces, hmatch]
        rfl
      rcases ih with hsame | ⟨copied, rest, rest', htext, houtput⟩
      · exact .inl (hout.trans (congrArg (c :: ·) hsame))
      · exact .inr ⟨c :: copied, rest, rest', congrArg (c :: ·) htext,
          hout.trans (congrArg (c :: ·) houtput)⟩
    | some target =>
      obtain ⟨⟨rest, htext⟩, -, -⟩ := matchDetailInclude_eq_some.mp hmatch
      refine .inr ⟨[], target ++ quote :: rest, outputPath target ++ ['>'] ++
        (pieces (opening.length + target.length) text).flatMap Piece.output, htext, ?_⟩
      rw [substitute, pieces, hmatch]
      rfl

/-- A name that goes on with a bracket after a blank is a name without the bracket, too. -/
theorem isDetailName_of_bracket {start : Path} (htarget : isDetailName target = true)
    (hinit : start ++ [' '] ++ ['<'] <+: target) : isDetailName (start ++ [' ']) = true := by
  have hplain : ∀ name ∈ plainHeaders, '<' ∉ name := by decide
  have hdirectory : ∀ directory ∈ detailDirectories, '<' ∉ directory ∧ ' ' ∉ directory := by decide
  have hbracket : '<' ∈ target := hinit.subset (by simp)
  simp only [isDetailName, Bool.or_eq_true, List.any_eq_true, Bool.and_eq_true, decide_eq_true_eq,
    List.isPrefixOf_iff_prefix, List.contains_iff_mem] at htarget ⊢
  rcases htarget with ⟨directory, hmem, hdir, -⟩ | hmem
  · obtain ⟨hno, hblank⟩ := hdirectory directory hmem
    refine .inl ⟨directory, hmem, ?_⟩
    -- the directory ends before the blank
    rcases List.prefix_or_prefix_of_prefix hdir hinit with h | h
    · rcases List.prefix_concat_iff.mp h with rfl | h
      · exact absurd (by simp) hno
      · rcases List.prefix_concat_iff.mp h with rfl | h
        · exact absurd (by simp) hblank
        · exact ⟨h.trans (List.prefix_append _ _), by
            have hle := h.length_le
            rw [List.length_append, List.length_singleton]
            omega⟩
    · exact absurd (h.subset (by simp)) hno
  · exact absurd hbracket (hplain target hmem)

/-- What follows the start of an include and a blank, if an include is a prefix of it. -/
theorem exists_blank {copied name : Text} (h : copied ++ includeStart = opening ++ name) :
    ∃ start, name = start ++ [' '] := by
  have hstart : includeStart = "#include".toList ++ [' '] := rfl
  rcases List.eq_nil_or_concat' name with rfl | ⟨start, last, rfl⟩
  · rw [List.append_nil, opening_eq, hstart, ← List.append_assoc] at h
    cases (List.append_inj' h rfl).2
  · rw [hstart, ← List.append_assoc, ← List.append_assoc] at h
    obtain rfl := List.singleton_inj.mp (List.append_inj' h rfl).2
    exact ⟨start, rfl⟩

/-- **The output starts with no match** if the input starts with none. -/
theorem matchDetailInclude_substitute (h : matchDetailInclude text = none) :
    matchDetailInclude (substitute text) = none := by
  have hbracket : '<' ∉ opening := by decide
  have hne : '<' ≠ quote := by decide
  rcases substitute_cases text with hsame | ⟨copied, rest, rest', htext, houtput⟩
  · rwa [hsame]
  refine Option.eq_none_iff_forall_ne_some.mpr fun target hmatch => ?_
  obtain ⟨⟨after, hafter⟩, hquote, hname⟩ := matchDetailInclude_eq_some.mp hmatch
  -- the bracket and the end of the match are two places of one text
  have hleft : copied ++ includeStart ++ ['<'] <+: substitute text := ⟨rest', by simp [houtput]⟩
  have hright : opening ++ target ++ [quote] <+: substitute text := ⟨after, by simp [hafter]⟩
  have hmatched : ∀ name after', text = opening ++ (name ++ quote :: after') →
      quote ∉ name → isDetailName name = true → False := by
    intro name after' heq hnot hok
    rw [matchDetailInclude_eq_some.mpr ⟨⟨after', heq⟩, hnot, hok⟩] at h
    cases h
  rcases List.prefix_or_prefix_of_prefix hleft hright with hpre | hpre
  · -- the bracket is inside the match
    rcases List.prefix_concat_iff.mp hpre with heq | hpre
    · exact hne (List.singleton_inj.mp (List.append_inj' heq rfl).2)
    rcases List.prefix_or_prefix_of_prefix (List.prefix_append opening target) hpre with hop | hop
    · rcases List.prefix_concat_iff.mp hop with heq | ⟨name, hnameEq⟩
      · exact hbracket (heq ▸ by simp)
      obtain ⟨start, rfl⟩ := exists_blank hnameEq.symm
      rw [← hnameEq, List.append_assoc, List.prefix_append_right_inj] at hpre
      refine hmatched _ rest (by rw [htext, ← hnameEq, List.append_assoc]) (fun hmem => hquote ?_)
        (isDetailName_of_bracket hname hpre)
      exact hpre.subset (List.mem_append_left _ hmem)
    · exact hbracket (hop.subset (by simp))
  · -- the match ends before the bracket
    rcases List.prefix_concat_iff.mp hpre with heq | ⟨between, hbetween⟩
    · exact hne (List.singleton_inj.mp (List.append_inj' heq rfl).2).symm
    · exact hmatched target (between ++ quote :: rest)
        (by rw [htext, ← hbetween]; simp) hquote hname

/-- No match starts inside of a rewritten include. -/
theorem matchDetailInclude_rewritten {suffix rest : Text} (hquote : quote ∉ target)
    (hne : suffix ≠ []) (hsuffix : suffix <:+ rewriteDetailInclude target) :
    matchDetailInclude (suffix ++ rest) = none := by
  have hclose : '>' ∉ opening := by decide
  have hnone : quote ∉ rewriteDetailInclude target := by
    rw [rewriteDetailInclude_eq, outputPath]
    simp only [List.mem_append, List.mem_cons, not_or]
    exact ⟨by decide, by decide, ⟨by decide, by decide, hquote⟩, by decide, List.not_mem_nil⟩
  refine Option.eq_none_iff_forall_ne_some.mpr fun name hmatch => ?_
  obtain ⟨⟨after, hafter⟩, -, -⟩ := matchDetailInclude_eq_some.mp hmatch
  have hopening : opening <+: suffix ++ rest := ⟨_, hafter.symm⟩
  rcases List.prefix_or_prefix_of_prefix hopening (List.prefix_append suffix rest) with h | h
  · exact hnone (hsuffix.subset (h.subset (by decide)))
  · -- a nonempty suffix has the closing bracket
    refine hclose (h.subset ?_)
    have hlast : ['>'] <:+ rewriteDetailInclude target := by
      rw [rewriteDetailInclude_eq]
      exact ⟨"#include ".toList ++ '<' :: outputPath target, by simp⟩
    rcases List.suffix_or_suffix_of_suffix hlast hsuffix with h' | h'
    · exact h'.subset (List.mem_singleton_self _)
    · rcases List.suffix_cons_iff.mp h' with rfl | h'
      · exact List.mem_singleton_self _
      · exact absurd (List.suffix_nil.mp h') hne

/-- No suffix of the output starts with a match. The induction is on the text, and each piece of the
output is one character or one rewritten include. -/
theorem matchDetailInclude_suffix (skip : ℕ) (text : Text) {suffix : Text}
    (hsuffix : suffix <:+ (pieces skip text).flatMap Piece.output) :
    matchDetailInclude suffix = none := by
  induction text generalizing skip suffix with
  | nil =>
    obtain rfl : suffix = [] := List.suffix_nil.mp (by simpa [pieces] using hsuffix)
    rfl
  | cons c text ih =>
    cases skip with
    | succ skip => exact ih skip hsuffix
    | zero =>
      cases hmatch : matchDetailInclude (c :: text) with
      | none =>
        have hout : (pieces 0 (c :: text)).flatMap Piece.output =
            c :: (pieces 0 text).flatMap Piece.output := by
          rw [pieces, hmatch]
          rfl
        rw [hout] at hsuffix
        rcases List.suffix_cons_iff.mp hsuffix with rfl | h
        · rw [← hout]
          exact matchDetailInclude_substitute hmatch
        · exact ih 0 h
      | some target =>
        obtain ⟨-, hquote, -⟩ := matchDetailInclude_eq_some.mp hmatch
        rw [pieces, hmatch] at hsuffix
        change suffix <:+ rewriteDetailInclude target ++
          (pieces (opening.length + target.length) text).flatMap Piece.output at hsuffix
        rcases List.suffix_or_suffix_of_suffix hsuffix (List.suffix_append _ _) with
          h | ⟨start, rfl⟩
        · exact ih _ h
        · cases start with
          | nil => exact ih _ List.suffix_rfl
          | cons d start =>
            refine matchDetailInclude_rewritten hquote (List.cons_ne_nil d start) ?_
            obtain ⟨before, hbefore⟩ := hsuffix
            rw [← List.append_assoc] at hbefore
            exact ⟨before, List.append_cancel_right hbefore⟩

theorem findAll_substitute (text : Text) : findAll (substitute text) = [] :=
  findAll_eq_nil fun _ hsuffix => matchDetailInclude_suffix 0 text hsuffix

/-- **Rewriting is complete**: it changes the matches and nothing else, and leaves no match, so that
it changes nothing the second time. -/
theorem substitute_complete (text : Text) :
    (∃ ps : List Piece, text = ps.flatMap Piece.source ∧ substitute text = ps.flatMap Piece.output ∧
      findAll text = ps.filterMap Piece.target?) ∧
    findAll (substitute text) = [] ∧ substitute (substitute text) = substitute text :=
  ⟨⟨pieces 0 text, (flatMap_source 0 text).symm, rfl, rfl⟩, findAll_substitute text,
    substitute_of_findAll_eq_nil (findAll_substitute text)⟩

/-- Two includes that follow each other: the first one is not in the pattern. -/
example :
    substitute (opening ++ "foo.h".toList ++ [quote] ++ opening ++ "hash.h".toList ++ [quote]) =
    opening ++ "foo.h".toList ++ [quote] ++ "#include <infini/rt/detail/hash.h>".toList := by
  decide

end InfiniRT.Headers
