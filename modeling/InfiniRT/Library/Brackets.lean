import InfiniRT.Library.RowMajor

/-!
# Arrays in nested brackets

An array of any rank is written as the list of its parts in brackets, with a comma between two
parts, and an array of rank 0 as the text of its element.  Such a notation is unambiguous: it shows
the shape and the text of every element, as long as these texts are not empty and use none of the
three marks, and no dimension is empty.

What follows an array is a closing bracket, a comma or nothing.  So the end of an element's text can
be seen, and from this the end of every part, by induction on the rank.  Proved:

* **`nested_congr`** — the text of an array depends on its shape and the texts of its elements only;
* **`nested_append_inj`** — it determines both.
-/

namespace InfiniRT.Library.Brackets

open InfiniRT.Library.RowMajor (InBox)

variable {α : Type}

/-! ### Where a text ends -/

/-- Two texts that are each followed by a symbol that is in neither of them. -/
theorem append_inj_of_head {stop : α → Prop} {xs ys rest rest' : List α} (hxs : ∀ c ∈ xs, ¬ stop c)
    (hys : ∀ c ∈ ys, ¬ stop c) (hrest : ∀ c ∈ rest.head?, stop c)
    (hrest' : ∀ c ∈ rest'.head?, stop c)
    (h : xs ++ rest = ys ++ rest') : xs = ys ∧ rest = rest' := by
  induction xs generalizing ys with
  | nil =>
    cases ys with
    | nil => exact ⟨rfl, h⟩
    | cons d ys =>
      have hd : d ∈ rest.head? := by
        rw [← List.nil_append rest, h]
        rfl
      exact absurd (hrest d hd) (hys d List.mem_cons_self)
  | cons c xs ih =>
    cases ys with
    | nil =>
      have hc : c ∈ rest'.head? := by
        rw [← List.nil_append rest', ← h]
        rfl
      exact absurd (hrest' c hc) (hxs c List.mem_cons_self)
    | cons d ys =>
      obtain ⟨rfl, htail⟩ := List.cons.inj h
      obtain ⟨rfl, hsame⟩ := ih (fun e he => hxs e (List.mem_cons_of_mem _ he))
        (fun e he => hys e (List.mem_cons_of_mem _ he)) htail
      exact ⟨rfl, hsame⟩

/-! ### The notation -/

/-- The marks of a notation; a comma may be followed by more. -/
structure Marks (α : Type) where
  opening : α
  closing : α
  comma : α
  space : List α
  closing_ne_comma : closing ≠ comma

namespace Marks

variable (k : Marks α)

/-- What stands between two parts. -/
def separator : List α := k.comma :: k.space

/-- An array of a shape, with the texts of its elements. -/
def nested : List ℕ → (List ℕ → List α) → List α
  | [], leaf => leaf []
  | n :: shape, leaf =>
    k.opening :: (k.separator.intercalate
      ((List.range n).map fun i => nested shape fun is => leaf (i :: is)) ++ [k.closing])

/-- A text that can stand for an element. -/
def Plain (text : List α) : Prop :=
  text ≠ [] ∧ k.opening ∉ text ∧ k.closing ∉ text ∧ k.comma ∉ text

/-- What may follow an array. -/
def Stops (rest : List α) : Prop := ∀ c ∈ rest.head?, c = k.closing ∨ c = k.comma

variable {k} {rest rest' : List α}

theorem stops_nil : k.Stops [] := by
  intro c hc
  cases hc

theorem stops_closing : k.Stops (k.closing :: rest) := by
  intro c hc
  cases hc
  exact .inl rfl

theorem stops_comma : k.Stops (k.comma :: rest) := by
  intro c hc
  cases hc
  exact .inr rfl

/-! ### The parts of an array -/

theorem intercalate_append_inj {ts ts' : List (List α)} (hne : ts ≠ []) (hne' : ts' ≠ [])
    (hinj : ∀ t ∈ ts, ∀ t' ∈ ts', ∀ rest rest', k.Stops rest → k.Stops rest' →
      t ++ rest = t' ++ rest' → t = t' ∧ rest = rest')
    (h : k.separator.intercalate ts ++ k.closing :: rest =
      k.separator.intercalate ts' ++ k.closing :: rest') : ts = ts' ∧ rest = rest' := by
  induction ts generalizing ts' with
  | nil => exact absurd rfl hne
  | cons t ts ih =>
    cases ts' with
    | nil => exact absurd rfl hne'
    | cons t' ts' =>
      have hhead := hinj t List.mem_cons_self t' List.mem_cons_self
      cases ts with
      | nil =>
        rw [List.intercalate_singleton] at h
        cases ts' with
        | nil =>
          rw [List.intercalate_singleton] at h
          obtain ⟨rfl, hrest⟩ := hhead _ _ stops_closing stops_closing h
          exact ⟨rfl, (List.cons.inj hrest).2⟩
        | cons u' us' =>
          rw [List.intercalate_cons_cons, List.append_assoc, List.append_assoc] at h
          obtain ⟨-, hrest⟩ := hhead _ _ stops_closing stops_comma h
          exact absurd (List.cons.inj hrest).1 k.closing_ne_comma
      | cons u us =>
        rw [List.intercalate_cons_cons, List.append_assoc, List.append_assoc] at h
        cases ts' with
        | nil =>
          rw [List.intercalate_singleton] at h
          obtain ⟨-, hrest⟩ := hhead _ _ stops_comma stops_closing h
          exact absurd (List.cons.inj hrest).1.symm k.closing_ne_comma
        | cons u' us' =>
          rw [List.intercalate_cons_cons, List.append_assoc, List.append_assoc] at h
          obtain ⟨rfl, hrest⟩ := hhead _ _ stops_comma stops_comma h
          have hitems : k.separator ++ _ = k.separator ++ _ := hrest
          obtain ⟨hus, hend⟩ := ih (List.cons_ne_nil _ _) (List.cons_ne_nil _ _)
            (fun v hv v' hv' => hinj v (List.mem_cons_of_mem _ hv) v' (List.mem_cons_of_mem _ hv'))
            (List.append_cancel_left hitems)
          exact ⟨congrArg _ hus, hend⟩

/-! ### Arrays -/

variable {shape shape' : List ℕ} {leaf leaf' : List ℕ → List α}

theorem nested_congr (h : ∀ is, InBox shape is → leaf is = leaf' is) :
    k.nested shape leaf = k.nested shape leaf' := by
  induction shape generalizing leaf leaf' with
  | nil => exact h [] .nil
  | cons n shape ih =>
    have hparts : (List.range n).map (fun i => k.nested shape fun is => leaf (i :: is)) =
        (List.range n).map fun i => k.nested shape fun is => leaf' (i :: is) := by
      apply List.map_congr_left
      intro i hi
      exact ih fun is his => h (i :: is) (.cons (List.mem_range.mp hi) his)
    rw [nested, nested, hparts]

/-- The text of an element does not start with a bracket. -/
theorem Plain.ne_opening {text : List α} (h : k.Plain text) :
    text ++ rest ≠ k.opening :: rest' := by
  intro heq
  cases text with
  | nil => exact h.1 rfl
  | cons c text =>
    obtain ⟨rfl, -⟩ := List.cons.inj heq
    exact h.2.1 List.mem_cons_self

theorem Plain.append_inj {text text' : List α} (h : k.Plain text) (h' : k.Plain text')
    (hrest : k.Stops rest) (hrest' : k.Stops rest') (heq : text ++ rest = text' ++ rest') :
    text = text' ∧ rest = rest' := by
  have hstop : ∀ {text : List α}, k.Plain text → ∀ c ∈ text, ¬ (c = k.closing ∨ c = k.comma) := by
    intro text htext c hc hmark
    obtain ⟨-, -, hclosing, hcomma⟩ := htext
    rcases hmark with rfl | rfl
    · exact hclosing hc
    · exact hcomma hc
  exact append_inj_of_head (hstop h) (hstop h') hrest hrest' heq

/-- **The notation is unambiguous**, whatever may follow. -/
theorem nested_append_inj (hshape : ∀ n ∈ shape, 0 < n) (hshape' : ∀ n ∈ shape', 0 < n)
    (hleaf : ∀ is, InBox shape is → k.Plain (leaf is))
    (hleaf' : ∀ is, InBox shape' is → k.Plain (leaf' is)) (hrest : k.Stops rest)
    (hrest' : k.Stops rest') (h : k.nested shape leaf ++ rest = k.nested shape' leaf' ++ rest') :
    shape = shape' ∧ (∀ is, InBox shape is → leaf is = leaf' is) ∧ rest = rest' := by
  induction shape generalizing shape' leaf leaf' rest rest' with
  | nil =>
    cases shape' with
    | nil =>
      obtain ⟨htext, hend⟩ := (hleaf [] .nil).append_inj (hleaf' [] .nil) hrest hrest' h
      refine ⟨rfl, fun is his => ?_, hend⟩
      cases his
      exact htext
    | cons n' shape' => exact absurd h (hleaf [] .nil).ne_opening
  | cons n shape ih =>
    cases shape' with
    | nil => exact absurd h.symm (hleaf' [] .nil).ne_opening
    | cons n' shape' =>
      have hpos := hshape n List.mem_cons_self
      have hpos' := hshape' n' List.mem_cons_self
      -- two parts with the same text, followed by anything
      have hpart : ∀ i, i < n → ∀ i', i' < n' → ∀ rest rest', k.Stops rest → k.Stops rest' →
          k.nested shape (fun is => leaf (i :: is)) ++ rest =
            k.nested shape' (fun is => leaf' (i' :: is)) ++ rest' →
          shape = shape' ∧ (∀ is, InBox shape is → leaf (i :: is) = leaf' (i' :: is)) ∧
            rest = rest' := by
        intro i hi i' hi' rest rest' hrest hrest' hsame
        exact ih (fun m hm => hshape m (List.mem_cons_of_mem _ hm))
          (fun m hm => hshape' m (List.mem_cons_of_mem _ hm))
          (fun is his => hleaf _ (.cons hi his)) (fun is his => hleaf' _ (.cons hi' his))
          hrest hrest' hsame
      rw [nested, nested, List.cons_append, List.cons_append, List.append_assoc,
        List.append_assoc] at h
      have hparts := intercalate_append_inj (by simpa using hpos.ne') (by simpa using hpos'.ne')
        (fun t ht t' ht' rest rest' hrest hrest' hsame => by
          obtain ⟨i, hi, rfl⟩ := List.mem_map.mp ht
          obtain ⟨i', hi', rfl⟩ := List.mem_map.mp ht'
          obtain ⟨rfl, htexts, hend⟩ := hpart i (List.mem_range.mp hi) i' (List.mem_range.mp hi')
            rest rest' hrest hrest' hsame
          exact ⟨nested_congr htexts, hend⟩) (List.cons.inj h).2
      obtain ⟨htexts, hend⟩ := hparts
      have hlength := congrArg List.length htexts
      rw [List.length_map, List.length_map, List.length_range, List.length_range] at hlength
      obtain rfl := hlength
      have htext : ∀ i, i < n → k.nested shape (fun is => leaf (i :: is)) ++ [] =
          k.nested shape' (fun is => leaf' (i :: is)) ++ [] := by
        intro i hi
        have hat := List.map_inj_left.mp (by simpa using htexts) i (List.mem_range.mpr hi)
        rw [hat]
      obtain ⟨rfl, -, -⟩ := hpart 0 hpos 0 hpos [] [] stops_nil stops_nil (htext 0 hpos)
      refine ⟨rfl, fun is his => ?_, hend⟩
      cases his with
      | cons hi his =>
        exact (hpart _ hi _ hi [] [] stops_nil stops_nil (htext _ hi)).2.1 _ his

end Marks

end InfiniRT.Library.Brackets
