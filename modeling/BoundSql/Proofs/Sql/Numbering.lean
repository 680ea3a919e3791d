import BoundSql.Fragment
import BoundSql.Proofs.Sql.Quoting

/-!
# Numbered markers

Numbering a statement for PostgreSQL replaces the markers outside of quotes, in order, by `$1`, `$2`
and so on, and leaves everything else as it is. `interleaved` is a text cut at its markers, so that
the statement and its numbered form are the same pieces with other marks between them
(`exists_pieces`, `Spells.renumber`).
-/

namespace BoundSql

/-- Pieces of text, each behind its mark. The marks are numbered on from the given number. -/
def interleaved (mark : Nat → List Char) : Nat → List (List Char) → List Char
  | _, [] => []
  | k, piece :: rest => mark k ++ piece ++ interleaved mark (k + 1) rest

/-- The marker of a parameter that is bound by position. -/
def positional (_ : Nat) : List Char :=
  ['?']

/-- The marker of a parameter that is bound by number. -/
def dollar (k : Nat) : List Char :=
  '$' :: Nat.toDigits 10 k

/-- Plain text with its markers numbered on from `count`. -/
def numberMarks : Nat → List Char → List Char
  | _, [] => []
  | count, c :: rest =>
    if c = '?' then dollar (count + 1) ++ numberMarks (count + 1) rest
    else c :: numberMarks count rest

/-- Plain text is pieces without markers, one more than it has markers, with the markers between
them. With these numbered it is the same pieces with numbered markers between them. -/
lemma exists_pieces (count : Nat) (plain : List Char) :
    ∃ first rest, plain = first ++ interleaved positional (count + 1) rest ∧
      numberMarks count plain = first ++ interleaved dollar (count + 1) rest ∧
      rest.length = plain.count '?' ∧ ∀ piece ∈ first :: rest, '?' ∉ piece ∧ piece ⊆ plain := by
  induction plain generalizing count with
  | nil => exact ⟨[], [], rfl, rfl, rfl, by simp⟩
  | cons c plain ih =>
    by_cases marker : c = '?'
    · -- a marker ends the first piece, and the numbers go on behind it
      obtain ⟨first, rest, text, numbered, length, pieces⟩ := ih (count + 1)
      refine ⟨[], first :: rest, ?_, ?_, ?_, ?_⟩
      · rw [marker, text]
        rfl
      · rw [numberMarks, if_pos marker, numbered, List.nil_append, interleaved, List.append_assoc]
      · rw [List.length_cons, length, marker, List.count_cons_self]
      · intro piece mem
        rcases List.mem_cons.1 mem with rfl | mem
        · exact ⟨List.not_mem_nil, List.nil_subset _⟩
        · obtain ⟨free, subset⟩ := pieces piece mem
          exact ⟨free, List.subset_cons_of_subset c subset⟩
    · obtain ⟨first, rest, text, numbered, length, pieces⟩ := ih count
      refine ⟨c :: first, rest, ?_, ?_, ?_, ?_⟩
      · rw [List.cons_append, ← text]
      · rw [numberMarks, if_neg marker, numbered, List.cons_append]
      · rw [length, List.count_cons_of_ne marker]
      · intro piece mem
        rcases List.mem_cons.1 mem with rfl | mem
        · obtain ⟨free, subset⟩ := pieces first List.mem_cons_self
          exact ⟨List.not_mem_cons_of_ne_of_not_mem (Ne.symm marker) free, List.cons_subset_cons c subset⟩
        · obtain ⟨free, subset⟩ := pieces piece (List.mem_cons_of_mem _ mem)
          exact ⟨free, List.subset_cons_of_subset c subset⟩

/-- The characters of numbered text are those of a number's mark or of the text. -/
lemma mem_numberMarks {c : Char} {count : Nat} {plain : List Char}
    (mem : c ∈ numberMarks count plain) : c = '$' ∨ c.isDigit = true ∨ c ∈ plain := by
  induction plain generalizing count with
  | nil => cases mem
  | cons c' plain ih =>
    rw [numberMarks] at mem
    split at mem
    · rcases List.mem_append.1 mem with mark | mem
      · rcases List.mem_cons.1 mark with rfl | digit
        · exact .inl rfl
        · exact .inr (.inl (Nat.isDigit_of_mem_toDigits (by decide) (by decide) digit))
      · exact (ih mem).imp_right (.imp_right (List.mem_cons_of_mem _))
    · rcases List.mem_cons.1 mem with rfl | mem
      · exact .inr (.inr List.mem_cons_self)
      · exact (ih mem).imp_right (.imp_right (List.mem_cons_of_mem _))

/-- The quotes that numbering looks for are double and single ones. -/
lemma eq_of_isQuote {c : Char} (h : Fragment.isQuote c = true) : c = '"' ∨ c = '\'' := by
  rcases Bool.or_eq_true_iff.1 h with h | h
  · exact .inl (Char.toNat_inj.1 (eq_of_beq h))
  · exact .inr (Char.toNat_inj.1 (eq_of_beq h))

/-- A quoted name is left alone by numbering. -/
lemma renumber_doubled (count : Nat) (s text : List Char) :
    Fragment.renumber (some '"') count (doubled '"' s ++ '"' :: text) =
      doubled '"' s ++ '"' :: Fragment.renumber none count text := by
  induction s with
  | nil => simp [doubled, Fragment.renumber]
  | cons c s ih =>
    rw [doubled_cons_append, doubled_cons_append]
    split
    · simpa [Fragment.renumber, Fragment.isQuote] using ih
    · rename_i other
      simpa [Fragment.renumber, other] using ih

/-- Numbering numbers the plain characters and leaves the names between them alone. -/
lemma Spells.renumber {plain text : List Char} (h : Spells '"' plain text)
    (free : ∀ c ∈ plain, Fragment.isQuote c = false) (count : Nat) :
    Spells '"' (numberMarks count plain) (Fragment.renumber none count text) := by
  induction h generalizing count with
  | nil => exact .nil
  | @char plain text c _ ih =>
    obtain ⟨noQuote, free⟩ := List.forall_mem_cons.1 free
    rw [numberMarks, Fragment.renumber]
    split
    · exact (spells_self '"' (dollar (count + 1))).append (ih free (count + 1))
    · rw [noQuote]
      exact .char c (ih free count)
  | name s _ ih =>
    -- numbering takes the name for quoted text and copies it
    rw [List.cons_append, Fragment.renumber, if_neg (by decide)]
    have opens : Fragment.isQuote '"' = true := rfl
    rw [opens, if_pos rfl, renumber_doubled]
    exact .name s (ih free count)

end BoundSql
