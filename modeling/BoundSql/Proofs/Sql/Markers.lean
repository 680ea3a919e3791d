import BoundSql.Proofs.Sql.Numbering

/-!
# Markers outside of quotes

SQL text is made of plain characters, markers and quoted spans, and `Cut` takes it apart at its markers.
Numbering puts numbers in the place of these and leaves the pieces as they are (`numbered_exact`). A
text that leaves no quote open is numbered for itself, and the text behind it is numbered on.
-/

namespace BoundSql

/-- Text without a marker outside of quotes, and the quote that is open at its end. A quoted span ends
at the next quote of its kind. -/
inductive Unmarked : Option Char → List Char → Prop where
  | nil : Unmarked none []
  | char {quote s} (c) : c ≠ '?' → c ≠ '"' → c ≠ '\'' → Unmarked quote s → Unmarked quote (c :: s)
  | span {quote s} (q inside) : q = '"' ∨ q = '\'' → q ∉ inside → Unmarked quote s →
      Unmarked quote (q :: inside ++ q :: s)
  | unclosed (q inside) : q = '"' ∨ q = '\'' → q ∉ inside → Unmarked (some q) (q :: inside)

/-- Text is cut at its markers outside of quotes, into a first piece and one piece behind
each marker. -/
inductive Cut (quote : Option Char) : List Char → List Char → List (List Char) → Prop where
  | last {s} : Unmarked quote s → Cut quote s s []
  | marker {s text first rest} : Unmarked none s → Cut quote text first rest →
      Cut quote (s ++ '?' :: text) s (first :: rest)

variable {quote : Option Char} {s t text first inside : List Char} {rest : List (List Char)} {q : Char}

/-- A text without markers may stand before another one. -/
lemma Unmarked.append (h : Unmarked none s) (h' : Unmarked quote t) : Unmarked quote (s ++ t) := by
  generalize closed : none = o at h
  induction h with
  | nil => exact h'
  | char c marker double single _ ih => exact .char c marker double single (ih closed)
  | span q inside isQuote free _ ih =>
    rw [List.append_assoc]
    exact .span q inside isQuote free (ih closed)
  | unclosed => cases closed

/-- A text without question marks and quotes has no markers. -/
lemma unmarked_plain (plain : ∀ c ∈ s, c ≠ '?' ∧ c ≠ '"' ∧ c ≠ '\'') : Unmarked none s := by
  induction s with
  | nil => exact .nil
  | cons c s ih =>
    obtain ⟨⟨marker, double, single⟩, plain⟩ := List.forall_mem_cons.1 plain
    exact .char c marker double single (ih plain)

/-- A numbered marker is no marker any more. -/
lemma unmarked_dollar (k : Nat) : Unmarked none (dollar k) := by
  refine unmarked_plain fun c mem => ?_
  rcases List.mem_cons.1 mem with rfl | digit
  · decide
  · have digit := Nat.isDigit_of_mem_toDigits (by decide) (by decide) digit
    refine ⟨?_, ?_, ?_⟩ <;> rintro rfl <;> cases digit

/-- Inside of quotes the text is kept. -/
lemma renumber_inside (free : q ∉ inside) (count : Nat) (text : List Char) :
    Fragment.renumber (some q) count (inside ++ text) =
      inside ++ Fragment.renumber (some q) count text := by
  induction inside with
  | nil => rfl
  | cons c inside ih =>
    obtain ⟨other, free⟩ := not_or.1 (List.mem_cons.not.1 free)
    rw [List.cons_append, Fragment.renumber, if_neg (Ne.symm other), ih free]
    rfl

/-- A quote is copied and opens a quoted text. -/
lemma renumber_quote (isQuote : q = '"' ∨ q = '\'') (count : Nat) (text : List Char) :
    Fragment.renumber none count (q :: text) = q :: Fragment.renumber (some q) count text := by
  rcases isQuote with rfl | rfl <;> rfl

/-- Text without a marker is kept, and numbering goes on behind it. -/
lemma Unmarked.renumber_append (h : Unmarked quote s) (count : Nat) (text : List Char) :
    Fragment.renumber none count (s ++ text) = s ++ Fragment.renumber quote count text := by
  induction h with
  | nil => rfl
  | char c marker double single _ ih =>
    have noQuote : Fragment.isQuote c = false := by
      rw [← Bool.not_eq_true]
      exact fun isQuote => (eq_of_isQuote isQuote).elim double single
    rw [List.cons_append, Fragment.renumber, if_neg marker, noQuote]
    exact congrArg (c :: ·) ih
  | span q inside isQuote free _ ih =>
    rw [List.append_assoc, List.cons_append, renumber_quote isQuote, renumber_inside free,
      List.cons_append, Fragment.renumber, if_pos rfl, ih, List.cons_append, List.cons_append,
      List.append_assoc, List.cons_append]
  | unclosed q inside isQuote free =>
    rw [List.cons_append, renumber_quote isQuote, renumber_inside free, List.cons_append]

/-- The markers at which text is cut are numbered on, and the pieces are kept. -/
lemma Cut.renumber_append (cut : Cut quote text first rest) (count : Nat) (behind : List Char) :
    Fragment.renumber none count (text ++ behind) = first ++ interleaved dollar (count + 1) rest ++
      Fragment.renumber quote (count + rest.length) behind := by
  induction cut generalizing count with
  | last unmarked =>
    rw [unmarked.renumber_append, interleaved, List.append_nil]
    rfl
  | @marker s text first rest unmarked _ ih =>
    have length : count + 1 + rest.length = count + (rest.length + 1) := by omega
    rw [List.append_assoc, unmarked.renumber_append, List.cons_append, Fragment.renumber, if_pos rfl,
      ih, interleaved, List.length_cons, length]
    simp only [List.append_assoc]
    rfl

/-- Numbering puts numbered markers between the pieces that a text is cut into. -/
lemma Cut.renumber_eq (cut : Cut quote text first rest) (count : Nat) :
    Fragment.renumber none count text = first ++ interleaved dollar (count + 1) rest := by
  have whole := cut.renumber_append count []
  rwa [Fragment.renumber, List.append_nil, List.append_nil] at whole

/-- A text is its pieces with markers between them. -/
lemma Cut.text_eq (cut : Cut quote text first rest) (k : Nat) :
    text = first ++ interleaved positional k rest := by
  induction cut generalizing k with
  | last => rw [interleaved, List.append_nil]
  | marker _ _ ih =>
    rw [interleaved, List.append_assoc, ← ih (k + 1)]
    rfl

/-- Numbered text has no marker outside of quotes. -/
lemma Cut.unmarked (cut : Cut quote text first rest) (k : Nat) :
    Unmarked quote (first ++ interleaved dollar k rest) := by
  induction cut generalizing k with
  | last unmarked => rwa [interleaved, List.append_nil]
  | marker unmarked _ ih =>
    rw [interleaved, List.append_assoc]
    exact unmarked.append ((unmarked_dollar k).append (ih (k + 1)))

/-- A text without markers goes before the first piece. -/
lemma Cut.prepend (unmarked : Unmarked none s) (cut : Cut quote text first rest) :
    Cut quote (s ++ text) (s ++ first) rest := by
  cases cut with
  | last unmarked' => exact .last (unmarked.append unmarked')
  | marker unmarked' cut =>
    rw [← List.append_assoc]
    exact .marker (unmarked.append unmarked') cut

/-- Every text can be cut at its markers. -/
lemma exists_cut : ∀ text, ∃ quote first rest, Cut quote text first rest
  | [] => ⟨none, [], [], .last .nil⟩
  | c :: text => by
    by_cases marker : c = '?'
    · obtain ⟨quote, first, rest, cut⟩ := exists_cut text
      rw [marker]
      exact ⟨quote, [], first :: rest, .marker .nil cut⟩
    · by_cases isQuote : c = '"' ∨ c = '\''
      · by_cases closed : c ∈ text
        · obtain ⟨inside, text, rfl, free⟩ := List.eq_append_cons_of_mem closed
          obtain ⟨quote, first, rest, cut⟩ := exists_cut text
          have span := cut.prepend (.span c inside isQuote free .nil)
          rw [List.append_assoc] at span
          exact ⟨quote, _, rest, span⟩
        · exact ⟨some c, c :: text, [], .last (.unclosed c text isQuote closed)⟩
      · obtain ⟨double, single⟩ := not_or.1 isQuote
        obtain ⟨quote, first, rest, cut⟩ := exists_cut text
        exact ⟨quote, c :: first, rest, cut.prepend (.char c marker double single .nil)⟩
termination_by text => text.length

namespace Fragment

variable {a : Fragment}

/-- In PostgreSQL the pieces of a fragment have numbered markers between them. -/
lemma numbered_of_cut (cut : Cut quote a.sql.toList first rest) :
    a.numbered .postgres = ⟨String.ofList (first ++ interleaved dollar 1 rest), a.params⟩ := by
  rw [numbered, mapSql, cut.renumber_eq]

/-- A fragment without markers is left as it is. -/
lemma numbered_of_unmarked (unmarked : Unmarked quote a.sql.toList) : a.numbered .postgres = a := by
  rw [numbered_of_cut (.last unmarked), interleaved, List.append_nil, String.ofList_toList]

/-- Two fragments in a row have their texts in a row. -/
lemma toList_join_pair (a b : Fragment) :
    (join "" [a, b]).sql.toList = a.sql.toList ++ b.sql.toList := by
  simp [join]

/-- Every text can be cut at its markers outside of quotes. Its numbered form for PostgreSQL has the
same pieces with `$1`, `$2` and so on for the markers, and binds the same values. A numbered text is not
changed by numbering. When a text leaves no quote open, the text behind it is numbered on from the
number of its markers. Other dialects leave all text as it is. -/
theorem numbered_exact (a : Fragment) :
    (∃ quote first rest, Cut quote a.sql.toList first rest) ∧
    (∀ quote first rest, Cut quote a.sql.toList first rest →
      a.sql.toList = first ++ interleaved positional 1 rest ∧
      a.numbered .postgres = ⟨String.ofList (first ++ interleaved dollar 1 rest), a.params⟩) ∧
    (∀ d, (a.numbered d).numbered d = a.numbered d) ∧
    (∀ (b : Fragment) quote first rest first' rest', Cut none a.sql.toList first rest →
      Cut quote b.sql.toList first' rest' →
      (join "" [a, b]).numbered .postgres =
        ⟨(a.numbered .postgres).sql ++
          String.ofList (first' ++ interleaved dollar (rest.length + 1) rest'),
          a.params ++ b.params⟩) ∧
    ∀ d, d ≠ .postgres → a.numbered d = a := by
  refine ⟨exists_cut _, fun quote first rest cut => ⟨cut.text_eq 1, numbered_of_cut cut⟩, fun d => ?_,
    fun b quote first rest first' rest' cut cut' => ?_, fun d other => ?_⟩
  · cases d with
    | postgres =>
      obtain ⟨quote, first, rest, cut⟩ := exists_cut a.sql.toList
      have unmarked := cut.unmarked 1
      rw [numbered_of_cut cut]
      apply numbered_of_unmarked
      rwa [String.toList_ofList]
    | sqlite | mysql => rfl
  · have whole := cut.renumber_append 0 b.sql.toList
    rw [cut'.renumber_eq, Nat.zero_add] at whole
    rw [numbered_of_cut cut, numbered, mapSql, toList_join_pair, whole, String.ofList_append]
    simp [join]
  · cases d with
    | postgres => exact absurd rfl other
    | sqlite | mysql => rfl

/-- A marker and a double quote in single quotes are left alone, and so is a marker behind a quote that
is never closed. The second text is numbered on from the one marker of the first one. -/
theorem numbered_exact_quotes :
    let a : Fragment := ⟨"'?\"'?", [.integer 1]⟩
    let b : Fragment := ⟨"?\"?", [.integer 2]⟩
    a.numbered .postgres = ⟨"'?\"'$1", [.integer 1]⟩ ∧
      (join "" [a, b]).numbered .postgres = ⟨"'?\"'$1$2\"?", [.integer 1, .integer 2]⟩ := by
  intro a b
  obtain ⟨-, pieces, -, follows, -⟩ := numbered_exact a
  have span : Unmarked none ['\'', '?', '"', '\''] :=
    .span '\'' ['?', '"'] (.inr rfl) (by decide) .nil
  have unclosed : Unmarked (some '"') ['"', '?'] := .unclosed '"' ['?'] (.inl rfl) (by decide)
  have cut : Cut none a.sql.toList ['\'', '?', '"', '\''] [[]] := by
    have text : a.sql.toList = ['\'', '?', '"', '\''] ++ '?' :: [] := by decide
    rw [text]
    exact .marker span (.last .nil)
  have cut' : Cut (some '"') b.sql.toList [] [['"', '?']] := by
    have text : b.sql.toList = [] ++ '?' :: ['"', '?'] := by decide
    rw [text]
    exact .marker .nil (.last unclosed)
  have first := (pieces none _ _ cut).2
  have both := follows b _ _ _ _ _ cut cut'
  rw [first] at both
  exact ⟨first, both⟩

end Fragment

end BoundSql
