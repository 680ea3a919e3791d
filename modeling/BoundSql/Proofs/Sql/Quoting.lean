import BoundSql.Dialect
import Mathlib.Data.List.Basic

/-!
# Quoted text

SQL text is read with quoted names taken out: `unquoted` is what stands outside of quotes, and
`isOpen` says whether a quote is still open at the end. Text is written the other way round, from
plain characters and quoted names: `Spells q plain text` says that the text is made of the plain
characters in order, with quoted names between them. Reading gives back what was written
(`Spells.unquoted_eq`), whatever the names are. `readInside` reads a name itself, from behind its first
quote.
-/

namespace BoundSql

/-- The text outside of quotes. The first argument says whether the text starts inside of them. -/
def unquoted (q : Char) : Bool → List Char → List Char
  | _, [] => []
  | inside, c :: rest =>
    if c = q then unquoted q (!inside) rest
    else if inside then unquoted q inside rest
    else c :: unquoted q inside rest

/-- Whether a quote is open at the end of the text. -/
def isOpen (q : Char) : Bool → List Char → Bool
  | inside, [] => inside
  | inside, c :: rest => isOpen q (if c = q then !inside else inside) rest

/-- The inside of a quoted name, with the quotes in it doubled. -/
def doubled (q : Char) (name : List Char) : List Char :=
  name.flatMap fun c => if c = q then [q, q] else [c]

/-- The name that ends at the first quote without another one behind it, and the text behind that. -/
def readInside (q : Char) : List Char → Option (List Char × List Char)
  | [] => none
  | [c] => if c = q then some ([], []) else none
  | c :: c' :: rest =>
    if c = q then
      if c' = q then (readInside q rest).map fun read => (q :: read.1, read.2)
      else some ([], c' :: rest)
    else (readInside q (c' :: rest)).map fun read => (c :: read.1, read.2)

/-- The text is made of the plain characters in order, with quoted names between them. -/
inductive Spells (q : Char) : List Char → List Char → Prop where
  | nil : Spells q [] []
  | char {plain text} (c) : Spells q plain text → Spells q (c :: plain) (c :: text)
  | name {plain text} (s) : Spells q plain text →
      Spells q plain (q :: doubled q s ++ q :: text)

variable {q : Char} {plain plain' text text' : List Char}

/-- A text may be spelled part by part. -/
lemma Spells.append (h : Spells q plain text) (h' : Spells q plain' text') :
    Spells q (plain ++ plain') (text ++ text') := by
  induction h with
  | nil => exact h'
  | char c _ ih => exact .char c ih
  | name s _ ih =>
    rw [List.append_assoc, List.cons_append]
    exact .name s ih

/-- A text without quoted names is spelled by itself. -/
lemma spells_self (q : Char) (s : List Char) : Spells q s s := by
  induction s with
  | nil => exact .nil
  | cons c s ih => exact .char c ih

/-- A quoted name stands between quotes, with those in it doubled. -/
lemma toList_quoteName (d : Dialect) (s : String) :
    (d.quoteName s).toList = d.quoteChar :: doubled d.quoteChar s.toList ++ [d.quoteChar] := by
  rw [Dialect.quoteName, String.toList_ofList]
  rfl

/-- A quoted name has no plain characters. -/
lemma spells_quoteName (d : Dialect) (s : String) :
    Spells d.quoteChar [] (d.quoteName s).toList := by
  rw [toList_quoteName]
  exact .name s.toList .nil

/-- The first character of a name is doubled when it is a quote. -/
lemma doubled_cons_append (c : Char) (s rest : List Char) :
    doubled q (c :: s) ++ rest = (if c = q then [q, q] else [c]) ++ (doubled q s ++ rest) := by
  rw [doubled, List.flatMap_cons, List.append_assoc]
  rfl

/-- A character other than the quote is read as it is. -/
lemma readInside_of_ne {c : Char} (other : c ≠ q) (text : List Char) :
    readInside q (c :: text) = (readInside q text).map fun read => (c :: read.1, read.2) := by
  cases text with
  | nil => simp [readInside, other]
  | cons => rw [readInside, if_neg other]

/-- The inside of a name ends at the first quote that is not doubled. -/
lemma readInside_doubled (free : text.head? ≠ some q) (s : List Char) :
    readInside q (doubled q s ++ q :: text) = some (s, text) := by
  induction s with
  | nil =>
    -- the quote behind the name is not doubled
    change readInside q (q :: text) = some ([], text)
    cases text with
    | nil => rw [readInside, if_pos rfl]
    | cons c text =>
      have other : c ≠ q := fun eq => free (congrArg some eq)
      rw [readInside, if_pos rfl, if_neg other]
  | cons c s ih =>
    rw [doubled_cons_append]
    split
    · rename_i quote
      change readInside q (q :: q :: (doubled q s ++ q :: text)) = _
      rw [readInside, if_pos rfl, if_pos rfl, ih, quote]
      rfl
    · rename_i other
      change readInside q (c :: (doubled q s ++ q :: text)) = _
      rw [readInside_of_ne other, ih]
      rfl

/-- A quote that no other follows ends a quoted name. -/
lemma doubled_append_inj {s s' : List Char} (free : text.head? ≠ some q) (free' : text'.head? ≠ some q)
    (h : doubled q s ++ q :: text = doubled q s' ++ q :: text') : s = s' ∧ text = text' := by
  have read := readInside_doubled free s
  rw [h, readInside_doubled free'] at read
  cases read
  exact ⟨rfl, rfl⟩

/-- A quoted name and what follows it are told apart unless that starts with a quote. -/
lemma quoteName_append_inj {d : Dialect} {s s' : String} (free : text.head? ≠ some d.quoteChar)
    (free' : text'.head? ≠ some d.quoteChar)
    (h : (d.quoteName s).toList ++ text = (d.quoteName s').toList ++ text') :
    s = s' ∧ text = text' := by
  rw [toList_quoteName, toList_quoteName] at h
  simp only [List.cons_append, List.append_assoc, List.nil_append] at h
  obtain ⟨same, rest⟩ := doubled_append_inj free free' (List.tail_eq_of_cons_eq h)
  exact ⟨String.toList_injective same, rest⟩

/-- Nothing of a name is outside of its quotes. -/
lemma unquoted_doubled (s : List Char) :
    unquoted q true (doubled q s ++ q :: text) = unquoted q false text := by
  induction s with
  | nil => simp [doubled, unquoted]
  | cons c s ih =>
    rw [doubled_cons_append]
    split
    · simpa [unquoted] using ih
    · rename_i other
      simpa [unquoted, other] using ih

/-- A name closes the quotes it opens. -/
lemma isOpen_doubled (s : List Char) :
    isOpen q true (doubled q s ++ q :: text) = isOpen q false text := by
  induction s with
  | nil => simp [doubled, isOpen]
  | cons c s ih =>
    rw [doubled_cons_append]
    split
    · simpa [isOpen] using ih
    · rename_i other
      simpa [isOpen, other] using ih

/-- Outside of quotes stand the plain characters. -/
lemma Spells.unquoted_eq (h : Spells q plain text) (free : q ∉ plain) :
    unquoted q false text = plain := by
  induction h with
  | nil => rfl
  | char c _ ih =>
    obtain ⟨other, free⟩ := not_or.1 (List.mem_cons.not.1 free)
    rw [unquoted, if_neg (Ne.symm other), ih free]
    rfl
  | name s _ ih =>
    rw [List.cons_append, unquoted, if_pos rfl]
    exact (unquoted_doubled s).trans (ih free)

/-- Every quote is closed. -/
lemma Spells.isOpen_eq (h : Spells q plain text) (free : q ∉ plain) :
    isOpen q false text = false := by
  induction h with
  | nil => rfl
  | char c _ ih =>
    obtain ⟨other, free⟩ := not_or.1 (List.mem_cons.not.1 free)
    rw [isOpen, if_neg (Ne.symm other), ih free]
  | name s _ ih =>
    rw [List.cons_append, isOpen, if_pos rfl]
    exact (isOpen_doubled s).trans (ih free)

end BoundSql
