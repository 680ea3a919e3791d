import BoundSql.Expr.Basic
import BoundSql.Proofs.Sql.Quoting
import Mathlib.Data.List.Chain

/-!
# Words of values and predicates

The text of a value or predicate is a row of words: columns, markers, and the signs of `Sign`, none of
which starts like another one. Only two columns side by side could not be told apart, since the second
would look like the rest of the first. So a text has one reading as words among which no two columns
stand side by side (`Word.eq_of_text_eq`).
-/

namespace BoundSql

/-- The signs between and around the parts of values and predicates. -/
inductive Sign where
  | opening
  | closing
  | comma
  | arith (op : ArithOp)
  | compare (op : CompareOp)
  | connective (c : Connective)
  /-- A connective without parts. -/
  | neutral (c : Connective)
  | not
  | power
  /-- Concatenation as an operator. -/
  | bars
  /-- Concatenation as a call. -/
  | concat
  | isNull
  | isNotNull
  | direction (d : SortDirection)
deriving DecidableEq

namespace Sign

/-- The text of the sign, with the blanks that belong to it. -/
def text : Sign → String
  | .opening => "("
  | .closing => ")"
  | .comma => ", "
  | .arith op => " " ++ op.symbol ++ " "
  | .compare op => " " ++ op.symbol ++ " "
  | .connective c => " " ++ c.keyword ++ " "
  | .neutral .and => "1 = 1"
  | .neutral .or => "1 = 0"
  | .not => "NOT "
  | .power => "POWER"
  | .bars => " || "
  | .concat => "CONCAT"
  | .isNull => " IS NULL"
  | .isNotNull => " IS NOT NULL"
  | .direction d => " " ++ d.keyword

/-- All signs. -/
def all : List Sign :=
  [.opening, .closing, .comma] ++ ArithOp.all.map .arith ++ CompareOp.all.map .compare ++
    [.connective .and, .connective .or, .neutral .and, .neutral .or, .not, .power, .bars, .concat,
      .isNull, .isNotNull, .direction .ascending, .direction .descending]

/-- The list of signs leaves none out. -/
lemma mem_all (k : Sign) : k ∈ all := by
  cases k with
  | arith op => cases op <;> decide
  | compare op => cases op <;> decide
  | connective c => cases c <;> decide
  | neutral c => cases c <;> decide
  | direction d => cases d <;> decide
  | _ => decide

/-- No sign starts with another one. -/
lemma eq_of_prefix_text {k k' : Sign} (h : k.text.toList <+: k'.text.toList) : k = k' := by
  have code : ∀ k ∈ all, ∀ k' ∈ all, k.text.toList.isPrefixOf k'.text.toList = true → k = k' := by
    decide +kernel
  exact code k k.mem_all k' k'.mem_all (List.isPrefixOf_iff_prefix.2 h)

/-- The text of a sign tells the sign and what follows apart. -/
lemma text_append_inj {k k' : Sign} {rest rest' : List Char}
    (h : k.text.toList ++ rest = k'.text.toList ++ rest') : k = k' ∧ rest = rest' := by
  have starts : k.text.toList <+: k'.text.toList ++ rest' := ⟨rest, h⟩
  have same : k = k' := by
    rcases List.prefix_or_prefix_of_prefix starts (List.prefix_append _ rest') with first | second
    · exact eq_of_prefix_text first
    · exact (eq_of_prefix_text second).symm
  subst same
  exact ⟨rfl, List.append_cancel_left h⟩

/-- No sign starts like a column or a marker. -/
lemma head?_text (k : Sign) (rest : List Char) {c : Char} (start : c ∈ ['?', '"', Char.ofNat 96]) :
    (k.text.toList ++ rest).head? ≠ some c := by
  have heads : ∀ k ∈ all, k.text.toList.head?.any (· ∉ ['?', '"', Char.ofNat 96]) := by
    decide
  have head := heads k k.mem_all
  cases text : k.text.toList with
  | nil =>
    rw [text] at head
    cases head
  | cons first later =>
    rw [text] at head
    intro same
    obtain rfl := Option.some.inj same
    exact absurd start (of_decide_eq_true head)

/-- No sign starts like a marker. -/
lemma text_append_ne_marker (k : Sign) (rest rest' : List Char) :
    k.text.toList ++ rest ≠ '?' :: rest' := by
  intro eq
  have start : (k.text.toList ++ rest).head? = some '?' := by
    rw [eq]
    rfl
  exact k.head?_text rest (by decide) start

end Sign

/-- A word of a value or predicate. A marker is given with what is bound to it. -/
inductive Word (α : Type) where
  | column (tableAlias name : String)
  | marker (x : α)
  | sign (k : Sign)

namespace Word

variable {α : Type} {d : Dialect}

/-- The text of the word in the dialect. -/
def text (d : Dialect) : Word α → List Char
  | .column tableAlias name => (d.quoteName tableAlias ++ "." ++ d.quoteName name).toList
  | .marker _ => ['?']
  | .sign k => k.text.toList

/-- What a word binds. -/
def bound : Word α → List α
  | .marker x => [x]
  | _ => []

/-- Whether the word is a column. -/
def isColumn : Word α → Bool
  | .column .. => true
  | _ => false

/-- The words may stand side by side. -/
def Apart (w w' : Word α) : Prop :=
  w.isColumn = true → w'.isColumn = false

/-- The quote of a dialect is one of the characters that no sign starts with. -/
lemma quoteChar_mem (d : Dialect) : d.quoteChar ∈ ['?', '"', Char.ofNat 96] := by
  cases d <;> decide

/-- A column is its quoted alias, a dot and its quoted name. -/
lemma text_column_append (d : Dialect) (tableAlias name : String) (rest : List Char) :
    (column tableAlias name : Word α).text d ++ rest =
      (d.quoteName tableAlias).toList ++ '.' :: ((d.quoteName name).toList ++ rest) := by
  rw [text, String.toList_append, String.toList_append, List.append_assoc, List.append_assoc]
  rfl

/-- Only a column starts with a quote. -/
lemma head?_text {w : Word α} (other : w.isColumn = false) (rest : List Char) :
    (w.text d ++ rest).head? ≠ some d.quoteChar := by
  cases w with
  | column => cases other
  | marker =>
    intro h
    cases d <;> cases h
  | sign k => exact k.head?_text rest (quoteChar_mem d)

/-- A column starts with a quote. -/
lemma head?_text_column (tableAlias name : String) (rest : List Char) :
    ((column tableAlias name : Word α).text d ++ rest).head? = some d.quoteChar := by
  rw [text_column_append, toList_quoteName]
  rfl

/-- A word is a column just when it starts with a quote. -/
lemma isColumn_iff (w : Word α) (rest : List Char) :
    w.isColumn = true ↔ (w.text d ++ rest).head? = some d.quoteChar := by
  constructor
  · intro column
    cases w with
    | column tableAlias name => exact head?_text_column tableAlias name rest
    | _ => cases column
  · intro start
    cases other : w.isColumn with
    | true => rfl
    | false => exact absurd start (head?_text other rest)

/-- No word is empty. -/
lemma text_ne_nil (w : Word α) : w.text d ≠ [] := by
  intro nil
  cases w with
  | column tableAlias name =>
    have start := head?_text_column (α := α) (d := d) tableAlias name []
    rw [nil] at start
    cases start
  | marker => cases nil
  | sign k =>
    have all : ∀ k ∈ Sign.all, k.text.toList ≠ [] := by decide
    exact all k k.mem_all nil

/-- Behind a column no word starts with a quote. -/
lemma head?_flatMap_text {w : Word α} {ws : List (Word α)} (apart : (w :: ws).IsChain Apart)
    (column : w.isColumn = true) : (ws.flatMap (text d)).head? ≠ some d.quoteChar := by
  cases ws with
  | nil => exact nofun
  | cons w' ws =>
    rw [List.flatMap_cons]
    exact head?_text ((List.isChain_cons_cons.1 apart).1 column) _

/-- A word and what follows it are told apart, unless that is a column behind a column. -/
lemma text_append_inj {w w' : Word α} {rest rest' : List Char}
    (free : w.isColumn = true → rest.head? ≠ some d.quoteChar)
    (free' : w'.isColumn = true → rest'.head? ≠ some d.quoteChar)
    (h : w.text d ++ rest = w'.text d ++ rest') :
    rest = rest' ∧ ∀ l l', w.bound ++ l = w'.bound ++ l' → w = w' ∧ l = l' := by
  have both : w.isColumn = w'.isColumn := by
    rw [Bool.eq_iff_iff, isColumn_iff w rest, isColumn_iff w' rest', h]
  cases w with
  | column a n =>
    cases w' with
    | column a' n' =>
      have dot (rest : List Char) : ('.' :: rest).head? ≠ some d.quoteChar := by
        intro eq
        cases d <;> cases eq
      rw [text_column_append, text_column_append] at h
      -- a quoted name ends at its closing quote, as no quote stands behind that
      obtain ⟨rfl, dotted⟩ := quoteName_append_inj (dot _) (dot _) h
      obtain ⟨rfl, rfl⟩ :=
        quoteName_append_inj (free rfl) (free' rfl) (List.tail_eq_of_cons_eq dotted)
      exact ⟨rfl, fun l l' eq => ⟨rfl, eq⟩⟩
    | _ => cases both
  | marker x =>
    cases w' with
    | column => cases both
    | marker x' =>
      refine ⟨List.tail_eq_of_cons_eq h, fun l l' eq => ?_⟩
      obtain ⟨rfl, rest⟩ := List.cons_eq_cons.1 eq
      exact ⟨rfl, rest⟩
    | sign k => exact absurd h.symm (k.text_append_ne_marker rest' rest)
  | sign k =>
    cases w' with
    | column => cases both
    | marker => exact absurd h (k.text_append_ne_marker rest rest')
    | sign k' =>
      obtain ⟨rfl, rest⟩ := Sign.text_append_inj h
      exact ⟨rest, fun l l' eq => ⟨rfl, eq⟩⟩

/-- Words without two columns side by side are known by their text and by what they bind. -/
theorem eq_of_text_eq {ws us : List (Word α)} (apart : ws.IsChain Apart) (apart' : us.IsChain Apart)
    (text_eq : ws.flatMap (text d) = us.flatMap (text d))
    (bound_eq : ws.flatMap bound = us.flatMap bound) : ws = us := by
  induction ws generalizing us with
  | nil =>
    cases us with
    | nil => rfl
    | cons u us =>
      obtain ⟨empty, -⟩ := List.append_eq_nil_iff.1 text_eq.symm
      exact absurd empty u.text_ne_nil
  | cons w ws ih =>
    cases us with
    | nil =>
      obtain ⟨empty, -⟩ := List.append_eq_nil_iff.1 text_eq
      exact absurd empty w.text_ne_nil
    | cons u us =>
      obtain ⟨texts, words⟩ := text_append_inj (head?_flatMap_text apart)
        (head?_flatMap_text apart') text_eq
      obtain ⟨rfl, bounds⟩ := words _ _ bound_eq
      rw [ih (List.isChain_cons.1 apart).2 (List.isChain_cons.1 apart').2 texts bounds]

end Word

end BoundSql
