import BoundSql.Proofs.Except
import BoundSql.Template

/-!
# Filled templates

A template can be filled when all of its placeholders are closed and have a text, and fails for the
first one that is not or has none (`render_eq_error`). It is filled with these texts and no others
(`render_eq_ok_iff`), so that a text it does not mention makes no difference (`fill_insert`).
-/

namespace BoundSql.Template

/-- A character among the pieces of a text is one of the text. -/
lemma mem_of_char_mem_scan {key : Option (List Char)} {text : List Char} {c : Char}
    (h : .char c ∈ scan key text) : c ∈ text := by
  fun_induction scan key text with
  | case1 => cases h
  | _ => grind

/-- There is a text for the piece. -/
def Piece.Known (context : Dict String) : Piece → Prop
  | .char _ => True
  | .placeholder key => context.contains key = true
  | .unclosed _ => False

/-- The key that a piece asks for, when there is no text for it. -/
def Piece.missing? (context : Dict String) : Piece → Option String
  | .char _ => none
  | .placeholder key => if context.contains key then none else some key
  | .unclosed rest => some rest

/-- A character as it is, or the text for a placeholder, and nothing where there is none. -/
def Piece.fill (context : Dict String) : Piece → String
  | .char c => String.singleton c
  | .placeholder key => (context.get? key).getD ""
  | .unclosed _ => ""

/-- The pieces of a template with the text for each placeholder, and nothing where there is none. -/
def fill (template : String) (context : Dict String) : String :=
  String.join ((pieces template).map (Piece.fill context))

variable {template sql key text : String} {context : Dict String}

/-- A piece fails for the key it misses, and is filled when it misses none. -/
lemma Piece.text_eq (piece : Piece) :
    piece.text template context = match piece.missing? context with
      | some key => .error (.unknownKey template key)
      | none => .ok (piece.fill context) := by
  cases piece with
  | char | unclosed => rfl
  | placeholder key =>
    rw [text, missing?, fill, Dict.contains]
    cases context.get? key <;> rfl

/-- Pieces are filled in a row up to the first one without a text. -/
lemma mapM_text (l : List Piece) :
    l.mapM (Piece.text template context) = match l.findSome? (Piece.missing? context) with
      | some key => .error (.unknownKey template key)
      | none => .ok (l.map (Piece.fill context)) := by
  induction l with
  | nil => rfl
  | cons piece l ih =>
    rw [List.mapM_cons, ih, Piece.text_eq, List.findSome?_cons]
    cases piece.missing? context with
    | some key => rfl
    | none =>
      cases l.findSome? (Piece.missing? context) <;> rfl

/-- The first piece without a text is the error. -/
lemma render_eq_error (first : (pieces template).findSome? (Piece.missing? context) = some key) :
    render template context = .error (.unknownKey template key) := by
  rw [render, mapM_text, first]
  rfl

/-- A template none of whose pieces misses its text is filled. -/
lemma render_eq_ok (complete : (pieces template).findSome? (Piece.missing? context) = none) :
    render template context = .ok (fill template context) := by
  rw [render, mapM_text, complete]
  rfl

/-- A piece misses nothing just when there is a text for it. -/
lemma Piece.missing?_eq_none_iff {piece : Piece} :
    piece.missing? context = none ↔ piece.Known context := by
  cases piece with
  | char => exact iff_of_true rfl trivial
  | placeholder key =>
    rw [missing?, Known]
    split
    · exact iff_of_true rfl ‹_›
    · exact iff_of_false nofun ‹_›
  | unclosed => exact iff_of_false nofun id

/-- A template is filled exactly when each of its pieces has a text. -/
theorem render_eq_ok_iff :
    render template context = .ok sql ↔
      (∀ piece ∈ pieces template, piece.Known context) ∧ sql = fill template context := by
  simp only [← Piece.missing?_eq_none_iff, ← List.findSome?_eq_none_iff]
  cases first : (pieces template).findSome? (Piece.missing? context) with
  | none => rw [render_eq_ok first, Except.ok.injEq, and_iff_right rfl, eq_comm]
  | some key =>
    rw [render_eq_error first]
    exact iff_of_false nofun fun h => nomatch h.1

/-- A text that the template does not mention is not seen. -/
lemma fill_insert (context : Dict String) (text : String)
    (unsaid : .placeholder key ∉ pieces template) :
    fill template (context.insert key text) = fill template context := by
  rw [fill, fill]
  congr 1
  apply List.map_congr_left
  intro piece mem
  cases piece with
  | placeholder other =>
    have ne : key ≠ other := by
      rintro rfl
      exact unsaid mem
    rw [Piece.fill, Piece.fill, Dict.get?_insert, if_neg ne]
  | _ => rfl

end BoundSql.Template
