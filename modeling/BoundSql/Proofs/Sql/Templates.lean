import BoundSql.Proofs.Sql.Filling
import BoundSql.Proofs.Sql.Quoting

/-!
# Written templates

A template is written as parts: plain text, percent signs and placeholders. Rendering replaces each part
by what it stands for, once, and fails for the first placeholder without a text; a placeholder that is
opened behind the parts and never closed is always an error (`render_written`). Every template is
written in one of these two ways, which is shown along the reading of it (`goesOn`).
-/

namespace BoundSql.Template

/-- A part that templates are written with. -/
inductive Part where
  | text (s : String)
  /-- A doubled percent sign. -/
  | escaped
  /-- A percent sign that starts nothing. -/
  | lone
  | placeholder (key : String)

namespace Part

/-- The part as it stands in a template. -/
def written : Part → String
  | text s => s
  | escaped => "%%"
  | lone => "%"
  | placeholder key => "%(" ++ key ++ ")s"

/-- What a rendered template has in its place. -/
def meaning (context : Dict String) : Part → String
  | text s => s
  | escaped | lone => "%"
  | placeholder key => (context.get? key).getD ""

/-- The key that the part asks for, when there is no text for it. -/
def missing? (context : Dict String) : Part → Option String
  | placeholder key => if context.contains key then none else some key
  | _ => none

/-- The part is what is read first where it is written before the given text. -/
def Fits (rest : List Char) : Part → Prop
  | text s => '%' ∉ s.toList
  | escaped => True
  | lone => rest.head? ≠ some '%' ∧ rest.head? ≠ some '('
  | placeholder key => ¬ [')', 's'] <:+: key.toList

instance (rest : List Char) : DecidablePred (Fits rest)
  | text s => inferInstanceAs (Decidable ('%' ∉ s.toList))
  | escaped => inferInstanceAs (Decidable True)
  | lone => inferInstanceAs (Decidable (rest.head? ≠ some '%' ∧ rest.head? ≠ some '('))
  | placeholder key => inferInstanceAs (Decidable (¬ [')', 's'] <:+: key.toList))

/-- The pieces that the part is read as. -/
def pieces : Part → List Piece
  | text s => s.toList.map .char
  | escaped | lone => [.char '%']
  | placeholder key => [.placeholder key]

end Part

/-- The template of the parts, with the given text behind them. -/
def written (parts : List Part) (ending : String) : String :=
  String.join (parts.map Part.written) ++ ending

/-- Each part fits before those that follow it. -/
def WellFormed (ending : String) : List Part → Prop
  | [] => True
  | part :: parts => part.Fits (written parts ending).toList ∧ WellFormed ending parts

instance decidableWellFormed (ending : String) : DecidablePred (WellFormed ending)
  | [] => inferInstanceAs (Decidable True)
  | part :: parts =>
    have := decidableWellFormed ending parts
    inferInstanceAs (Decidable (part.Fits (written parts ending).toList ∧ WellFormed ending parts))

variable {context : Dict String} {template ending : String} {part : Part} {parts : List Part}
  {acc key rest : List Char} {c : Char}

/-- A character other than the percent sign stands for itself. -/
lemma scan_char (other : c ≠ '%') : scan none (c :: rest) = .char c :: scan none rest := by
  rw [scan]
  · rintro _ rfl
    exact absurd rfl other
  · rintro _ rfl
    exact absurd rfl other

/-- Text without a percent sign is cut into its characters. -/
lemma scan_text {s : List Char} (free : '%' ∉ s) (rest : List Char) :
    scan none (s ++ rest) = s.map .char ++ scan none rest := by
  induction s with
  | nil => rfl
  | cons c s ih =>
    obtain ⟨other, free⟩ := not_or.1 (List.mem_cons.not.1 free)
    rw [List.cons_append, scan_char (Ne.symm other), ih free]
    rfl

/-- A percent sign before anything but another one or a parenthesis is a character. -/
lemma scan_lone (single : rest.head? ≠ some '%') (unopened : rest.head? ≠ some '(') :
    scan none ('%' :: rest) = .char '%' :: scan none rest := by
  rw [scan]
  · rintro _ _ rfl
    exact single rfl
  · rintro _ _ rfl
    exact unopened rfl

/-- A key goes on until it is closed. -/
lemma scan_key (inside : ¬ [')', 's'] <+: c :: rest) :
    scan (some acc) (c :: rest) = scan (some (c :: acc)) rest := by
  rw [scan]
  rintro _ rfl rfl
  exact inside ⟨_, rfl⟩

/-- A placeholder goes up to the first end of one. -/
lemma scan_placeholder (free : ¬ [')', 's'] <:+: key) (rest : List Char) :
    scan (some acc) (key ++ ')' :: 's' :: rest) =
      .placeholder (String.ofList (acc.reverse ++ key)) :: scan none rest := by
  induction key generalizing acc with
  | nil => rw [List.nil_append, scan, List.append_nil]
  | cons c key ih =>
    obtain ⟨start, free⟩ := not_or.1 (List.infix_cons_iff.not.1 free)
    -- the character behind the key is no `s`, so that the key is not closed early
    have inside : ¬ [')', 's'] <+: c :: (key ++ ')' :: 's' :: rest) := by
      intro closed
      obtain ⟨rfl, next⟩ := List.cons_prefix_cons.1 closed
      cases key with
      | nil => exact absurd (List.cons_prefix_cons.1 next).1 (by decide)
      | cons c key =>
        obtain ⟨rfl, -⟩ := List.cons_prefix_cons.1 next
        exact start (List.prefix_append [')', 's'] key)
    rw [List.cons_append, scan_key inside, ih free, List.reverse_cons, List.append_assoc]
    rfl

/-- A placeholder that nothing ends takes all the rest. -/
lemma scan_unclosed (free : ¬ [')', 's'] <:+: rest) :
    scan (some acc) rest = [.unclosed (String.ofList (acc.reverse ++ rest))] := by
  induction rest generalizing acc with
  | nil => rw [scan, List.append_nil]
  | cons c rest ih =>
    obtain ⟨start, free⟩ := not_or.1 (List.infix_cons_iff.not.1 free)
    rw [scan_key start, ih free, List.reverse_cons, List.append_assoc]
    rfl

/-- A placeholder is written as its key between the two ends. -/
lemma toList_placeholder (key : String) (rest : List Char) :
    (Part.placeholder key).written.toList ++ rest =
      '%' :: '(' :: (key.toList ++ ')' :: 's' :: rest) := by
  simp [Part.written]

/-- Reading a template meets each part where it is written. -/
lemma scan_written (fits : part.Fits rest) :
    scan none (part.written.toList ++ rest) = part.pieces ++ scan none rest := by
  cases part with
  | text s => exact scan_text fits rest
  | escaped => rfl
  | lone => exact scan_lone fits.1 fits.2
  | placeholder key =>
    rw [toList_placeholder, scan, scan_placeholder fits, List.reverse_nil, List.nil_append,
      String.ofList_toList]
    rfl

/-- Parts are written one after another. -/
lemma written_cons : (written (part :: parts) ending).toList =
    part.written.toList ++ (written parts ending).toList := by
  simp [written]

/-- A template that is written from parts is cut into the pieces of the parts. -/
lemma pieces_written (wellFormed : WellFormed ending parts) :
    pieces (written parts ending) = parts.flatMap Part.pieces ++ pieces ending := by
  induction parts with
  | nil => simp [written]
  | cons part parts ih =>
    obtain ⟨fits, wellFormed⟩ := wellFormed
    rw [pieces, written_cons, scan_written fits, ← pieces, ih wellFormed, List.flatMap_cons,
      List.append_assoc]

/-- Characters miss nothing. -/
lemma findSome?_chars (s : String) :
    (s.toList.map Piece.char).findSome? (Piece.missing? context) = none := by
  rw [List.findSome?_map]
  exact List.findSome?_eq_none_iff.2 fun _ _ => rfl

/-- The pieces of a part miss what the part does. -/
lemma Part.findSome?_pieces (part : Part) :
    part.pieces.findSome? (Piece.missing? context) = part.missing? context := by
  cases part with
  | text s => exact findSome?_chars s
  | escaped | lone => rfl
  | placeholder key =>
    rw [pieces, List.findSome?_singleton]
    rfl

/-- The pieces of several parts miss first what the parts do. -/
lemma findSome?_pieces (parts : List Part) :
    (parts.flatMap Part.pieces).findSome? (Piece.missing? context) =
      parts.findSome? (Part.missing? context) := by
  induction parts with
  | nil => rfl
  | cons part parts ih =>
    rw [List.flatMap_cons, List.findSome?_append, part.findSome?_pieces, ih, List.findSome?_cons]
    cases part.missing? context <;> rfl

/-- The characters of a text are filled with the text. -/
lemma join_chars (s : String) :
    String.join (s.toList.map (Piece.fill context ∘ Piece.char)) = s := by
  apply String.toList_injective
  rw [String.toList_join, List.flatMap_map]
  simp [Piece.fill]

/-- The pieces of a part are filled with its meaning. -/
lemma Part.join_pieces (part : Part) :
    String.join (part.pieces.map (Piece.fill context)) = part.meaning context := by
  cases part with
  | text s => rw [pieces, List.map_map, meaning, join_chars]
  | escaped | lone => rfl
  | placeholder key => simp [pieces, Piece.fill, meaning, String.join]

/-- The pieces of several parts are filled with their meanings. -/
lemma join_pieces (parts : List Part) :
    String.join ((parts.flatMap Part.pieces).map (Piece.fill context)) =
      String.join (parts.map (Part.meaning context)) := by
  induction parts with
  | nil => rfl
  | cons part parts ih =>
    rw [List.flatMap_cons, List.map_append, String.join_append, part.join_pieces, ih, List.map_cons,
      String.join_cons]

/-- The empty template has no pieces. -/
lemma pieces_empty : pieces "" = [] := rfl

/-- A template that is nothing but an unclosed placeholder is one piece. -/
lemma pieces_unclosed {rest : String} (free : ¬ [')', 's'] <:+: rest.toList) :
    pieces ("%(" ++ rest) = [.unclosed rest] := by
  have text : ("%(" ++ rest).toList = '%' :: '(' :: rest.toList := String.toList_append
  rw [pieces, text, scan, scan_unclosed free, List.reverse_nil, List.nil_append, String.ofList_toList]

/-- With its percent signs doubled, a text is cut into its characters. -/
lemma scan_doubled (s : List Char) : scan none (doubled '%' s) = s.map .char := by
  induction s with
  | nil => rfl
  | cons c s ih =>
    rw [← List.append_nil (doubled '%' (c :: s)), doubled_cons_append, List.append_nil]
    split
    · rename_i eq
      rw [eq]
      exact congrArg (Piece.char '%' :: ·) ih
    · rename_i other
      exact (scan_char other).trans (congrArg (Piece.char c :: ·) ih)

/-- What may stand behind the parts of a template: nothing, or a placeholder that is never closed. -/
def IsEnding (ending : String) : Prop :=
  ending = "" ∨ ∃ rest : String, ending = "%(" ++ rest ∧ ¬ [')', 's'] <:+: rest.toList

/-- The text is that of parts, each of which fits, and of an ending. -/
def IsWritten (l : List Char) : Prop :=
  ∃ parts ending, WellFormed ending parts ∧ IsEnding ending ∧ (written parts ending).toList = l

/-- A part that fits before a written text makes a written text with it. -/
lemma IsWritten.cons (h : IsWritten rest) (fits : part.Fits rest) :
    IsWritten (part.written.toList ++ rest) := by
  obtain ⟨parts, ending, wellFormed, isEnding, rfl⟩ := h
  exact ⟨part :: parts, ending, ⟨fits, wellFormed⟩, isEnding, written_cons⟩

/-- How a text goes on that is read outside of placeholders, or inside of one: there it is never closed,
or it is closed somewhere for the first time. -/
def GoesOn : Option (List Char) → List Char → Prop
  | none, l => IsWritten l
  | some _, l => ¬ [')', 's'] <:+: l ∨
      ∃ key rest, l = key ++ ')' :: 's' :: rest ∧ ¬ [')', 's'] <:+: key ∧ IsWritten rest

/-- Every text is written from parts, with a placeholder open before it or not. -/
lemma goesOn (opened : Option (List Char)) (l : List Char) : GoesOn opened l := by
  fun_induction scan opened l with
  | case1 => exact ⟨[], "", trivial, .inl rfl, rfl⟩
  | case2 rest ih =>
    have fits : Part.escaped.Fits rest := trivial
    exact IsWritten.cons ih fits
  | case3 rest ih =>
    rcases ih with unclosed | ⟨key, rest, rfl, free, ih⟩
    · refine ⟨[], "%(" ++ String.ofList rest, trivial, .inr ⟨_, rfl, ?_⟩, ?_⟩
      · rwa [String.toList_ofList]
      · simp [written]
    · have fits : (Part.placeholder (String.ofList key)).Fits rest := by
        rwa [Part.Fits, String.toList_ofList]
      have isWritten := ih.cons fits
      rwa [toList_placeholder, String.toList_ofList] at isWritten
  | case4 c rest single unopened ih =>
    by_cases sign : c = '%'
    · subst sign
      have fits : Part.lone.Fits rest := by
        refine ⟨fun head => ?_, fun head => ?_⟩
        · obtain ⟨rest, rfl⟩ := List.head?_eq_some_iff.1 head
          exact single rest rfl rfl
        · obtain ⟨rest, rfl⟩ := List.head?_eq_some_iff.1 head
          exact unopened rest rfl rfl
      exact IsWritten.cons ih fits
    · have fits : (Part.text (String.singleton c)).Fits rest := by
        rw [Part.Fits, String.toList_singleton, List.mem_singleton]
        exact Ne.symm sign
      have isWritten := ih.cons fits
      rwa [Part.written, String.toList_singleton] at isWritten
  | case5 => exact .inl (by decide)
  | case6 key rest ih => exact .inr ⟨[], rest, rfl, by decide, ih⟩
  | case7 acc c rest inside ih =>
    -- the key is not closed here, so that it is closed first where the rest of it is
    have later {l : List Char} (start : l <+: rest) (free : ¬ [')', 's'] <:+: l) :
        ¬ [')', 's'] <:+: c :: l := by
      rw [List.infix_cons_iff, not_or]
      refine ⟨fun closed => ?_, free⟩
      obtain ⟨rfl, next⟩ := List.cons_prefix_cons.1 closed
      obtain ⟨after, rfl⟩ := next.trans start
      exact inside after rfl rfl
    rcases ih with unclosed | ⟨key, after, rfl, free, ih⟩
    · exact .inl (later List.prefix_rfl unclosed)
    · exact .inr ⟨c :: key, after, rfl, later (List.prefix_append key _) free, ih⟩

/-- Every template is written with parts that fit, and nothing or an unclosed placeholder behind them.
With nothing behind them they are replaced by what they stand for, unless there is no text for a
placeholder: then the first such key is the error. With an unclosed placeholder behind them there is
always an error, which names the first such key or else all that follows the opening. A text whose
percent signs are doubled is rendered as itself. -/
theorem render_written (context : Dict String) :
    (∀ template, ∃ parts ending, WellFormed ending parts ∧ IsEnding ending ∧
      written parts ending = template) ∧
    (∀ parts, WellFormed "" parts →
      render (written parts "") context = match parts.findSome? (Part.missing? context) with
        | some key => .error (.unknownKey (written parts "") key)
        | none => .ok (String.join (parts.map (Part.meaning context)))) ∧
    (∀ parts rest, WellFormed ("%(" ++ rest) parts → ¬ [')', 's'] <:+: rest.toList →
      render (written parts ("%(" ++ rest)) context =
        .error (.unknownKey (written parts ("%(" ++ rest))
          ((parts.findSome? (Part.missing? context)).getD rest))) ∧
    ∀ text : String, render (String.ofList (doubled '%' text.toList)) context = .ok text := by
  refine ⟨fun template => ?_, fun parts wellFormed => ?_, fun parts rest wellFormed unclosed => ?_,
    fun text => ?_⟩
  · obtain ⟨parts, ending, wellFormed, isEnding, eq⟩ := goesOn none template.toList
    exact ⟨parts, ending, wellFormed, isEnding, String.toList_injective eq⟩
  · have pieces_eq : pieces (written parts "") = parts.flatMap Part.pieces := by
      rw [pieces_written wellFormed, pieces_empty, List.append_nil]
    cases first : parts.findSome? (Part.missing? context) with
    | some key =>
      apply render_eq_error
      rw [pieces_eq, findSome?_pieces, first]
    | none =>
      rw [← findSome?_pieces, ← pieces_eq] at first
      rw [render_eq_ok first, fill, pieces_eq, join_pieces]
  · apply render_eq_error
    rw [pieces_written wellFormed, pieces_unclosed unclosed, List.findSome?_append, findSome?_pieces]
    cases parts.findSome? (Part.missing? context) <;> rfl
  · have pieces_eq : pieces (String.ofList (doubled '%' text.toList)) = text.toList.map .char := by
      rw [pieces, String.toList_ofList, scan_doubled]
    have complete : (pieces _).findSome? (Piece.missing? context) = none :=
      pieces_eq ▸ findSome?_chars text
    rw [render_eq_ok complete, fill, pieces_eq, List.map_map, join_chars]

/-- A text with percent signs in it is put in as it is. A key without a text, or one that is not closed,
is the error. -/
theorem render_written_share :
    let context := (∅ : Dict String).insert "share" "%(rate)s"
    render "ä%(share)s%%%" context = .ok "ä%(rate)s%%" ∧
      render "%(share)s%(rate)s%(last)s" context =
        .error (.unknownKey "%(share)s%(rate)s%(last)s" "rate") ∧
      render "%%%(n)" context = .error (.unknownKey "%%%(n)" "n)") ∧
      render "100%%(share" context = .ok "100%(share" := by
  intro context
  obtain ⟨-, closed, unclosed, doubled⟩ := render_written context
  have first := closed [.text "ä", .placeholder "share", .escaped, .lone] (by decide)
  have second := closed [.placeholder "share", .placeholder "rate", .placeholder "last"] (by decide)
  have third := unclosed [.escaped] "n)" ⟨trivial, trivial⟩ (by decide)
  exact ⟨first, second, third, doubled "100%(share"⟩

end BoundSql.Template
