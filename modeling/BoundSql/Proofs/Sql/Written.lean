import BoundSql.Rendering
import BoundSql.Proofs.Sql.Quoting

/-!
# Fragments that are written well

A fragment is `Marked` when its text is made of quoted names and of plain characters among which the
markers are as many as the parameters. Plain characters are those that have no meaning of their own
in a statement. All ways of putting fragments together keep this.
-/

namespace BoundSql

/-- The characters that a statement gives a meaning to: the marker and the quotes, and for a strict
reader the sign of numbered markers as well. -/
def reserved (strict : Bool) : List Char :=
  let marks := ['?', '\'', '"', Char.ofNat 96]
  if strict then '$' :: marks else marks

/-- The text has no characters with a meaning of their own. -/
def Plain (strict : Bool) (s : String) : Prop :=
  ∀ c ∈ s.toList, c ∉ reserved strict

/-- Whether the text is plain. -/
def isPlain (strict : Bool) (s : String) : Bool :=
  s.toList.all fun c => !(reserved strict).contains c

/-- The check for plain text is right. -/
lemma isPlain_iff {strict : Bool} {s : String} : isPlain strict s = true ↔ Plain strict s := by
  simp [isPlain, Plain]

instance (strict : Bool) (s : String) : Decidable (Plain strict s) :=
  decidable_of_iff _ isPlain_iff

/-- The text is made of quoted names and of plain characters, with so many markers among these. -/
def Written (d : Dialect) (strict : Bool) (count : Nat) (s : String) : Prop :=
  ∃ plain, Spells d.quoteChar plain s.toList ∧ (∀ c ∈ plain, c = '?' ∨ c ∉ reserved strict) ∧
    plain.count '?' = count

variable {d : Dialect} {strict : Bool} {m n : Nat} {s t : String}

/-- A marker is not plain. -/
lemma marker_mem_reserved (strict : Bool) : '?' ∈ reserved strict := by
  cases strict <;> decide

/-- The quotes of the dialects are not plain. -/
lemma quoteChar_mem_reserved (d : Dialect) (strict : Bool) : d.quoteChar ∈ reserved strict := by
  cases d <;> cases strict <;> decide

/-- Texts in a row have their markers in a row. -/
lemma Written.append (h : Written d strict m s) (h' : Written d strict n t) :
    Written d strict (m + n) (s ++ t) := by
  obtain ⟨plain, spells, allowed, rfl⟩ := h
  obtain ⟨plain', spells', allowed', rfl⟩ := h'
  refine ⟨plain ++ plain', ?_, fun c mem => ?_, List.count_append⟩
  · rw [String.toList_append]
    exact spells.append spells'
  · exact (List.mem_append.1 mem).elim (allowed c) (allowed' c)

/-- What is plain for a strict reader is plain. -/
lemma Plain.relax (h : Plain true s) (strict : Bool) : Plain strict s := by
  cases strict with
  | true => exact h
  | false => exact fun c mem reserved => h c mem (List.mem_cons_of_mem _ reserved)

/-- A text that is found to be plain for a strict reader is plain. -/
lemma plain_of_strict (h : isPlain true s = true) : Plain strict s :=
  (isPlain_iff.1 h).relax strict

/-- The empty text, blanks and commas are plain. -/
lemma plain_empty : Plain strict "" := plain_of_strict (by decide)

/-- A blank is plain. -/
lemma plain_blank : Plain strict " " := plain_of_strict (by decide)

/-- A comma is plain. -/
lemma plain_comma : Plain strict ", " := plain_of_strict (by decide)

/-- Plain texts in a row are plain. -/
lemma Plain.append (h : Plain strict s) (h' : Plain strict t) : Plain strict (s ++ t) := by
  intro c mem
  rw [String.toList_append] at mem
  exact (List.mem_append.1 mem).elim (h c) (h' c)

/-- A plain text has no markers. -/
lemma Plain.written (h : Plain strict s) : Written d strict 0 s := by
  refine ⟨s.toList, spells_self _ _, fun c mem => .inr (h c mem), List.count_eq_zero.2 fun mem => ?_⟩
  exact h '?' mem (marker_mem_reserved strict)

/-- Texts without markers in a row have none. -/
lemma Written.append_none (h : Written d strict 0 s) (h' : Written d strict 0 t) :
    Written d strict 0 (s ++ t) :=
  h.append h'

/-- A quoted name has no markers, whatever characters are in it. -/
lemma written_quoteName (d : Dialect) (strict : Bool) (s : String) :
    Written d strict 0 (d.quoteName s) :=
  ⟨[], spells_quoteName d s, by simp, rfl⟩

namespace Fragment

/-- The fragment has as many markers as parameters. -/
def Marked (d : Dialect) (strict : Bool) (a : Fragment) : Prop :=
  Written d strict a.params.length a.sql

variable {a b : Fragment}

/-- A bound value has one marker. -/
lemma marked_bind (d : Dialect) (strict : Bool) (v : Value) : (bind v).Marked d strict := by
  have marker : "?".toList = ['?'] := by decide
  refine ⟨['?'], ?_, by simp, rfl⟩
  rw [bind, marker]
  exact spells_self _ _

/-- Text without markers before a fragment leaves one marker for each parameter. -/
lemma Marked.prepend (h : a.Marked d strict) (hs : Written d strict 0 s) :
    (a.mapSql (s ++ ·)).Marked d strict := by
  have written := hs.append h
  rwa [Nat.zero_add] at written

/-- Text without markers behind a fragment leaves one marker for each parameter. -/
lemma Marked.extend (h : a.Marked d strict) (hs : Written d strict 0 s) :
    (a.mapSql (· ++ s)).Marked d strict :=
  Written.append h hs

/-- Parentheses leave one marker for each parameter. -/
lemma Marked.parenthesized (h : a.Marked d strict) : a.parenthesized.Marked d strict := by
  have opening : Plain strict "(" := plain_of_strict (by decide)
  have closing : Plain strict ")" := plain_of_strict (by decide)
  exact (h.prepend opening.written).extend closing.written

/-- Fragments side by side with plain text between them. -/
lemma marked_join (separator : Plain strict s) {parts : List Fragment}
    (h : ∀ a ∈ parts, a.Marked d strict) : (join s parts).Marked d strict := by
  induction parts with
  | nil => exact plain_empty.written
  | cons a rest ih =>
    have first := h a List.mem_cons_self
    have later := ih fun b mem => h b (List.mem_cons_of_mem a mem)
    cases rest with
    | nil => rwa [join_singleton]
    | cons b rest =>
      have written := (first.extend (separator.written (d := d))).append later
      have length : (join s (a :: b :: rest)).params.length =
          (a.mapSql (· ++ s)).params.length + (join s (b :: rest)).params.length :=
        List.length_append
      have sql : (join s (a :: b :: rest)).sql =
          (a.mapSql (· ++ s)).sql ++ (join s (b :: rest)).sql :=
        String.intercalate_cons_cons
      rw [Marked, length, sql]
      exact written

/-- Texts without markers in a row, with plain text between them, have none. -/
lemma written_intercalate (separator : Plain strict s) {texts : List String}
    (h : ∀ text ∈ texts, Written d strict 0 text) : Written d strict 0 (s.intercalate texts) := by
  have joined : (join s (texts.map raw)).Marked d strict := by
    apply marked_join separator
    intro a mem
    obtain ⟨text, inside, rfl⟩ := List.mem_map.1 mem
    exact h text inside
  have sql : (texts.map raw).map (·.sql) = texts := by
    rw [List.map_map]
    exact List.map_id texts
  have params : (join s (texts.map raw)).params = [] := by
    apply List.flatMap_eq_nil_iff.2
    intro a mem
    obtain ⟨text, -, rfl⟩ := List.mem_map.1 mem
    rfl
  rw [Marked, params, join, sql] at joined
  exact joined

/-- Two fragments in a row have one marker for each parameter. -/
lemma Marked.pair (h : a.Marked d strict) (h' : b.Marked d strict) (separator : Plain strict s) :
    (join s [a, b]).Marked d strict := by
  apply marked_join separator
  intro c mem
  rcases List.mem_cons.1 mem with rfl | mem
  · exact h
  · obtain rfl := List.mem_singleton.1 mem
    exact h'

/-- An operator between two fragments leaves one marker for each parameter. -/
lemma Marked.between (h : a.Marked d strict) (h' : b.Marked d strict) (operator : Plain strict s) :
    (a.between s b).Marked d strict :=
  h.pair h' ((plain_blank.append operator).append plain_blank)

end Fragment

end BoundSql
