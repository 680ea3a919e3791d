import BoundSql.Dict
import Mathlib.Data.String.Basic
import Mathlib.Tactic.Lemma

/-!
# The order of keys

The entries of a dictionary are in the order of their keys. Texts are ordered by their characters, and
that is the order of the bytes that they are in UTF-8 (`utf8_lt_utf8_iff`): of two characters the
greater one has the greater byte where their encodings first differ. So the first entry with a property
is the one whose key is least in the order of bytes (`Dict.find?_entries_eq_some_iff`).
-/

namespace BoundSql

/-- The bytes of a text in UTF-8. -/
def utf8 (s : String) : List UInt8 :=
  s.toUTF8.data.toList

variable {s t : String} {c c' : Char}

/-- The bytes of a text are those of its characters. -/
lemma utf8_eq_flatMap (s : String) : utf8 s = s.toList.flatMap String.utf8EncodeChar := by
  rw [utf8, String.toUTF8_eq_toByteArray, ← String.utf8Encode_toList, List.utf8Encode,
    List.data_toByteArray]

/-- Of two numbers the greater one has the greater quotient, or the same one and the greater rest. -/
lemma div_lt_or_mod_lt {n m : Nat} (h : n < m) :
    n / 64 < m / 64 ∨ n / 64 = m / 64 ∧ n % 64 < m % 64 := by
  omega

/-- A greater character has a greater encoding, whatever follows. -/
lemma utf8EncodeChar_append_lt (h : c < c') (rest rest' : List UInt8) :
    String.utf8EncodeChar c ++ rest < String.utf8EncodeChar c' ++ rest' := by
  have lt : c.val.toNat < c'.val.toNat := h
  have bound : c'.val.toNat < 0x110000 := by
    rcases c'.valid with h | h
    · exact lt_of_lt_of_le h (by decide)
    · exact h.2
  unfold String.utf8EncodeChar
  dsimp only
  generalize c.val.toNat = n, c'.val.toNat = m at lt bound
  have last := div_lt_or_mod_lt lt
  have third (h : n / 64 < m / 64) := div_lt_or_mod_lt h
  have second (h : n / 64 / 64 < m / 64 / 64) := div_lt_or_mod_lt h
  simp only [Nat.div_div_eq_div_mul] at second third
  -- each length of an encoding has first bytes of its own, greater than those of the shorter ones
  split_ifs <;> simp only [List.cons_append, List.nil_append, List.cons_lt_cons_iff,
    UInt8.lt_iff_toNat_lt, ← UInt8.toNat_inj, UInt8.toNat_ofNat'] <;>
    simp (disch := omega) only [Nat.mod_eq_of_lt] <;> omega

/-- A lesser text is encoded as lesser bytes. -/
lemma flatMap_utf8EncodeChar_lt {l l' : List Char} (h : l < l') :
    l.flatMap String.utf8EncodeChar < l'.flatMap String.utf8EncodeChar := by
  induction l generalizing l' with
  | nil =>
    obtain _ | ⟨c, rest⟩ := l'
    · exact absurd h (List.lt_irrefl [])
    · obtain ⟨b, bytes, eq⟩ := List.exists_cons_of_ne_nil (String.utf8EncodeChar_ne_nil (c := c))
      rw [List.flatMap_cons, eq]
      exact List.nil_lt_cons _ _
  | cons c l ih =>
    obtain _ | ⟨c', l'⟩ := l'
    · cases h
    · rw [List.flatMap_cons, List.flatMap_cons]
      rcases List.cons_lt_cons_iff.1 h with first | ⟨rfl, rest⟩
      · exact utf8EncodeChar_append_lt first _ _
      · exact List.append_left_lt (ih rest)

/-- The order of texts is the order of their bytes. -/
lemma utf8_lt_utf8_iff : utf8 s < utf8 t ↔ s < t := by
  have mono {s t : String} (lt : s < t) : utf8 s < utf8 t := by
    rw [utf8_eq_flatMap, utf8_eq_flatMap]
    exact flatMap_utf8EncodeChar_lt (String.lt_iff.1 lt)
  refine ⟨fun lt => ?_, mono⟩
  rcases Std.lt_trichotomy s t with h | rfl | h
  · exact h
  · exact absurd lt (List.lt_irrefl _)
  · exact absurd (mono h) (List.lt_asymm lt)

namespace Dict

variable {α : Type} {d : Dict α} {key : String} {v : α}

/-- The entries are the keys with the values that are looked up for them. -/
lemma mem_entries_iff : (key, v) ∈ d.entries ↔ d.get? key = some v := by
  obtain ⟨entries, increasing⟩ := d
  change (key, v) ∈ entries ↔ find key entries = some v
  induction entries with
  | nil => simp [find]
  | cons entry rest ih =>
    obtain ⟨first, value⟩ := entry
    obtain ⟨behind, increasing⟩ := List.pairwise_cons.1 increasing
    rw [List.mem_cons, ih increasing, find, Prod.mk.injEq]
    split_ifs with same
    · -- the key is not found again behind its entry
      subst same
      have alone : find first rest ≠ some v := fun found =>
        String.lt_irrefl first (behind _ ((ih increasing).2 found))
      rw [Option.some_inj]
      constructor
      · rintro (⟨-, rfl⟩ | found)
        · rfl
        · exact absurd found alone
      · rintro rfl
        exact .inl ⟨rfl, rfl⟩
    · constructor
      · rintro (⟨rfl, -⟩ | found)
        · exact absurd rfl same
        · exact found
      · exact .inr

/-- The values are those that are looked up for some key. -/
lemma mem_values_iff : v ∈ d.values ↔ ∃ key, d.get? key = some v := by
  constructor
  · intro mem
    obtain ⟨⟨key, v⟩, listed, rfl⟩ := List.mem_map.1 mem
    exact ⟨key, mem_entries_iff.1 listed⟩
  · rintro ⟨key, get⟩
    exact mem_values_of_get? get

/-- Values that come one after another are related when those of lesser and greater keys are. -/
lemma pairwise_values {R : α → α → Prop}
    (related : ∀ {key key' v v'}, d.get? key = some v → d.get? key' = some v' → key < key' → R v v') :
    d.values.Pairwise R := by
  rw [values, List.pairwise_map]
  refine d.increasing.imp_of_mem fun mem mem' lt => ?_
  exact related (mem_entries_iff.1 mem) (mem_entries_iff.1 mem') lt

/-- The first entry whose value has a property is the one with the least key. -/
lemma find?_entries_eq_some_iff {p : α → Bool} :
    d.entries.find? (fun entry => p entry.2) = some (key, v) ↔
      d.get? key = some v ∧ p v = true ∧
        ∀ other w, d.get? other = some w → p w = true → ¬ utf8 other < utf8 key := by
  have least {key : String} {v : α}
      (found : d.entries.find? (fun entry => p entry.2) = some (key, v)) :
      d.get? key = some v ∧ p v = true ∧
        ∀ other w, d.get? other = some w → p w = true → ¬ utf8 other < utf8 key := by
    obtain ⟨holds, before, after, eq, fails⟩ := List.find?_eq_some_iff_append.1 found
    refine ⟨mem_entries_iff.1 (List.mem_of_find?_eq_some found), holds, ?_⟩
    intro other w get holds' lt
    rw [utf8_lt_utf8_iff] at lt
    have mem := mem_entries_iff.2 get
    have increasing := d.increasing
    rw [eq] at mem increasing
    rcases List.mem_append.1 mem with mem | mem
    · simpa [holds'] using fails _ mem
    · rcases List.mem_cons.1 mem with same | mem
      · cases same
        exact String.lt_irrefl _ lt
      · have behind := (List.pairwise_cons.1 (List.pairwise_append.1 increasing).2.1).1 _ mem
        exact String.lt_asymm lt behind
  -- the entry that is found has no lesser key before it, so that there is no other one
  refine ⟨least, ?_⟩
  rintro ⟨get, holds, lower⟩
  cases found : d.entries.find? (fun entry => p entry.2) with
  | none => exact absurd holds (List.find?_eq_none.1 found _ (mem_entries_iff.2 get))
  | some entry =>
    obtain ⟨get', holds', lower'⟩ := least found
    have same : entry.1 = key := by
      rcases Std.lt_trichotomy entry.1 key with lt | same | lt
      · exact absurd (utf8_lt_utf8_iff.2 lt) (lower _ _ get' holds')
      · exact same
      · exact absurd (utf8_lt_utf8_iff.2 lt) (lower' _ _ get holds)
    rw [same, get, Option.some_inj] at get'
    rw [← same, get']

end Dict

end BoundSql
