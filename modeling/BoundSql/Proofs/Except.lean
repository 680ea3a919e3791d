import Mathlib.Data.List.Forall2
import Mathlib.Tactic.Lemma

/-!
# Results

What it takes for a computation that can fail to succeed, part by part.
-/

namespace BoundSql

variable {ε α β : Type}

/-- An element of the second of two lists is related to one of the first. -/
lemma exists_of_forall₂ {R : α → β → Prop} {l : List α} {l' : List β} {b : β}
    (h : List.Forall₂ R l l') (mem : b ∈ l') : ∃ a ∈ l, R a b := by
  induction h with
  | nil => cases mem
  | @cons a b' l l' first _ ih =>
    rcases List.mem_cons.1 mem with rfl | mem
    · exact ⟨a, List.mem_cons_self, first⟩
    · obtain ⟨a', mem, related⟩ := ih mem
      exact ⟨a', List.mem_cons_of_mem a mem, related⟩

/-- A sequence succeeds when both its parts do. -/
lemma except_bind_ok {x : Except ε α} {f : α → Except ε β} {b : β} (h : (x >>= f) = .ok b) :
    ∃ a, x = .ok a ∧ f a = .ok b := by
  cases x with
  | ok a => exact ⟨a, rfl, h⟩
  | error e => cases h

/-- A row of computations succeeds when each of them does. -/
lemma except_mapM_ok {f : α → Except ε β} {l : List α} {bs : List β} (h : l.mapM f = .ok bs) :
    List.Forall₂ (fun a b => f a = .ok b) l bs := by
  induction l generalizing bs with
  | nil =>
    cases h
    exact .nil
  | cons a l ih =>
    rw [List.mapM_cons] at h
    obtain ⟨b, first, h⟩ := except_bind_ok h
    obtain ⟨bs, rest, h⟩ := except_bind_ok h
    cases h
    exact .cons first (ih rest)

/-- Each result of a row is that of an element. -/
lemma except_mem_of_mapM_ok {f : α → Except ε β} {l : List α} {bs : List β} {b : β}
    (h : l.mapM f = .ok bs) (mem : b ∈ bs) : ∃ a ∈ l, f a = .ok b :=
  exists_of_forall₂ (R := fun a b => f a = .ok b) (except_mapM_ok h) mem

/-- A sequence fails in one of its parts. -/
lemma except_bind_error {x : Except ε α} {f : α → Except ε β} {e : ε}
    (h : (x >>= f) = .error e) : x = .error e ∨ ∃ a, x = .ok a ∧ f a = .error e := by
  cases x with
  | ok a => exact .inr ⟨a, rfl, h⟩
  | error e' =>
    cases h
    exact .inl rfl

/-- A row of computations fails in one of them. -/
lemma except_mapM_error {f : α → Except ε β} {l : List α} {e : ε} (h : l.mapM f = .error e) :
    ∃ a ∈ l, f a = .error e := by
  induction l with
  | nil => cases h
  | cons a l ih =>
    rw [List.mapM_cons] at h
    rcases except_bind_error h with first | ⟨b, -, h⟩
    · exact ⟨a, List.mem_cons_self, first⟩
    · rcases except_bind_error h with rest | ⟨bs, -, h⟩
      · obtain ⟨a', mem, fails⟩ := ih rest
        exact ⟨a', List.mem_cons_of_mem a mem, fails⟩
      · cases h

/-- Two steps in a row succeed just when the first does and the second does on its result. -/
lemma except_bind_eq_ok_iff {x : Except ε α} {f : α → Except ε β} {b : β} :
    (x >>= f) = .ok b ↔ ∃ a, x = .ok a ∧ f a = .ok b := by
  constructor
  · exact except_bind_ok
  · rintro ⟨a, rfl, second⟩
    exact second

/-- When it is known which computations succeed and what they give, the same is known of a row. -/
lemma except_mapM_eq_ok_iff {f : α → Except ε β} {p : α → Prop} {g : α → β} {l : List α}
    {bs : List β} (each : ∀ a ∈ l, ∀ b, f a = .ok b ↔ p a ∧ b = g a) :
    l.mapM f = .ok bs ↔ (∀ a ∈ l, p a) ∧ bs = l.map g := by
  induction l generalizing bs with
  | nil =>
    rw [List.mapM_nil]
    constructor
    · intro h
      cases h
      exact ⟨List.forall_mem_nil p, rfl⟩
    · rintro ⟨-, rfl⟩
      rfl
  | cons a l ih =>
    obtain ⟨head, tail⟩ := List.forall_mem_cons.1 each
    rw [List.mapM_cons, except_bind_eq_ok_iff, List.forall_mem_cons, List.map_cons]
    constructor
    · rintro ⟨b, first, run⟩
      obtain ⟨bs, rest, run⟩ := except_bind_ok run
      cases run
      obtain ⟨holds, rfl⟩ := (head b).1 first
      obtain ⟨all, rfl⟩ := (ih tail).1 rest
      exact ⟨⟨holds, all⟩, rfl⟩
    · rintro ⟨⟨holds, all⟩, rfl⟩
      refine ⟨g a, (head _).2 ⟨holds, rfl⟩, ?_⟩
      exact except_bind_eq_ok_iff.2 ⟨l.map g, (ih tail).2 ⟨all, rfl⟩, rfl⟩

/-- A row of results succeeds when all of them are successes. -/
lemma except_mapM_id_eq_ok_iff {l : List (Except ε α)} {as : List α} :
    l.mapM id = .ok as ↔ l = as.map .ok := by
  induction l generalizing as with
  | nil =>
    rw [List.mapM_nil]
    cases as with
    | nil => exact iff_of_true rfl rfl
    | cons a as => exact iff_of_false nofun nofun
  | cons x l ih =>
    rw [List.mapM_cons, except_bind_eq_ok_iff]
    constructor
    · rintro ⟨a, first, run⟩
      obtain ⟨as, rest, run⟩ := except_bind_ok run
      cases run
      rw [ih.1 rest, List.map_cons]
      exact congrArg (· :: as.map .ok) first
    · intro eq
      cases as with
      | nil => cases eq
      | cons a as =>
        obtain ⟨rfl, rest⟩ := List.cons.inj eq
        exact ⟨a, rfl, except_bind_eq_ok_iff.2 ⟨as, ih.2 rest, rfl⟩⟩

end BoundSql
