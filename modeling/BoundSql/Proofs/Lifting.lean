import Mathlib.Data.List.Forall2
import Mathlib.Tactic.Lemma

/-!
# Computations that go together

A relation between values is lifted to computations that give them. All that such a `Lifting` has to
keep are results and sequences; computations over the elements of two lists then go together when
those of each two elements do. `SameOutcome` is the lifting for computations that can fail: both
succeed, or both fail.
-/

namespace BoundSql

/-- What is the same for each two elements is the same for two lists. -/
lemma map_eq_of_forall₂ {α β γ : Type} {P : α → β → Prop} {f : α → γ} {g : β → γ} {l : List α}
    {l' : List β} (each : ∀ {a b}, P a b → f a = g b) (h : List.Forall₂ P l l') :
    l.map f = l'.map g := by
  rw [← List.forall₂_eq_eq_eq, List.forall₂_map_left_iff, List.forall₂_map_right_iff]
  exact h.imp fun _ _ => each

/-- Lists that correspond element by element are empty together. -/
lemma isEmpty_eq_of_forall₂ {α β : Type} {P : α → β → Prop} {l : List α} {l' : List β}
    (h : List.Forall₂ P l l') : l.isEmpty = l'.isEmpty := by
  cases h <;> rfl

/-- Results that are related go together, and so do sequences whose parts go together. -/
structure Lifting {m : Type → Type} [Monad m]
    (L : ∀ {α β : Type}, (α → β → Prop) → m α → m β → Prop) : Prop where
  pure : ∀ {α β : Type} {Q : α → β → Prop} {a : α} {b : β}, Q a b → L Q (pure a) (pure b)
  bind : ∀ {α β γ δ : Type} {Q : α → β → Prop} {Q' : γ → δ → Prop} {x : m α} {y : m β}
    {f : α → m γ} {g : β → m δ}, L Q x y → (∀ {a b}, Q a b → L Q' (f a) (g b)) →
    L Q' (x >>= f) (y >>= g)

namespace Lifting

variable {m : Type → Type} [Monad m] {L : ∀ {α β : Type}, (α → β → Prop) → m α → m β → Prop}
  {α β γ δ : Type} {P : α → β → Prop} {Q : γ → δ → Prop}

/-- Computations in a row go together when each two of them do. -/
lemma mapM [LawfulMonad m] (lifting : Lifting L) {f : α → m γ} {g : β → m δ} {l : List α}
    {l' : List β} (each : ∀ {a b}, P a b → L Q (f a) (g b)) (h : List.Forall₂ P l l') :
    L (List.Forall₂ Q) (l.mapM f) (l'.mapM g) := by
  induction h with
  | nil =>
    rw [List.mapM_nil, List.mapM_nil]
    exact lifting.pure .nil
  | cons first _ ih =>
    rw [List.mapM_cons, List.mapM_cons]
    refine lifting.bind (each first) fun head => ?_
    refine lifting.bind ih fun tail => ?_
    exact lifting.pure (.cons head tail)

/-- Computations that go on from one result to the next go together when each two of them do. -/
lemma foldlM (lifting : Lifting L) {f : γ → α → m γ} {g : δ → β → m δ} {l : List α} {l' : List β}
    {c : γ} {d : δ} (each : ∀ {c d a b}, Q c d → P a b → L Q (f c a) (g d b)) (start : Q c d)
    (h : List.Forall₂ P l l') : L Q (l.foldlM f c) (l'.foldlM g d) := by
  induction h generalizing c d with
  | nil => exact lifting.pure start
  | cons first _ ih =>
    rw [List.foldlM_cons, List.foldlM_cons]
    exact lifting.bind (each start first) fun next => ih next

/-- The same without results. -/
lemma forM (lifting : Lifting L) {f : α → m PUnit} {g : β → m PUnit} {l : List α} {l' : List β}
    (each : ∀ {a b}, P a b → L Eq (f a) (g b)) (h : List.Forall₂ P l l') :
    L Eq (l.forM f) (l'.forM g) := by
  induction h with
  | nil => exact lifting.pure rfl
  | cons first _ ih => exact lifting.bind (each first) fun _ => ih

end Lifting

/-- Both computations succeed, with results that are related, or both fail, with errors that are. -/
inductive SameOutcome {ε α β : Type} (E : ε → ε → Prop) (Q : α → β → Prop) :
    Except ε α → Except ε β → Prop where
  | ok {a b} : Q a b → SameOutcome E Q (.ok a) (.ok b)
  | error {e e'} : E e e' → SameOutcome E Q (.error e) (.error e')

variable {ε : Type} {E : ε → ε → Prop}

/-- Two runs end alike when their first steps do and their second steps do on related results. -/
lemma SameOutcome.bind {α β γ δ : Type} {Q : α → β → Prop} {Q' : γ → δ → Prop} {x : Except ε α}
    {y : Except ε β} {f : α → Except ε γ} {g : β → Except ε δ} (first : SameOutcome E Q x y)
    (second : ∀ {a b}, Q a b → SameOutcome E Q' (f a) (g b)) :
    SameOutcome E Q' (x >>= f) (y >>= g) := by
  cases first with
  | ok related => exact second related
  | error failures => exact .error failures

/-- Ending alike goes along with results and sequences. -/
lemma lifting_sameOutcome (E : ε → ε → Prop) : Lifting (m := Except ε) (SameOutcome E) :=
  ⟨.ok, .bind⟩

/-- Successes that go together are related. -/
lemma SameOutcome.of_ok {α β : Type} {Q : α → β → Prop} {a : α} {b : β}
    (h : SameOutcome E Q (.ok a) (.ok b)) : Q a b := by
  cases h
  assumption

/-- A run ends like itself. -/
lemma SameOutcome.refl {α : Type} {Q : α → α → Prop} (errors : ∀ e, E e e) (results : ∀ a, Q a a)
    (x : Except ε α) : SameOutcome E Q x x := by
  cases x with
  | ok a => exact .ok (results a)
  | error e => exact .error (errors e)

end BoundSql
