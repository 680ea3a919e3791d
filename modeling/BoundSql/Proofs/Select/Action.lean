import BoundSql.Proofs.Outcome
import BoundSql.Select.Operations

/-!
# Runs of actions

What an action does to a query, from what its parts do. `Action.on_bind` takes the run of a sequence
apart, the other `on` lemmas run the single steps, and `on_mapM_nil`, `on_mapM_cons` the steps for
the elements of a list. A failure keeps the query as the failed part left it. `on_mapM_related` and
`on_mapM_ok` are the inductions for a whole list.
-/

namespace BoundSql.Select.Action

variable {α β : Type}

/-- An action that does nothing leaves the query as it is. -/
@[simp] lemma on_pure (a : α) (s : Select) : (pure a : Action α).on s = (.ok a, s) := rfl

/-- Looking at the query does not change it. -/
@[simp] lemma on_get (s : Select) : (get : Action Select).on s = (.ok s, s) := rfl

/-- An update always succeeds. -/
@[simp] lemma on_modify (f : Select → Select) (s : Select) :
    (modify f : Action PUnit).on s = (.ok ⟨⟩, f s) := rfl

/-- A check leaves the query as it is, whatever it says. -/
@[simp] lemma on_ofExcept (x : Except Error α) (s : Select) :
    (ofExcept x : Action α).on s = (x, s) := by
  cases x <;> rfl

/-- The end of an action on a query is its outcome. -/
lemma on_eq_outcome (x : Action α) (s : Select) : x.on s = outcome x s := rfl

/-- One action after another. -/
lemma on_bind (x : Action α) (f : α → Action β) (s : Select) :
    (x >>= f).on s = match x.on s with
      | (.ok a, t) => (f a).on t
      | (.error e, t) => (.error e, t) := by
  rw [on_eq_outcome, on_eq_outcome, outcome_bind]
  cases outcome x s with
  | mk result t => cases result <;> rfl

/-- Two actions in a row go on from where the first one succeeds. -/
lemma on_bind_ok {x : Action α} {f : α → Action β} {s t : Select} {a : α}
    (h : x.on s = (.ok a, t)) : (x >>= f).on s = (f a).on t := by
  rw [on_bind, h]

/-- Two actions in a row stop where the first one fails. -/
lemma on_bind_error {x : Action α} {f : α → Action β} {s t : Select} {e : Error}
    (h : x.on s = (.error e, t)) : (x >>= f).on s = (.error e, t) := by
  rw [on_bind, h]

/-- A run succeeds or fails. -/
lemma on_cases (x : Action α) (s : Select) :
    (∃ a t, x.on s = (.ok a, t)) ∨ ∃ e t, x.on s = (.error e, t) := by
  cases h : x.on s with
  | mk result t =>
    cases result with
    | ok a => exact .inl ⟨a, t, rfl⟩
    | error e => exact .inr ⟨e, t, rfl⟩

/-- A sequence succeeds when both its parts do. -/
lemma bind_ok {x : Action α} {f : α → Action β} {s u : Select} {b : β}
    (h : (x >>= f).on s = (.ok b, u)) :
    ∃ a t, x.on s = (.ok a, t) ∧ (f a).on t = (.ok b, u) := by
  rw [on_bind] at h
  split at h
  · exact ⟨_, _, ‹_›, h⟩
  · cases h

/-- A sequence fails in one of its parts. -/
lemma bind_error {x : Action α} {f : α → Action β} {s u : Select} {e : Error}
    (h : (x >>= f).on s = (.error e, u)) :
    x.on s = (.error e, u) ∨ ∃ a t, x.on s = (.ok a, t) ∧ (f a).on t = (.error e, u) := by
  rw [on_bind] at h
  split at h
  · exact .inr ⟨_, _, ‹_›, h⟩
  · cases h
    exact .inl ‹_›

/-- A function of what an action gives. -/
lemma on_map (f : α → β) (x : Action α) (s : Select) :
    (f <$> x).on s = match x.on s with
      | (.ok a, t) => (.ok (f a), t)
      | (.error e, t) => (.error e, t) := by
  rw [map_eq_pure_bind, on_bind]
  rfl

/-- Forgetting a result leaves the query as it is. -/
@[simp] lemma on_discard_snd (x : Action α) (s : Select) : ((discard x).on s).2 = (x.on s).2 := by
  change ((Function.const α PUnit.unit <$> x).on s).2 = (x.on s).2
  rw [on_map]
  split <;> simp [*]

/-- Discarding a result keeps the failure and the query. -/
lemma error_of_discard {x : Action α} {s t : Select} {e : Error}
    (h : (discard x).on s = (.error e, t)) : x.on s = (.error e, t) := by
  change (Function.const α PUnit.unit <$> x).on s = _ at h
  rw [on_map] at h
  split at h
  · cases h
  · cases h
    assumption

/-- Discarding a result keeps the success and the query. -/
lemma ok_of_discard {x : Action α} {s t : Select} (h : (discard x).on s = (.ok (), t)) :
    ∃ a, x.on s = (.ok a, t) := by
  change (Function.const α PUnit.unit <$> x).on s = _ at h
  rw [on_map] at h
  split at h
  · cases h
    exact ⟨_, ‹_›⟩
  · cases h

@[simp] lemma on_mapM_nil (f : α → Action β) (s : Select) : (List.mapM f []).on s = (.ok [], s) := by
  rw [List.mapM_nil, on_pure]

/-- The action for the first element, and then those for the rest. -/
lemma on_mapM_cons (f : α → Action β) (a : α) (rest : List α) (s : Select) :
    ((a :: rest).mapM f).on s = match (f a).on s with
      | (.ok b, t) => match (rest.mapM f).on t with
        | (.ok bs, u) => (.ok (b :: bs), u)
        | (.error e, u) => (.error e, u)
      | (.error e, t) => (.error e, t) := by
  rw [List.mapM_cons, on_bind]
  split
  · rw [on_bind]
    generalize (rest.mapM f).on _ = run
    obtain ⟨result, u⟩ := run
    cases result <;> rfl
  · rfl

/-- Actions in a row that succeed give one result for each element. -/
lemma length_of_on_mapM {f : α → Action β} {l : List α} {bs : List β} {s t : Select}
    (run : (l.mapM f).on s = (.ok bs, t)) : bs.length = l.length := by
  induction l generalizing s bs with
  | nil =>
    cases run
    rfl
  | cons a rest ih =>
    rw [List.mapM_cons] at run
    obtain ⟨b, u, -, run⟩ := bind_ok run
    obtain ⟨bs, u', later, run⟩ := bind_ok run
    cases run
    exact congrArg (· + 1) (ih later)

/-- Actions in a row stand in every relation that each of them stands in and that goes on from one
to the next. -/
lemma on_mapM_related {R : Select → Select → Prop} (refl : ∀ s, R s s)
    (trans : ∀ {s t u}, R s t → R t u → R s u) {f : α → Action β} {l : List α}
    (step : ∀ a ∈ l, ∀ s, R s ((f a).on s).2) (s : Select) : R s ((l.mapM f).on s).2 := by
  induction l generalizing s with
  | nil =>
    rw [on_mapM_nil]
    exact refl s
  | cons a rest ih =>
    have first := step a List.mem_cons_self s
    have later := ih fun b mem => step b (List.mem_cons_of_mem a mem)
    rw [List.mapM_cons]
    -- a failure keeps what was done before it, so each of the three ways to end counts
    rcases on_cases (f a) s with ⟨b, t, h⟩ | ⟨e, t, h⟩
    · rw [h] at first
      rw [on_bind_ok h]
      have second := later t
      rcases on_cases (rest.mapM f) t with ⟨bs, u, h'⟩ | ⟨e, u, h'⟩
      · rw [h'] at second
        rw [on_bind_ok h', on_pure]
        exact trans first second
      · rw [h'] at second
        rw [on_bind_error h']
        exact trans first second
    · rw [h] at first
      rw [on_bind_error h]
      exact first

/-- Actions in a row that succeed keep what each of them keeps, and what each of them establishes
for its result and the later ones keep holds for all results. -/
lemma on_mapM_ok {I : Select → Prop} {Q : Select → β → Prop} {f : α → Action β} {l : List α}
    {bs : List β} {s u : Select}
    (step : ∀ {a s b t}, I s → (f a).on s = (.ok b, t) → I t ∧ Q t b ∧ ∀ b', Q s b' → Q t b')
    (start : I s) (run : (l.mapM f).on s = (.ok bs, u)) :
    I u ∧ (∀ b ∈ bs, Q u b) ∧ ∀ b', Q s b' → Q u b' := by
  induction l generalizing s bs with
  | nil =>
    cases run
    exact ⟨start, by simp, fun _ h => h⟩
  | cons a rest ih =>
    rw [List.mapM_cons] at run
    obtain ⟨b, t, first, run⟩ := bind_ok run
    obtain ⟨bs, _, second, run⟩ := bind_ok run
    cases run
    obtain ⟨keeps, result, old⟩ := step start first
    obtain ⟨keeps', results, old'⟩ := ih keeps second
    refine ⟨keeps', fun b' mem => ?_, fun b' h => old' b' (old b' h)⟩
    rcases List.mem_cons.1 mem with rfl | mem
    · exact old' b' result
    · exact results b' mem

end BoundSql.Select.Action
