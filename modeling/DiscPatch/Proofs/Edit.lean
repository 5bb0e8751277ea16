import DiscPatch.Log

/-!
# What an edit answers and leaves

`Edit.outcome` is the answer of an edit together with the state it leaves, without what it notes.
There is one equation for each way to build an edit, so that a proof about an edit never has to look
at how edits are put together.

`Ran` and `Stepped` say the same of a run over a list of items: it deals with all of them, or one
fails and those in front of it have been dealt with (`stepped_mapM`).
-/

namespace DiscPatch.Edit

variable {σ α β : Type}

/-- The answer of an edit, or its failure, and the state it leaves. -/
def outcome (edit : Edit σ α) (state : σ) : Except Error α × σ :=
  (edit.result state).value

@[simp] theorem outcome_pure (a : α) (state : σ) :
    (pure a : Edit σ α).outcome state = (.ok a, state) := rfl

@[simp] theorem outcome_throw (error : Error) (state : σ) :
    (throw error : Edit σ α).outcome state = (.error error, state) := rfl

@[simp] theorem outcome_get (state : σ) : (get : Edit σ σ).outcome state = (.ok state, state) := rfl

@[simp] theorem outcome_set (new state : σ) :
    (set new : Edit σ PUnit).outcome state = (.ok ⟨⟩, new) := rfl

@[simp] theorem outcome_fromLogged (answer : Logged α) (state : σ) :
    (fromLogged answer : Edit σ α).outcome state = (.ok answer.value, state) := rfl

@[simp] theorem outcome_fromFallible (answer : Logged (Except Error α)) (state : σ) :
    (fromFallible answer : Edit σ α).outcome state = (answer.value, state) := rfl

@[simp] theorem outcome_note (event : Event) (state : σ) :
    (note event : Edit σ Unit).outcome state = (.ok (), state) := rfl

@[simp] theorem outcome_answer (answer : Except Error α) (state : σ) :
    outcome (ExceptT.mk (pure answer) : Edit σ α) state = (answer, state) := rfl

/-- Two edits in a row: the second starts from the state the first leaves, and only if the first has
an answer. -/
theorem outcome_bind (edit : Edit σ α) (next : α → Edit σ β) (state : σ) :
    (edit >>= next).outcome state =
      match edit.outcome state with
      | (.ok a, after) => (next a).outcome after
      | (.error error, after) => (.error error, after) := by
  change (ExceptT.bindCont next (edit.outcome state).1 (edit.outcome state).2).value = _
  rcases edit.outcome state with ⟨_ | a, after⟩ <;> rfl

theorem outcome_bind_ok {edit : Edit σ α} {next : α → Edit σ β} {state after : σ} {a : α}
    (h : edit.outcome state = (.ok a, after)) :
    (edit >>= next).outcome state = (next a).outcome after := by
  rw [outcome_bind, h]

theorem outcome_bind_error {edit : Edit σ α} {next : α → Edit σ β} {state after : σ}
    {error : Error} (h : edit.outcome state = (.error error, after)) :
    (edit >>= next).outcome state = (.error error, after) := by
  rw [outcome_bind, h]

/-- An answer that is put to use and nothing else. -/
theorem outcome_bind_pure (edit : Edit σ α) (f : α → β) (state : σ) :
    (do return f (← edit) : Edit σ β).outcome state =
      ((edit.outcome state).1.map f, (edit.outcome state).2) := by
  rw [outcome_bind]
  rcases edit.outcome state with ⟨_ | a, after⟩ <;> rfl

/-! ## Edits with the same outcome -/

theorem outcome_bind_congr {edit other : Edit σ α} {next following : α → Edit σ β}
    (h : edit.outcome = other.outcome) (hnext : ∀ a, (next a).outcome = (following a).outcome) :
    (edit >>= next).outcome = (other >>= following).outcome := by
  funext state
  rw [outcome_bind, outcome_bind, h]
  simp only [hnext]

theorem outcome_mapM_congr {edit other : α → Edit σ β} {items : List α}
    (h : ∀ item ∈ items, (edit item).outcome = (other item).outcome) :
    (items.mapM edit).outcome = (items.mapM other).outcome := by
  induction items with
  | nil => rfl
  | cons item rest ih =>
    obtain ⟨hitem, hrest⟩ := List.forall_mem_cons.mp h
    rw [List.mapM_cons, List.mapM_cons]
    exact outcome_bind_congr hitem fun _ => outcome_bind_congr (ih hrest) fun _ => rfl

/-! ## Runs over items -/

/-- The items are dealt with in turn: each has its answer, in the state that those in front of it
leave. -/
inductive Ran (step : α → Edit σ β) : (state : σ) → List α → List β → (after : σ) → Prop where
  /-- nothing is left -/
  | done (state : σ) : Ran step state [] [] state
  /-- one item, and then the others -/
  | next {state mid after : σ} {item : α} {items : List α} {answer : β} {answers : List β}
    (hitem : (step item).outcome state = (.ok answer, mid))
    (hrest : Ran step mid items answers after) :
    Ran step state (item :: items) (answer :: answers) after

theorem Ran.exists_of_mem {step : α → Edit σ β} {state after : σ} {items : List α}
    {answers : List β} (h : Ran step state items answers after) {item : α} (hitem : item ∈ items) :
    ∃ before answer next, (step item).outcome before = (.ok answer, next) := by
  induction h with
  | done => cases hitem
  | next hfirst _ ih =>
    rcases List.mem_cons.mp hitem with rfl | hrest
    · exact ⟨_, _, _, hfirst⟩
    · exact ih hrest

/-- How a run over items ends: all of them are dealt with, or one fails after those in front of
it. -/
inductive Stepped (step : α → Edit σ β) (state : σ) (items : List α) :
    Except Error (List β) → (after : σ) → Prop where
  /-- every item has its answer -/
  | returned {answers : List β} {after : σ} (h : Ran step state items answers after) :
    Stepped step state items (.ok answers) after
  /-- an item fails -/
  | stopped {front back : List α} {item : α} {answers : List β} {mid after : σ} {error : Error}
    (hitems : items = front ++ item :: back) (hfront : Ran step state front answers mid)
    (hitem : (step item).outcome mid = (.error error, after)) :
    Stepped step state items (.error error) after

/-- **Every run over items** ends in one of these ways. -/
theorem stepped_mapM (step : α → Edit σ β) (items : List α) (state : σ) :
    Stepped step state items ((items.mapM step).outcome state).1
      ((items.mapM step).outcome state).2 := by
  induction items generalizing state with
  | nil => exact .returned (.done state)
  | cons item rest ih =>
    rw [List.mapM_cons, outcome_bind]
    rcases hitem : (step item).outcome state with ⟨error | answer, mid⟩
    · exact .stopped rfl (.done state) hitem
    dsimp only
    have hrest := ih mid
    rw [outcome_bind]
    generalize (rest.mapM step).outcome mid = result at hrest
    obtain ⟨answers, after⟩ := result
    cases hrest with
    | returned hran => exact .returned (.next hitem hran)
    | stopped hitems hfront hstop =>
      exact .stopped (by rw [hitems, List.cons_append]) (.next hitem hfront) hstop

end DiscPatch.Edit
