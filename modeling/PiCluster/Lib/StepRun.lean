/-
Runs of a total step function under a condition on each step: the rule that
carries an invariant along a run, and its restriction to prefixes.  A rule may
also be about the events alone, each after those before it.
-/
import Mathlib.Data.List.Induction

namespace StepRun

variable {State Event : Type*} (step : State → Event → State)
  (cond : State → Event → Prop)

/-- Every step of the run meets the condition in the state it starts from. -/
def Meets : State → List Event → Prop
  | _, [] => True
  | state, event :: rest => cond state event ∧ Meets (step state event) rest

instance decidableMeets [∀ state event, Decidable (cond state event)] :
    (state : State) → (events : List Event) → Decidable (Meets step cond state events)
  | _, [] => inferInstanceAs (Decidable True)
  | state, event :: rest =>
      have := decidableMeets (step state event) rest
      inferInstanceAs (Decidable (cond state event ∧ Meets step cond (step state event) rest))

variable {step cond}

/-- An invariant that every allowed step keeps holds at the end of the run. -/
theorem Meets.foldl_inv {Inv : State → Prop}
    (hstep : ∀ state event, Inv state → cond state event → Inv (step state event))
    {state : State} {events : List Event} (hmeets : Meets step cond state events)
    (hinv : Inv state) : Inv (events.foldl step state) := by
  induction events generalizing state with
  | nil => exact hinv
  | cons event rest ih => exact ih hmeets.2 (hstep state event hinv hmeets.1)

/-- What no event of the run changes. -/
theorem foldl_frame {Value : Type*} (view : State → Value) {events : List Event}
    (hstep : ∀ event ∈ events, ∀ state, view (step state event) = view state) (state : State) :
    view (events.foldl step state) = view state := by
  induction events generalizing state with
  | nil => rfl
  | cons event rest ih =>
      obtain ⟨hevent, hrest⟩ := List.forall_mem_cons.mp hstep
      exact (ih hrest (step state event)).trans (hevent state)

/-- A run in two parts. -/
theorem meets_append {state : State} {initial later : List Event} :
    Meets step cond state (initial ++ later) ↔
      Meets step cond state initial ∧ Meets step cond (initial.foldl step state) later := by
  induction initial generalizing state with
  | nil => simp [Meets]
  | cons event rest ih => simp [Meets, ih, and_assoc]

/-- The condition holds along every initial part of a run. -/
theorem Meets.of_isPrefix {state : State} {initial events : List Event}
    (hmeets : Meets step cond state events) (hinitial : initial <+: events) :
    Meets step cond state initial := by
  obtain ⟨later, rfl⟩ := hinitial
  exact (meets_append.mp hmeets).1

/-- A run of relabelled events. -/
theorem meets_map {Label : Type*} (label : Label → Event) {state : State}
    {labels : List Label} : Meets step cond state (labels.map label) ↔
      Meets (fun state l => step state (label l)) (fun state l => cond state (label l))
        state labels := by
  induction labels generalizing state with
  | nil => exact Iff.rfl
  | cons first rest ih => exact and_congr_right fun _ => ih

/-- Events that meet the condition in every state. -/
theorem meets_of_forall {events : List Event}
    (hcond : ∀ event ∈ events, ∀ state, cond state event) (state : State) :
    Meets step cond state events := by
  induction events generalizing state with
  | nil => trivial
  | cons event rest ih =>
      exact ⟨hcond event List.mem_cons_self state,
        ih (fun other hother => hcond other (List.mem_cons_of_mem event hother)) _⟩

/-- Unwinding.  If a component's own events act alike on states that look alike to
it, and the events of the others change nothing it can see, then a run looks to it
like its own part of the run. -/
theorem foldl_filter_of_unwinding {own : Event → Bool} {agree : State → State → Prop}
    (hown : ∀ left right event, own event = true → agree left right →
      agree (step left event) (step right event))
    (hother : ∀ left right event, own event = false → agree left right →
      agree (step left event) right)
    {left right : State} (hagree : agree left right) (events : List Event) :
    agree (events.foldl step left) ((events.filter own).foldl step right) := by
  induction events generalizing left right with
  | nil => exact hagree
  | cons event rest ih =>
      cases hevent : own event with
      | true =>
          rw [List.filter_cons_of_pos hevent]
          exact ih (hown left right event hevent hagree)
      | false =>
          rw [List.filter_cons_of_neg (by simp [hevent])]
          exact ih (hother left right event hevent hagree)

section Rules

variable {rule : List Event → Event → Prop} {past later : List Event}

/-- Every event obeys the rule after those before it. -/
def Follows (rule : List Event → Event → Prop) (events : List Event) : Prop :=
  ∀ past event later, events = past ++ event :: later → rule past event

theorem follows_nil : Follows rule [] := by
  intro past event later hsplit
  simp at hsplit

theorem Follows.snoc {event : Event} (hpast : Follows rule past) (hevent : rule past event) :
    Follows rule (past ++ [event]) := by
  intro before middle later hsplit
  rcases List.eq_nil_or_concat later with rfl | ⟨init, last, rfl⟩
  · obtain ⟨rfl, hlast⟩ := List.append_inj' hsplit rfl
    obtain rfl := List.singleton_inj.mp hlast
    exact hevent
  · rw [List.concat_eq_append, ← List.cons_append, ← List.append_assoc] at hsplit
    exact hpast before middle init (List.append_inj' hsplit rfl).1

theorem follows_concat {event : Event} :
    Follows rule (past ++ [event]) ↔ Follows rule past ∧ rule past event := by
  constructor
  · intro hfollows
    constructor
    · intro before middle later hsplit
      apply hfollows before middle (later ++ [event])
      rw [hsplit, List.append_assoc, List.cons_append]
    · exact hfollows past event [] rfl
  · rintro ⟨hpast, hevent⟩
    exact hpast.snoc hevent

/-- A rule that still holds with more events in front. -/
theorem Follows.append (hpast : Follows rule past) (hlater : Follows rule later)
    (hmore : ∀ middle event, rule middle event → rule (past ++ middle) event) :
    Follows rule (past ++ later) := by
  induction later using List.reverseRecOn with
  | nil =>
      rw [List.append_nil]
      exact hpast
  | append_singleton init last ih =>
      obtain ⟨hinit, hlast⟩ := follows_concat.mp hlater
      rw [← List.append_assoc]
      exact (ih hinit).snoc (hmore init last hlast)

/-- An invariant over the events so far, carried by what the rule and the
condition say about the next one. -/
theorem Meets.snoc_induction {Inv : List Event → Prop} {state : State} {events : List Event}
    (hmeets : Meets step cond state events) (hfollows : Follows rule events) (hnil : Inv [])
    (hsnoc : ∀ past event, Inv past → rule past event → cond (past.foldl step state) event →
      Inv (past ++ [event])) : Inv events := by
  induction events using List.reverseRecOn with
  | nil => exact hnil
  | append_singleton init last ih =>
      obtain ⟨hinit, hlast, _⟩ := meets_append.mp hmeets
      obtain ⟨hbefore, hrule⟩ := follows_concat.mp hfollows
      exact hsnoc init last (ih hinit hbefore) hrule hlast

end Rules

/-- The last event that satisfies `p`, if there is one. -/
theorem exists_last (p : Event → Prop) (events : List Event) :
    (∀ event ∈ events, ¬ p event) ∨ ∃ past event later, events = past ++ event :: later ∧
      p event ∧ ∀ other ∈ later, ¬ p other := by
  induction events with
  | nil => exact .inl nofun
  | cons first rest ih =>
      rcases ih with hnone | ⟨past, event, later, rfl, hlast⟩
      · by_cases hfirst : p first
        · exact .inr ⟨[], first, rest, rfl, hfirst, hnone⟩
        · exact .inl (List.forall_mem_cons.mpr ⟨hfirst, hnone⟩)
      · exact .inr ⟨first :: past, event, later, rfl, hlast⟩

end StepRun
