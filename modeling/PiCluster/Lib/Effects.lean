/-
Programs over an effect signature: finite trees whose nodes are effects and whose
branches are the answers the world may give.  A run is the list of effects with
their answers, and `wp` is the weakest precondition over the effects performed so
far.
-/
import PiCluster.Lib.StepRun

namespace Effects

/-- A program that performs effects `E`, answered in `A`, and ends with a value
or an error. -/
inductive Prog (E : Type) (A : E → Type) (ε α : Type) where
  | done (result : Except ε α)
  | perform (effect : E) (next : A effect → Prog E A ε α)

/-- An effect together with its answer. -/
structure Event (E : Type) (A : E → Type) where
  effect : E
  answer : A effect

variable {E : Type} {A : E → Type} {ε α β : Type}

namespace Prog

/-- Run the continuation on the result, value or error. -/
def andThen (prog : Prog E A ε α) (next : Except ε α → Prog E A ε β) : Prog E A ε β :=
  match prog with
  | .done result => next result
  | .perform effect rest => .perform effect fun answer => (rest answer).andThen next

def bind (prog : Prog E A ε α) (next : α → Prog E A ε β) : Prog E A ε β :=
  prog.andThen fun
    | .ok value => next value
    | .error e => .done (.error e)

instance : Monad (Prog E A ε) where
  pure value := .done (.ok value)
  bind := bind

/-- Perform one effect and return its answer. -/
def call (effect : E) : Prog E A ε (A effect) :=
  .perform effect fun answer => .done (.ok answer)

def fail (e : ε) : Prog E A ε α := .done (.error e)

/-- Turn a computed result into a program. -/
def lift (result : Except ε α) : Prog E A ε α := .done result

/-- `let _ = prog`: the result is dropped, also when it is an error. -/
def ignore (prog : Prog E A ε α) : Prog E A ε Unit :=
  prog.andThen fun _ => .done (.ok ())

/-- `prog.unwrap_or_else(|_| default)`. -/
def getD (prog : Prog E A ε α) (default : α) : Prog E A ε α :=
  prog.andThen fun
    | .ok value => .done (.ok value)
    | .error _ => .done (.ok default)

/-- `prog.map_err(f)`. -/
def mapError {δ : Type} (f : ε → δ) : Prog E A ε α → Prog E A δ α
  | .done result => .done (result.mapError f)
  | .perform effect next => .perform effect fun answer => (next answer).mapError f

/-- Every way the program can run from here, after the effects in `past`, ends
in `post`. -/
def wp (prog : Prog E A ε α) (post : List (Event E A) → Except ε α → Prop)
    (past : List (Event E A)) : Prop :=
  match prog with
  | .done result => post past result
  | .perform effect next => ∀ answer, (next answer).wp post (past ++ [⟨effect, answer⟩])

/-- The runs of a program. -/
inductive Runs : Prog E A ε α → List (Event E A) → Except ε α → Prop
  | done (result : Except ε α) : Runs (.done result) [] result
  | perform (effect : E) (next : A effect → Prog E A ε α) (answer : A effect)
      (trace : List (Event E A)) (result : Except ε α)
      (hrest : Runs (next answer) trace result) :
      Runs (.perform effect next) (⟨effect, answer⟩ :: trace) result

/-- A run of a program whose precondition holds ends in its postcondition. -/
theorem Runs.post {prog : Prog E A ε α} {trace : List (Event E A)} {result : Except ε α}
    (hruns : Runs prog trace result) {post : List (Event E A) → Except ε α → Prop}
    {past : List (Event E A)} (hwp : prog.wp post past) : post (past ++ trace) result := by
  induction hruns generalizing past with
  | done result =>
      rw [List.append_nil]
      exact hwp
  | perform effect next answer trace result hrest ih =>
      have hpost := ih (hwp answer)
      rwa [List.append_assoc, List.singleton_append] at hpost

section Inversion

variable {trace : List (Event E A)}

theorem Runs.of_done {result ended : Except ε α}
    (hruns : Runs (.done result : Prog E A ε α) trace ended) :
    trace = [] ∧ ended = result := by
  cases hruns
  exact ⟨rfl, rfl⟩

theorem Runs.of_call {effect : E} {result : Except ε (A effect)}
    (hruns : Runs (call effect) trace result) :
    ∃ answer, trace = [⟨effect, answer⟩] ∧ result = .ok answer := by
  cases hruns with
  | perform _ _ answer later _ hrest =>
      obtain ⟨rfl, rfl⟩ := hrest.of_done
      exact ⟨answer, rfl, rfl⟩

theorem Runs.of_andThen {prog : Prog E A ε α} {next : Except ε α → Prog E A ε β}
    {result : Except ε β} (hruns : Runs (prog.andThen next) trace result) :
    ∃ past first later, trace = past ++ later ∧ Runs prog past first ∧
      Runs (next first) later result := by
  induction prog generalizing trace with
  | done first => exact ⟨[], first, trace, rfl, .done first, hruns⟩
  | perform effect rest ih =>
      cases hruns with
      | perform _ _ answer later _ hrest =>
          obtain ⟨past, first, later, rfl, hpast, hlater⟩ := ih answer hrest
          exact ⟨⟨effect, answer⟩ :: past, first, later, rfl, .perform _ _ _ _ _ hpast, hlater⟩

/-- A run of two programs in turn ends with the error of the first one, or is a run
of each. -/
theorem Runs.bind_cases {prog : Prog E A ε α} {next : α → Prog E A ε β}
    {result : Except ε β} (hruns : Runs (prog >>= next) trace result) :
    (∃ e, Runs prog trace (.error e) ∧ result = .error e) ∨
      ∃ past first later, trace = past ++ later ∧ Runs prog past (.ok first) ∧
        Runs (next first) later result := by
  obtain ⟨past, first, later, rfl, hpast, hlater⟩ := hruns.of_andThen
  cases first with
  | ok first => exact Or.inr ⟨past, first, later, rfl, hpast, hlater⟩
  | error e =>
      obtain ⟨rfl, rfl⟩ := hlater.of_done
      exact Or.inl ⟨e, by rwa [List.append_nil], rfl⟩

/-- A successful run of two programs in turn is a run of each. -/
theorem Runs.of_bind {prog : Prog E A ε α} {next : α → Prog E A ε β}
    {value : β} (hruns : Runs (prog >>= next) trace (.ok value)) :
    ∃ past first later, trace = past ++ later ∧ Runs prog past (.ok first) ∧
      Runs (next first) later (.ok value) := by
  rcases hruns.bind_cases with ⟨e, _, he⟩ | hboth
  · cases he
  · exact hboth

/-- A first part of one effect. -/
theorem Runs.of_call_bind {effect : E} {next : A effect → Prog E A ε β}
    {result : Except ε β} (hruns : Runs (call effect >>= next) trace result) :
    ∃ answer later, trace = ⟨effect, answer⟩ :: later ∧ Runs (next answer) later result := by
  rcases hruns.bind_cases with ⟨e, hcall, _⟩ | ⟨past, first, later, rfl, hcall, hlater⟩
  · obtain ⟨answer, _, he⟩ := hcall.of_call
    cases he
  · obtain ⟨answer, rfl, he⟩ := hcall.of_call
    cases he
    exact ⟨first, later, rfl, hlater⟩

/-- `let _ = prog?`: only the value is dropped. -/
theorem Runs.of_discard {prog : Prog E A ε α} {result : Except ε Unit}
    (hruns : Runs (prog >>= fun _ => pure ()) trace result) :
    ∃ first, Runs prog trace first ∧ result = first.map fun _ => () := by
  rcases hruns.bind_cases with ⟨e, hprog, rfl⟩ | ⟨past, first, later, rfl, hprog, hlater⟩
  · exact ⟨.error e, hprog, rfl⟩
  · obtain ⟨rfl, rfl⟩ := hlater.of_done
    exact ⟨.ok first, by rwa [List.append_nil], rfl⟩

theorem Runs.of_ignore {prog : Prog E A ε α} {result : Except ε Unit}
    (hruns : Runs prog.ignore trace result) :
    result = .ok () ∧ ∃ first, Runs prog trace first := by
  obtain ⟨past, first, later, rfl, hprog, hlater⟩ := hruns.of_andThen
  obtain ⟨rfl, rfl⟩ := hlater.of_done
  exact ⟨rfl, first, by rwa [List.append_nil]⟩

theorem Runs.of_getD {prog : Prog E A ε α} {default : α} {result : Except ε α}
    (hruns : Runs (prog.getD default) trace result) :
    ∃ first, Runs prog trace first ∧ result = .ok (first.toOption.getD default) := by
  obtain ⟨past, first, later, rfl, hprog, hlater⟩ := hruns.of_andThen
  refine ⟨first, ?_⟩
  cases first with
  | ok value | error e =>
      obtain ⟨rfl, rfl⟩ := hlater.of_done
      exact ⟨by rwa [List.append_nil], rfl⟩

theorem Runs.of_mapError {δ : Type} {f : ε → δ} {prog : Prog E A ε α} {result : Except δ α}
    (hruns : Runs (prog.mapError f) trace result) :
    ∃ first, Runs prog trace first ∧ result = first.mapError f := by
  induction prog generalizing trace with
  | done first =>
      obtain ⟨rfl, rfl⟩ := hruns.of_done
      exact ⟨first, .done first, rfl⟩
  | perform effect next ih =>
      cases hruns with
      | perform _ _ answer later _ hrest =>
          obtain ⟨first, hfirst, rfl⟩ := ih answer hrest
          exact ⟨first, .perform _ _ _ _ _ hfirst, rfl⟩

theorem Runs.of_mapError_ok {δ : Type} {f : ε → δ} {prog : Prog E A ε α} {value : α}
    (hruns : Runs (prog.mapError f) trace (.ok value)) : Runs prog trace (.ok value) := by
  obtain ⟨first, hfirst, hended⟩ := hruns.of_mapError
  cases first with
  | ok first =>
      cases hended
      exact hfirst
  | error e => cases hended

theorem Runs.of_mapError_error {δ : Type} {f : ε → δ} {prog : Prog E A ε α} {e : δ}
    (hruns : Runs (prog.mapError f) trace (.error e)) :
    ∃ first, Runs prog trace (.error first) := by
  obtain ⟨first, hfirst, hended⟩ := hruns.of_mapError
  cases first with
  | ok first => cases hended
  | error first => exact ⟨first, hfirst⟩

end Inversion

/-- After the effects in `past`, `rest` is what is left of the program. -/
def Leaves (prog rest : Prog E A ε α) (past : List (Event E A)) : Prop :=
  ∀ trace result, rest.Runs trace result → prog.Runs (past ++ trace) result

theorem Leaves.refl (prog : Prog E A ε α) : prog.Leaves prog [] := fun _ _ hruns => hruns

theorem Leaves.perform {prog : Prog E A ε α} {past : List (Event E A)} {effect : E}
    {next : A effect → Prog E A ε α} (hleaves : prog.Leaves (.perform effect next) past)
    (answer : A effect) : prog.Leaves (next answer) (past ++ [⟨effect, answer⟩]) := by
  intro trace result hruns
  rw [List.append_assoc]
  exact hleaves _ _ (.perform effect next answer trace result hruns)

theorem Leaves.runs {prog : Prog E A ε α} {past : List (Event E A)} {result : Except ε α}
    (hleaves : prog.Leaves (.done result) past) : prog.Runs past result := by
  have hruns := hleaves [] result (.done result)
  rwa [List.append_nil] at hruns

section Rules

variable {post : List (Event E A) → Except ε β → Prop} {past : List (Event E A)}

theorem wp_andThen (prog : Prog E A ε α) (next : Except ε α → Prog E A ε β) :
    (prog.andThen next).wp post past ↔
      prog.wp (fun trace result => (next result).wp post trace) past := by
  induction prog generalizing past with
  | done result => rfl
  | perform effect rest ih => exact forall_congr' fun answer => ih answer

@[simp] theorem wp_bind (prog : Prog E A ε α) (next : α → Prog E A ε β) :
    (prog >>= next).wp post past ↔
      prog.wp (fun trace result => match result with
        | .ok value => (next value).wp post trace
        | .error e => post trace (.error e)) past := by
  refine (wp_andThen prog _).trans ?_
  have hpost : (fun (trace : List (Event E A)) (result : Except ε α) =>
      Prog.wp (match result with
        | .ok value => next value
        | .error e => .done (.error e)) post trace) =
      fun trace result => match result with
        | .ok value => (next value).wp post trace
        | .error e => post trace (.error e) := by
    funext trace result
    cases result <;> rfl
  rw [← hpost]

/-- Weaken a postcondition. -/
theorem wp_mono {prog : Prog E A ε β} {post' : List (Event E A) → Except ε β → Prop}
    (hwp : prog.wp post past) (himp : ∀ trace result, post trace result → post' trace result) :
    prog.wp post' past := by
  induction prog generalizing past with
  | done result => exact himp past result hwp
  | perform effect next ih => exact fun answer => ih answer (hwp answer)

end Rules

section Invariants

variable {Inv : List (Event E A) → Prop}

/-- Whatever the answers, the program keeps a property of the effects so far. -/
def Keeps (Inv : List (Event E A) → Prop) (prog : Prog E A ε α) : Prop :=
  ∀ past, Inv past → prog.wp (fun trace _ => Inv trace) past

theorem keeps_done (result : Except ε α) : Keeps Inv (.done result : Prog E A ε α) :=
  fun _ hinv => hinv

theorem keeps_call {effect : E}
    (heffect : ∀ past answer, Inv past → Inv (past ++ [⟨effect, answer⟩])) :
    Keeps Inv (call effect : Prog E A ε (A effect)) :=
  fun past hinv answer => heffect past answer hinv

theorem Keeps.andThen {prog : Prog E A ε α} {next : Except ε α → Prog E A ε β}
    (hprog : Keeps Inv prog) (hnext : ∀ result, Keeps Inv (next result)) :
    Keeps Inv (prog.andThen next) := by
  intro past hinv
  rw [wp_andThen]
  exact wp_mono (hprog past hinv) fun trace result htrace => hnext result trace htrace

theorem Keeps.bind {prog : Prog E A ε α} {next : α → Prog E A ε β}
    (hprog : Keeps Inv prog) (hnext : ∀ value, Keeps Inv (next value)) :
    Keeps Inv (prog >>= next) := by
  refine hprog.andThen fun result => ?_
  cases result with
  | ok value => exact hnext value
  | error e => exact keeps_done _

end Invariants

section Triples

variable {Inv pre : List (Event E A) → Prop} {post : α → List (Event E A) → Prop}
  {err : List (Event E A) → Prop}

/-- From a state in `pre` the program ends in `post` of its value, or in `err`
when it ends with an error. -/
def Triple (pre : List (Event E A) → Prop) (prog : Prog E A ε α)
    (post : α → List (Event E A) → Prop) (err : List (Event E A) → Prop) : Prop :=
  ∀ past, pre past → prog.wp (fun trace result => match result with
    | .ok value => post value trace
    | .error _ => err trace) past

theorem triple_pure {value : α} (hpre : ∀ past, pre past → post value past) :
    Triple pre (pure value : Prog E A ε α) post err :=
  hpre

theorem triple_fail {e : ε} (hpre : ∀ past, pre past → err past) :
    Triple pre (fail e : Prog E A ε α) post err :=
  hpre

theorem triple_call {effect : E} {post : A effect → List (Event E A) → Prop}
    (hanswer : ∀ past answer, pre past → post answer (past ++ [⟨effect, answer⟩])) :
    Triple pre (call effect : Prog E A ε (A effect)) post err :=
  fun past hpre answer => hanswer past answer hpre

theorem Triple.bind {prog : Prog E A ε α} {next : α → Prog E A ε β}
    {final : β → List (Event E A) → Prop} (hprog : Triple pre prog post err)
    (hnext : ∀ value, Triple (post value) (next value) final err) :
    Triple pre (prog >>= next) final err := by
  intro past hpre
  rw [Prog.wp_bind]
  refine wp_mono (hprog past hpre) fun trace result htrace => ?_
  cases result with
  | ok value => exact hnext value trace htrace
  | error e => exact htrace

theorem Triple.mono {prog : Prog E A ε α} {post' : α → List (Event E A) → Prop}
    {err' : List (Event E A) → Prop} (hprog : Triple pre prog post err)
    (hpost : ∀ value trace, post value trace → post' value trace)
    (herr : ∀ trace, err trace → err' trace) : Triple pre prog post' err' := by
  intro past hpre
  refine wp_mono (hprog past hpre) fun trace result htrace => ?_
  cases result with
  | ok value => exact hpost value trace htrace
  | error e => exact herr trace htrace

theorem Keeps.triple {prog : Prog E A ε α} (hprog : Keeps Inv prog) :
    Triple Inv prog (fun _ => Inv) Inv := by
  intro past hinv
  refine wp_mono (hprog past hinv) fun trace result htrace => ?_
  cases result <;> exact htrace

theorem Triple.keeps {prog : Prog E A ε α} (hprog : Triple Inv prog (fun _ => Inv) Inv) :
    Keeps Inv prog := by
  intro past hinv
  refine wp_mono (hprog past hinv) fun trace result htrace => ?_
  cases result <;> exact htrace

end Triples

section Events

variable {p : Event E A → Prop}

/-- Where every effect has an answer, a program has a run. -/
theorem exists_runs [∀ effect, Nonempty (A effect)] (prog : Prog E A ε α) :
    ∃ trace result, Runs prog trace result := by
  induction prog with
  | done result => exact ⟨[], result, .done result⟩
  | perform effect next ih =>
      obtain ⟨answer⟩ := ‹∀ effect, Nonempty (A effect)› effect
      obtain ⟨trace, result, hrest⟩ := ih answer
      exact ⟨_, result, .perform effect next answer trace result hrest⟩

/-- Whatever the answers, every effect of the program satisfies `p`. -/
def Always (p : Event E A → Prop) : Prog E A ε α → Prop
  | .done _ => True
  | .perform effect next => ∀ answer, p ⟨effect, answer⟩ ∧ (next answer).Always p

/-- A program all of whose runs have only effects satisfying `p`. -/
theorem always_of_runs [∀ effect, Nonempty (A effect)] {prog : Prog E A ε α}
    (hprog : ∀ trace result, Runs prog trace result → ∀ event ∈ trace, p event) :
    prog.Always p := by
  induction prog with
  | done result => trivial
  | perform effect next ih =>
      intro answer
      constructor
      · obtain ⟨trace, result, hrest⟩ := exists_runs (next answer)
        exact hprog _ _ (.perform effect next answer trace result hrest) _ List.mem_cons_self
      · apply ih answer
        intro trace result hrest event hevent
        exact hprog _ _ (.perform effect next answer trace result hrest) event
          (List.mem_cons_of_mem _ hevent)

end Events

/-- Execution against answers that may depend on the effects so far. -/
def exec (oracle : List (Event E A) → (effect : E) → A effect) (past : List (Event E A)) :
    Prog E A ε α → List (Event E A) × Except ε α
  | .done result => ([], result)
  | .perform effect next =>
      let answer := oracle past effect
      let rest := exec oracle (past ++ [⟨effect, answer⟩]) (next answer)
      (⟨effect, answer⟩ :: rest.1, rest.2)

theorem exec_runs (oracle : List (Event E A) → (effect : E) → A effect)
    (past : List (Event E A)) (prog : Prog E A ε α) :
    Runs prog (exec oracle past prog).1 (exec oracle past prog).2 := by
  induction prog generalizing past with
  | done result => exact .done result
  | perform effect next ih => exact .perform effect next _ _ _ (ih _ _)

theorem exec_answer (oracle : List (Event E A) → (effect : E) → A effect)
    (past : List (Event E A)) (prog : Prog E A ε α) :
    ∀ event ∈ (exec oracle past prog).1, ∃ before, event.answer = oracle before event.effect := by
  induction prog generalizing past with
  | done result => exact nofun
  | perform effect next ih =>
      intro event hevent
      rcases List.mem_cons.mp hevent with rfl | hrest
      · exact ⟨past, rfl⟩
      · exact ih _ _ event hrest

end Prog

section World

variable {S : Type} {after : S → Event E A → S} {allows : S → Event E A → Prop} {start : S}
  {P Q : S → Prop} {trace : List (Event E A)}

/-- Started where `P` holds, the program ends with a value where `Q` holds, if it
does not end with an error. -/
structure Leads (after : S → Event E A → S) (allows : S → Event E A → Prop) (P : S → Prop)
    (prog : Prog E A ε α) (Q : α → S → Prop) : Prop where
  ends : ∀ start trace value, P start → prog.Runs trace (.ok value) →
    StepRun.Meets after allows start trace → Q value (trace.foldl after start)

section Leads

variable {prog : Prog E A ε α} {value : α} {post : α → S → Prop} {final : β → S → Prop}

theorem leads_pure (himp : ∀ state, P state → post value state) :
    Leads after allows P (pure value : Prog E A ε α) post := by
  constructor
  intro start trace result hstart hruns _
  cases hruns
  exact himp start hstart

theorem leads_fail {e : ε} : Leads after allows P (Prog.fail e : Prog E A ε α) post := by
  constructor
  intro start trace result _ hruns
  cases hruns

theorem leads_call {effect : E} {post : A effect → S → Prop}
    (hanswer : ∀ state answer, P state → allows state ⟨effect, answer⟩ →
      post answer (after state ⟨effect, answer⟩)) :
    Leads after allows P (Prog.call effect : Prog E A ε (A effect)) post := by
  constructor
  intro start trace result hstart hruns hmeets
  cases hruns with
  | perform _ _ answer _ _ hrest =>
      cases hrest
      exact hanswer start _ hstart hmeets.1

theorem Leads.bind {next : α → Prog E A ε β} (hprog : Leads after allows P prog post)
    (hnext : ∀ value, Leads after allows (post value) (next value) final) :
    Leads after allows P (prog >>= next) final := by
  constructor
  intro start trace result hstart hruns hmeets
  obtain ⟨past, value, later, rfl, hpast, hlater⟩ := hruns.of_bind
  obtain ⟨hfirst, hsecond⟩ := StepRun.meets_append.mp hmeets
  rw [List.foldl_append]
  exact (hnext value).ends _ _ _ (hprog.ends _ _ _ hstart hpast hfirst) hlater hsecond

theorem Leads.strengthen (hprog : Leads after allows P prog post)
    (himp : ∀ state, Q state → P state) : Leads after allows Q prog post :=
  ⟨fun start trace value hstart => hprog.ends start trace value (himp start hstart)⟩

theorem Leads.mono {post' : α → S → Prop} (hprog : Leads after allows P prog post)
    (himp : ∀ value state, post value state → post' value state) :
    Leads after allows P prog post' :=
  ⟨fun start trace value hstart hruns hmeets =>
    himp value _ (hprog.ends start trace value hstart hruns hmeets)⟩

/-- What the start says of no state may be used throughout. -/
theorem leads_of_fact {fact : Prop} (hprog : fact → Leads after allows P prog post) :
    Leads after allows (fun state => P state ∧ fact) prog post :=
  ⟨fun start trace value hstart => (hprog hstart.2).ends start trace value hstart.1⟩

theorem leads_of_forall (hpost : ∀ value state, post value state) :
    Leads after allows P prog post :=
  ⟨fun _ _ value _ _ _ => hpost value _⟩

end Leads

end World

end Effects
