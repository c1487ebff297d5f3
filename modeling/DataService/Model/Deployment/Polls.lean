import DataService.Model.Deployment.Capture

/-!
# Polls

`pollsLeft` counts how many times a run can still be found running, in all runs together. Each time
one is found running the count goes down. Nothing that an engine does to its runs and nothing that
a population does adds to it or takes from it; the lemmas below say so for every operation, so that
a wait for a run can be shown to end.
-/

set_option autoImplicit false

namespace DataService.Deployment

variable {σ : Type}

/-- The polls left in all runs together. -/
def pollsLeft (d : Deployment σ) : Nat := d.runs.total (·.polls)

/-- Asks a run whether it is running. One that no longer exists is not. -/
def ask (d : Deployment σ) (id : RunId) : Deployment σ × Bool :=
  match d.run? id with
  | none => (d, false)
  | some run => (d.modifyRun id fun r => r.ask.1, run.ask.2)

/-- Asking a run never adds to its polls. -/
theorem polls_ask_le (r : Run) : r.ask.1.polls ≤ r.polls := by
  unfold Run.ask
  split
  · split <;> simp_all
  · exact Nat.le_refl _

/-- A run that is found running has one poll less. -/
theorem polls_ask_lt {r : Run} (h : r.ask.2 = true) : r.ask.1.polls < r.polls := by
  unfold Run.ask at h ⊢
  split at h
  · rename_i hr
    simp only [hr, if_true] at h ⊢
    split at h
    · simp at h
    · rename_i n hn
      simp [hn]
  · simp at h

/-- A deployment in which a run is found running has one poll less. -/
theorem pollsLeft_ask {d d' : Deployment σ} {id : RunId} (h : d.ask id = (d', true)) :
    d'.pollsLeft < d.pollsLeft := by
  unfold ask at h
  split at h
  · simp at h
  · rename_i run hrun
    obtain ⟨rfl, hrunning⟩ := Prod.mk.inj h
    obtain ⟨hget, hid⟩ := Option.filter_eq_some_iff.1 hrun
    have hid : run.id = id := by simpa using hid
    refine Table.total_modify_lt _ _ _ _ (fun r => ?_) hget ?_
    · by_cases hr : r.id = id <;> simp [hr, polls_ask_le]
    · simpa [hid] using polls_ask_lt hrunning

/-- Asking a run adds no polls. -/
theorem pollsLeft_ask_le (d : Deployment σ) (id : RunId) :
    (d.ask id).1.pollsLeft ≤ d.pollsLeft := by
  unfold ask
  split
  · exact Nat.le_refl _
  · refine Table.total_modify_le _ _ _ _ fun r => ?_
    by_cases hr : r.id = id <;> simp [hr, polls_ask_le]

/-- A change of a run that keeps its polls keeps the polls left. -/
theorem pollsLeft_modifyRun (d : Deployment σ) (id : RunId) (f : Run → Run)
    (h : ∀ r, (f r).polls = r.polls) : (d.modifyRun id f).pollsLeft = d.pollsLeft := by
  refine Table.total_modify_eq _ _ _ _ fun r => ?_
  by_cases hr : r.id = id <;> simp [hr, h]

/-- Taking a population off its board touches no run. -/
@[simp] theorem runs_clearFlight (d : Deployment σ) (errand : Delivery) :
    (d.clearFlight errand).runs = d.runs := rfl

/-- Handing an outcome to a service touches no run. -/
@[simp] theorem runs_receive (d : Deployment σ) (errand : Delivery) (outcome : Outcome) :
    (d.receive errand outcome).runs = d.runs := by
  cases outcome <;> rfl

mutual

/-- Informing a waiter touches no run. -/
theorem runs_inform (outcome : Outcome) (w : Waiter) (d : Deployment σ) :
    (inform outcome w d).runs = d.runs :=
  match w with
  | .announce tag further => by
    rw [inform, runs_informAll outcome further]
    rfl
  | .deliver errand => by rw [inform, runs_receive]

/-- Informing waiters touches no run. -/
theorem runs_informAll (outcome : Outcome) (ws : List Waiter) (d : Deployment σ) :
    (informAll outcome ws d).runs = d.runs :=
  match ws with
  | [] => by rw [informAll]
  | w :: rest => by rw [informAll, runs_informAll outcome rest, runs_inform outcome w]

end

/-- A step of a population touches no run. -/
@[simp] theorem runs_advance (d : Deployment σ) (id : PopulationId)
    (take : Population → Population × List Waiter) : (d.advance id take).runs = d.runs := by
  unfold advance
  split
  · rfl
  · dsimp only
    split
    · rfl
    · rw [runs_informAll]
      rfl

/-- A step of a population keeps the polls left. -/
@[simp] theorem pollsLeft_advance (d : Deployment σ) (id : PopulationId)
    (take : Population → Population × List Waiter) :
    (d.advance id take).pollsLeft = d.pollsLeft := by
  simp [pollsLeft]

/-- What happens to a population keeps the polls left. -/
@[simp] theorem pollsLeft_handle (d : Deployment σ) (id : PopulationId) (event : PopulationEvent) :
    (d.handle id event).pollsLeft = d.pollsLeft := pollsLeft_advance ..

/-- A population that starts to listen keeps the polls left. -/
@[simp] theorem pollsLeft_collect (d : Deployment σ) (id : PopulationId) (runId : RunId) :
    (d.collect id runId).pollsLeft = d.pollsLeft := by
  unfold collect
  split
  · split
    · split
      · rw [pollsLeft_modifyRun _ runId (·.addListener _ id) fun _ => rfl]
        rfl
      · rfl
    · exact pollsLeft_advance ..
  · rfl

/-- An operation that keeps the polls left keeps them when it is done for every item of a list. -/
theorem pollsLeft_foldl {α : Type} (f : Deployment σ → α → Deployment σ)
    (h : ∀ d a, (f d a).pollsLeft = d.pollsLeft) (items : List α) (d : Deployment σ) :
    (items.foldl f d).pollsLeft = d.pollsLeft := by
  induction items generalizing d with
  | nil => rfl
  | cons a rest ih => rw [List.foldl_cons, ih, h]

/-- A run that becomes ready keeps the polls left. -/
@[simp] theorem pollsLeft_ready (d : Deployment σ) (run : Run) :
    (d.ready run).pollsLeft = d.pollsLeft := by
  unfold ready
  rw [pollsLeft_foldl _ fun d id => pollsLeft_collect d id run.id]
  exact pollsLeft_modifyRun _ _ _ fun _ => rfl

/-- A row handed to a population keeps the polls left. -/
@[simp] theorem pollsLeft_handRow (layout : Layout) (cells : List Document) (d : Deployment σ)
    (id : PopulationId) : (handRow layout cells d id).pollsLeft = d.pollsLeft := by
  unfold handRow
  split <;> simp

/-- What the engine does keeps the polls left. -/
theorem pollsLeft_perform {d d' : Deployment σ} {step : EngineStep}
    (h : d.perform step = .ok d') : d'.pollsLeft = d.pollsLeft := by
  cases step with
  | start run =>
    simp only [perform] at h
    split at h
    · cases h
    · cases h
      simp
  | stop run =>
    simp only [perform] at h
    split at h
    · cases h
    · cases h
      exact pollsLeft_modifyRun _ _ _ fun _ => rfl
  | emit run step cells =>
    simp only [perform] at h
    cases ho : d.outputOf run step with
    | error fault => simp [ho, bind, Except.bind] at h
    | ok found =>
      simp only [ho, bind, Except.bind, pure, Except.pure, Except.ok.injEq] at h
      subst h
      exact pollsLeft_foldl _ (fun d id => pollsLeft_handRow _ _ d id) _ _
  | finish run step errors stoppedEarly =>
    simp only [perform] at h
    cases ho : d.outputOf run step with
    | error fault => simp [ho, bind, Except.bind] at h
    | ok found =>
      simp only [ho, bind, Except.bind, pure, Except.pure, Except.ok.injEq] at h
      subst h
      exact pollsLeft_foldl _ (fun d id => pollsLeft_handle d id _) _ _

end DataService.Deployment
