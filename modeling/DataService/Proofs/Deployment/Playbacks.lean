import DataService.Proofs.Deployment.Counters
import DataService.Proofs.Deployment.Protocol

/-!
# Many replays at once

Any number of replays may be on their way in a deployment, each with its own source and target, while
other things happen in between. A `Situation` is a deployment with the replays that were begun in it,
each at its stage and with the calls that it has made on its target (`Playback`); the rows that a
target accepted are read off these calls. What happens in a situation is a course of operations of
its deployment (`deployment_after`), and each replay keeps to the protocol in it (`Playback.Keeps`).

A replay is told of by the metrics when it comes to its end, with the rows that its target accepted
and, of rows that were kept, those that it did not (`Playback.told`). What a step of a replay adds to
these counters is what becomes told by it (`Playback.Keeps.told_step`), so that the counters are what
all replays that are over come to (`count_eq_told`).
-/

set_option autoImplicit false

namespace DataService

/-- A replay on its way, with the calls that it has made on its target. -/
structure Playback where
  replay : Replay
  stage : Stage := .opening
  calls : List Event := []

/-- The row that an event says was accepted. -/
def Event.accepted? : Event → Option Row
  | .rowOffered _ _ row true => some row
  | _ => none

namespace Playback

variable {σ : Type}

/-- The replay is past its wiring: it has made calls on its target, of which the first wire it. -/
def isWired (p : Playback) : Bool := !p.calls.isEmpty

/-- The replay has come to its end. -/
def isOver (p : Playback) : Bool := p.stage.answer?.isSome

/-- The rows that the target has accepted, in order. -/
def accepted (p : Playback) : List Row := p.calls.filterMap Event.accepted?

/-- The rows of a kept result that the target has not accepted. Of a population it is not known how
many it will have. -/
def left (p : Playback) : List Row :=
  match p.replay.source with
  | .kept result => result.rows.drop p.accepted.length
  | .live _ => []

/-- What the metrics are told of a replay that is past its wiring and has come to its end. -/
def told (p : Playback) (c : Counter) : Nat :=
  if p.isWired ∧ p.isOver then
    (if c = .replayedRows then p.accepted.length else 0) +
      if c = .droppedRows then p.left.length else 0
  else 0

/-- The replay takes its next step. -/
def step (p : Playback) (d : Deployment σ) : Playback :=
  { p with
    stage := (p.replay.step d p.stage).2
    calls := p.calls ++ p.replay.calls d p.stage }

/-- The replay has kept to the protocol so far. -/
def Keeps (p : Playback) (d : Deployment σ) : Prop :=
  ∃ answers, p.replay.Proceeds d p.accepted answers p.calls p.stage

variable {d d' : Deployment σ} {p : Playback}

/-- A replay that has only begun has kept to the protocol. -/
theorem keeps_begun (r : Replay) (d : Deployment σ) : (Playback.mk r .opening []).Keeps d :=
  ⟨[], rfl, rfl, rfl⟩

/-- A replay that has kept to the protocol has kept to it when its source has grown. -/
theorem Keeps.grows (h : p.Keeps d) (grows : p.replay.SourceGrows d d') : p.Keeps d' := by
  obtain ⟨answers, proceeds⟩ := h
  exact ⟨answers, proceeds.grows grows⟩

/-- The rows that the target accepts in a step are those of the calls made by it. -/
theorem accepted_calls (r : Replay) (d : Deployment σ) (stage : Stage) :
    (r.calls d stage).filterMap Event.accepted? = r.accepts d stage := by
  cases stage with
  | opening =>
    rw [r.calls_opening]
    rfl
  | wiring =>
    rw [r.calls_wiring]
    split <;> rfl
  | reading delivered =>
    rw [r.calls_reading]
    rfl
  | asking delivered row =>
    rw [r.calls_asking]
    rfl
  | offering delivered row =>
    rw [r.calls_offering, Replay.accepts]
    cases (d.offer r.target r.putTimeout row).2 <;> rfl
  | closing delivered stopped =>
    rw [r.calls_closing]
    rfl
  | finishing delivered failure =>
    rw [r.calls_finishing]
    rfl
  | done answer =>
    rw [r.calls_done]
    rfl

/-- The rows accepted after a step are those accepted before and in the step. -/
theorem accepted_step (p : Playback) (d : Deployment σ) :
    (p.step d).accepted = p.accepted ++ p.replay.accepts d p.stage := by
  show (p.calls ++ p.replay.calls d p.stage).filterMap Event.accepted? = _
  rw [List.filterMap_append, accepted_calls]
  rfl

/-- A step of its own is one that the protocol allows. -/
theorem Keeps.step (h : p.Keeps d) : (p.step d).Keeps d := by
  obtain ⟨answers, proceeds⟩ := h
  refine ⟨answers ++ p.replay.hears d p.stage, ?_⟩
  rw [p.accepted_step d]
  exact proceeds.step

/-- The rows that a target has accepted are the first ones of the source. -/
theorem Keeps.accepted_first (h : p.Keeps d) : p.accepted <+: p.replay.sourceRows d := by
  obtain ⟨answers, proceeds⟩ := h
  have untouched (none_made : p.calls = []) : p.accepted <+: p.replay.sourceRows d := by
    unfold accepted
    rw [none_made]
    exact List.nil_prefix
  cases at_stage : p.stage <;> rw [at_stage] at proceeds
  case opening | wiring => exact untouched proceeds.1
  case reading n =>
    obtain ⟨-, fed, -⟩ := proceeds
    exact fed.rows_prefix
  case asking n row | offering n row =>
    obtain ⟨-, ⟨tail, fed, -⟩, -⟩ := proceeds
    exact fed.rows_prefix
  case closing n stopped =>
    obtain ⟨-, tail, fed, -⟩ := proceeds
    exact fed.rows_prefix
  case finishing n failure =>
    obtain ⟨-, ⟨tail, stopped, fed, -⟩, -⟩ := proceeds
    exact fed.rows_prefix
  case done answer =>
    rcases proceeds with ⟨none_made, -⟩ | ⟨⟨fed, tail, stopped, -, is_fed, -⟩, -⟩
    · exact untouched none_made
    · exact is_fed.rows_prefix

/-- What was accepted of a kept result, and what was not, is the result. -/
theorem Keeps.accepted_append_left (h : p.Keeps d) {result : CachedResult}
    (kept : p.replay.source = .kept result) : p.accepted ++ p.left = result.rows := by
  have source_eq : p.replay.sourceRows d = result.rows := by
    unfold Replay.sourceRows
    rw [kept]
  obtain ⟨rest, rows_eq⟩ := h.accepted_first
  rw [source_eq] at rows_eq
  unfold left
  rw [kept]
  dsimp only
  rw [← rows_eq, List.drop_left]

/-- The rows that the metrics count as dropped are those of the result that were left. -/
theorem dropped_eq_length_left (p : Playback) :
    p.replay.dropped p.accepted.length = p.left.length := by
  unfold Replay.dropped left
  cases p.replay.source with
  | kept result => exact List.length_drop.symm
  | live id => rfl

/-- Nothing is told of a replay that is under way. -/
theorem told_of_not_over (c : Counter) (under_way : p.isOver = false) : p.told c = 0 := by
  unfold told
  rw [under_way, if_neg]
  rintro ⟨-, is_over⟩
  cases is_over

/-- Nothing is told of a replay that made no call on its target. -/
theorem told_of_untouched (c : Counter) (untouched : p.calls = []) : p.told c = 0 := by
  unfold told isWired
  rw [untouched, if_neg]
  rintro ⟨is_wired, -⟩
  cases is_wired

/-- Between its wiring and its end a replay is not over. -/
theorem isOver_step_eq_false (p : Playback) (d : Deployment σ)
    (feeding : (∃ n, p.stage = .reading n) ∨ (∃ n row, p.stage = .asking n row) ∨
      (∃ n row, p.stage = .offering n row) ∨ ∃ n stopped, p.stage = .closing n stopped) :
    (p.step d).isOver = false := by
  show (p.replay.step d p.stage).2.answer?.isSome = false
  rcases feeding with ⟨n, stage_eq⟩ | ⟨n, row, stage_eq⟩ | ⟨n, row, stage_eq⟩ | ⟨n, stopped, stage_eq⟩
  · rw [stage_eq, Replay.step]
    rcases p.replay.look d n with ⟨d', row | _ | _⟩ <;> rfl
  · rw [stage_eq, Replay.step]
    rcases d.ask p.replay.target with ⟨d', _ | _⟩ <;> rfl
  · rw [stage_eq, Replay.step]
    rcases d.offer p.replay.target p.replay.putTimeout row with ⟨d', _ | _⟩ <;> rfl
  · rw [stage_eq]
    rfl

/-- The last step of a replay tells the metrics what was accepted and what was not. -/
theorem told_step_finishing {answers : List Bool} {n : Nat} {failure : Option Failure}
    (proceeds : p.replay.Proceeds d p.accepted answers p.calls (.finishing n failure))
    (stage_eq : p.stage = .finishing n failure) (c : Counter) :
    (p.step d).told c = (if c = .replayedRows then n else 0) +
      if c = .droppedRows then p.replay.dropped n else 0 := by
  obtain ⟨rfl, -⟩ := proceeds
  have is_over : (p.step d).isOver = true := by
    show (p.replay.step d p.stage).2.answer?.isSome = true
    rw [stage_eq]
    rfl
  have is_wired : (p.step d).isWired = true := by
    show (!(p.calls ++ p.replay.calls d p.stage).isEmpty) = true
    rw [stage_eq, p.replay.calls_finishing, Bool.not_eq_true', List.isEmpty_eq_false_iff]
    exact List.append_ne_nil_of_right_ne_nil _ (List.cons_ne_nil _ _)
  have same : (p.step d).accepted = p.accepted := by
    rw [accepted_step, stage_eq]
    exact List.append_nil _
  have rest : (p.step d).left.length = p.replay.dropped p.accepted.length := by
    rw [← dropped_eq_length_left, same]
    rfl
  unfold told
  rw [if_pos ⟨is_wired, is_over⟩, same, rest]

/-- **What a step of a replay counts** is what the metrics are told of it by the step. -/
theorem Keeps.told_step [ResultStore σ] (h : p.Keeps d) (c : Counter) :
    (p.step d).told c = p.told c + (Operation.replay p.replay p.stage : Operation σ).counted d c := by
  obtain ⟨answers, proceeds⟩ := h
  cases at_stage : p.stage <;> rw [at_stage] at proceeds
  case opening =>
    have untouched : (p.step d).calls = [] := by
      show p.calls ++ p.replay.calls d p.stage = []
      rw [at_stage, proceeds.1, p.replay.calls_opening]
      rfl
    rw [told_of_untouched c untouched, told_of_untouched c proceeds.1]
    rfl
  case wiring =>
    have nothing_told : (p.step d).told c = 0 := by
      cases present : (d.run? p.replay.target).any
          (·.injectors.contains p.replay.wiring.injectionStep) with
      | true =>
        refine told_of_not_over c ?_
        show (p.replay.step d p.stage).2.answer?.isSome = false
        rw [at_stage, Replay.step, present]
        rfl
      | false =>
        refine told_of_untouched c ?_
        show p.calls ++ p.replay.calls d p.stage = []
        rw [at_stage, proceeds.1, p.replay.calls_wiring, present]
        rfl
    rw [nothing_told, told_of_untouched c proceeds.1]
    rfl
  case finishing n failure =>
    have under_way : p.isOver = false := by
      unfold isOver
      rw [at_stage]
      rfl
    rw [told_step_finishing proceeds at_stage, told_of_not_over c under_way, Nat.zero_add]
    rfl
  case done answer =>
    have same : p.step d = p := by
      unfold Playback.step
      rw [at_stage, p.replay.calls_done, List.append_nil, Replay.step, ← at_stage]
    rw [same]
    rfl
  -- while rows are fed in nothing is told
  all_goals
    have feeds := p.isOver_step_eq_false d (by rw [at_stage]; simp)
    have under_way : p.isOver = false := by
      unfold isOver
      rw [at_stage]
      rfl
    rw [told_of_not_over c feeds, told_of_not_over c under_way]
    rfl

end Playback

/-! ## Situations -/

/-- A deployment with the replays that were begun in it. -/
structure Situation (σ : Type) where
  deployment : Deployment σ := {}
  playbacks : List Playback := []

/-- The operation is a step of a replay. -/
def Operation.isReplay {σ : Type} : Operation σ → Bool
  | .replay .. => true
  | _ => false

/-- What may occur in a situation. -/
inductive Occurrence (σ : Type) where
  | begins (replay : Replay)
  /-- The replay at a position takes its next step. -/
  | proceeds (position : Nat)
  /-- Something else happens in the deployment. -/
  | happens (op : Operation σ) (other : op.isReplay = false)

/-- The operation that is done, if there is one. -/
def Occurrence.operation? {σ : Type} (s : Situation σ) : Occurrence σ → Option (Operation σ)
  | .begins _ => none
  | .proceeds position => s.playbacks[position]?.map fun p => .replay p.replay p.stage
  | .happens op _ => some op

namespace Situation

variable {σ : Type} {s : Situation σ} {c : Counter}

/-- A replay that proceeds takes the step of its stage. -/
theorem operation?_proceeds (s : Situation σ) (position : Nat) :
    (Occurrence.proceeds position).operation? s =
      s.playbacks[position]?.map fun p => .replay p.replay p.stage := rfl

/-- What the metrics are told of the replays that are over. -/
def told (s : Situation σ) (c : Counter) : Nat := (s.playbacks.map (Playback.told · c)).sum

/-- Populations are in order, and the replays have kept to the protocol. -/
structure InOrder (s : Situation σ) : Prop where
  kept : s.deployment.WellKept
  keeps : ∀ p ∈ s.playbacks, p.Keeps s.deployment

/-- No replays are under way in an empty situation. -/
theorem inOrder_empty : ({} : Situation σ).InOrder :=
  ⟨Deployment.wellKept_empty, List.forall_mem_nil _⟩

variable [ResultStore σ]

/-- The replay at a position takes its next step. -/
def proceed (s : Situation σ) (position : Nat) : Situation σ :=
  match s.playbacks[position]? with
  | none => s
  | some p =>
    { deployment := s.deployment.apply (.replay p.replay p.stage)
      playbacks := s.playbacks.set position (p.step s.deployment) }

def occur (s : Situation σ) : Occurrence σ → Situation σ
  | .begins replay => { s with playbacks := s.playbacks ++ [{ replay }] }
  | .proceeds position => s.proceed position
  | .happens op _ => { s with deployment := s.deployment.apply op }

/-- What becomes of a situation by one occurrence after the other. -/
def after (s : Situation σ) (occurrences : List (Occurrence σ)) : Situation σ :=
  occurrences.foldl occur s

/-- The operations that are done in the course of occurrences. -/
def operations (s : Situation σ) : List (Occurrence σ) → List (Operation σ)
  | [] => []
  | o :: rest => (o.operation? s).toList ++ operations (s.occur o) rest

/-- Nothing proceeds where no replay was begun. -/
theorem proceed_of_none {position : Nat} (nobody : s.playbacks[position]? = none) :
    s.proceed position = s := by
  unfold proceed
  rw [nobody]

/-- A replay that proceeds takes its step in the deployment, and the others stay where they are. -/
theorem proceed_of_some {position : Nat} {p : Playback}
    (found : s.playbacks[position]? = some p) :
    s.proceed position =
      { deployment := s.deployment.apply (.replay p.replay p.stage)
        playbacks := s.playbacks.set position (p.step s.deployment) } := by
  unfold proceed
  rw [found]

/-- What occurs is one operation of the deployment, or none. -/
theorem deployment_occur (s : Situation σ) (o : Occurrence σ) :
    (s.occur o).deployment = s.deployment.after (o.operation? s).toList := by
  cases o with
  | begins replay => rfl
  | proceeds position =>
    show (s.proceed position).deployment = _
    rw [operation?_proceeds]
    cases found : s.playbacks[position]? with
    | none =>
      rw [proceed_of_none found]
      rfl
    | some p =>
      rw [proceed_of_some found]
      rfl
  | happens op other => rfl

/-- The deployment goes through a course of operations. -/
theorem deployment_after (s : Situation σ) (occurrences : List (Occurrence σ)) :
    (s.after occurrences).deployment = s.deployment.after (s.operations occurrences) := by
  induction occurrences generalizing s with
  | nil => rfl
  | cons o rest ih =>
    rw [operations, Deployment.after_append, ← deployment_occur]
    exact ih (s.occur o)

/-- Whatever occurs, all replays keep to the protocol. -/
theorem InOrder.occur (h : s.InOrder) (o : Occurrence σ) : (s.occur o).InOrder := by
  -- whatever is done in the deployment, the sources of replays grow
  have grown (op : Operation σ) (p : Playback) (keeps : p.Keeps s.deployment) :
      p.Keeps (s.deployment.apply op) :=
    keeps.grows (.of_populations fun _ _ here =>
      (s.deployment.apply_changes op).exists_grows h.kept here)
  refine ⟨?_, ?_⟩
  · rw [deployment_occur]
    exact Deployment.wellKept_after h.kept _
  · intro p among
    cases o with
    | begins replay =>
      rcases List.mem_append.1 among with earlier | now
      · exact h.keeps p earlier
      · rw [List.mem_singleton.1 now]
        exact Playback.keeps_begun replay s.deployment
    | proceeds position =>
      have among : p ∈ (s.proceed position).playbacks := among
      show p.Keeps (s.proceed position).deployment
      cases found : s.playbacks[position]? with
      | none =>
        rw [proceed_of_none found] at among ⊢
        exact h.keeps p among
      | some q =>
        rw [proceed_of_some found] at among ⊢
        refine grown (.replay q.replay q.stage) p ?_
        rcases List.mem_or_eq_of_mem_set among with other | rfl
        · exact h.keeps p other
        · exact (h.keeps q (List.mem_of_getElem? found)).step
    | happens op other => exact grown op p (h.keeps p among)

/-- In every course of what occurs all replays keep to the protocol. -/
theorem InOrder.after (h : s.InOrder) (occurrences : List (Occurrence σ)) :
    (s.after occurrences).InOrder := by
  induction occurrences generalizing s with
  | nil => exact h
  | cons o rest ih => exact ih (h.occur o)

/-! ## What replays count -/

/-- A sum over a list changes by what the entry that is set contributes. -/
theorem sum_map_set {α : Type} (f : α → Nat) {l : List α} {i : Nat} {a : α}
    (found : l[i]? = some a) (b : α) :
    ((l.set i b).map f).sum + f a = (l.map f).sum + f b := by
  induction l generalizing i with
  | nil => cases found
  | cons first rest ih =>
    cases i with
    | zero =>
      cases found
      rw [List.set_cons_zero, List.map_cons, List.map_cons, List.sum_cons, List.sum_cons]
      omega
    | succ i =>
      have later := ih found
      rw [List.set_cons_succ, List.map_cons, List.map_cons, List.sum_cons, List.sum_cons]
      omega

/-- Only replays count rows that were replayed and dropped. -/
theorem counted_of_other {op : Operation σ} (other : op.isReplay = false)
    (of_replays : c = .replayedRows ∨ c = .droppedRows) (d : Deployment σ) :
    op.counted d c = 0 := by
  refine Operation.counted_eq_zero ?_ d
  rcases of_replays with rfl | rfl
  · cases op <;> first | rfl | cases other
  · cases op <;> first | rfl | cases other

/-- **What an occurrence counts of replays** is what the metrics are told of them by it. -/
theorem InOrder.told_occur (h : s.InOrder) (of_replays : c = .replayedRows ∨ c = .droppedRows)
    (o : Occurrence σ) :
    (s.occur o).told c = s.told c +
      tally Deployment.apply (fun d op => op.counted d c) s.deployment (o.operation? s).toList := by
  cases o with
  | begins replay =>
    show ((s.playbacks ++ [(⟨replay, .opening, []⟩ : Playback)]).map (Playback.told · c)).sum = _
    rw [List.map_append, List.sum_append]
    rfl
  | proceeds position =>
    show (s.proceed position).told c = _
    rw [operation?_proceeds]
    cases found : s.playbacks[position]? with
    | none =>
      rw [proceed_of_none found]
      rfl
    | some p =>
      have told_step := (h.keeps p (List.mem_of_getElem? found)).told_step c
      have sums := sum_map_set (Playback.told · c) found (p.step s.deployment)
      rw [proceed_of_some found]
      unfold told
      dsimp only [Option.map_some, Option.toList_some, tally]
      omega
  | happens op other =>
    have nothing := counted_of_other other of_replays s.deployment
    show s.told c = s.told c + (op.counted s.deployment c + 0)
    rw [nothing]
    rfl

/-- What is told of all replays grows by what the operations of the course count. -/
theorem InOrder.told_after (h : s.InOrder) (of_replays : c = .replayedRows ∨ c = .droppedRows)
    (occurrences : List (Occurrence σ)) :
    (s.after occurrences).told c = s.told c +
      tally Deployment.apply (fun d op => op.counted d c) s.deployment
        (s.operations occurrences) := by
  induction occurrences generalizing s with
  | nil => rfl
  | cons o rest ih =>
    have now := h.told_occur of_replays o
    have later := ih (h.occur o)
    rw [operations, tally_append, ← Nat.add_assoc, ← now]
    rw [deployment_occur] at later
    exact later

/-- **The counters of replays are what the replays come to.** -/
theorem count_eq_told (of_replays : c = .replayedRows ∨ c = .droppedRows)
    (occurrences : List (Occurrence σ)) :
    (({} : Situation σ).after occurrences).deployment.metrics.count c =
      (({} : Situation σ).after occurrences).told c := by
  have apart : c.isOfEnds = false := by
    rcases of_replays with rfl | rfl <;> rfl
  have nothing : ({} : Situation σ).told c = 0 := rfl
  rw [inOrder_empty.told_after of_replays occurrences, deployment_after,
    Deployment.count_eq_tally_add_credits, Deployment.credits_eq_zero apart, nothing, Nat.zero_add]
  rfl

end Situation

end DataService
