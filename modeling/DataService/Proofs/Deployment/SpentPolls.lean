import DataService.Proofs.Deployment.Loops

/-!
# Answers that use up polls

Replays and readers end if their runs are found running only so often. In a deployment that is so:
each true answer uses up a poll of the run (`pollsOf_ask`), and nothing gives polls back. So along
any course a run is found running no more often than it had polls at the start, all answers counted,
those by which rows are offered and those by which they are waited for (`Replay.finds_le_polls`,
`Audience.finds_le_polls`). The answers of the target are among those of one run
(`Replay.findsTarget_le`), so a replay makes no more offers than its target has polls.
-/

set_option autoImplicit false

namespace DataService

namespace Deployment

variable {σ : Type} {d d' : Deployment σ} {run : RunId}

/-- How many times a run can still be found running. One that is gone cannot. -/
def pollsOf (d : Deployment σ) (run : RunId) : Nat := ((d.run? run).map (·.polls)).getD 0

/-- A run that is there was made before the next serial number. -/
theorem Placed.serial_lt {due : List (PopulationId × RunId)} (placed : d.Placed due) {r : Run}
    (here : d.run? run = some r) : run.serial < d.serial := by
  obtain ⟨named, id_eq⟩ := run?_eq_some_iff.1 here
  rw [← id_eq]
  exact placed.fresh _ r named

/-- A run is never given further polls. -/
theorem RunsGoOn.pollsOf_le (h : d.RunsGoOn d') (old : run.serial < d.serial) :
    d'.pollsOf run ≤ d.pollsOf run := by
  unfold pollsOf
  cases there : d'.run? run with
  | none => exact Nat.zero_le _
  | some r' =>
    obtain ⟨r, here, becomes⟩ := h.becomes run r' old there
    rw [here]
    exact becomes.polls_le

/-- A run that is found running has spent one of its polls on that. -/
theorem pollsOf_lt_of_ask (ask : d.ask run = (d', true)) : d'.pollsOf run < d.pollsOf run := by
  unfold Deployment.ask at ask
  cases here : d.run? run with
  | none =>
    rw [here] at ask
    cases ask
  | some r =>
    rw [here] at ask
    obtain ⟨rfl, answered⟩ := Prod.mk.inj ask
    have same_id (r : Run) : r.ask.1.id = r.id := (Run.keepsTies_ask r).id_eq
    unfold pollsOf
    rw [run?_modifyRun_self here same_id, here]
    exact polls_ask_lt answered

/-- A run that is found running has used up a poll. -/
theorem pollsOf_ask {asked : RunId} {running : Bool} (ask : d.ask asked = (d', running))
    (old : run.serial < d.serial) :
    (if running && asked = run then 1 else 0) + d'.pollsOf run ≤ d.pollsOf run := by
  have goes_on : d.RunsGoOn (d.ask asked).1 := (d.ask_stirs asked).runsGoOn
  rw [ask] at goes_on
  by_cases found : running && asked = run
  · obtain ⟨rfl, rfl⟩ : running = true ∧ asked = run := by simpa using found
    have fewer := pollsOf_lt_of_ask ask
    rw [if_pos found]
    omega
  · have no_more : d'.pollsOf run ≤ d.pollsOf run := goes_on.pollsOf_le old
    rw [if_neg found]
    omega

/-- A look finds a run at most as often as it spends polls of it. -/
theorem Looks.finds_add_polls {found : Deployment σ × Sight} {efforts : List Effort}
    (looks : d.Looks found efforts) (old : run.serial < d.serial) :
    efforts.countP (·.finds run) + found.1.pollsOf run ≤ d.pollsOf run := by
  cases looks with
  | finds | ends => simp
  | waits ask => simpa [List.countP_cons, Effort.finds] using pollsOf_ask ask old
  | stops ask => simpa [Effort.finds] using pollsOf_ask ask old

/-- A step of a reader finds a run at most as often as it spends polls of it. -/
theorem readOn_finds_add_polls (d : Deployment σ) (g : Reading) (old : run.serial < d.serial) :
    (d.readEfforts g).countP (·.finds run) + (d.readOn g).1.pollsOf run ≤ d.pollsOf run := by
  unfold readEfforts readOn
  cases g.sighted with
  | true =>
    rw [if_pos rfl, if_pos rfl]
    split
    · exact Nat.le_of_eq (Nat.zero_add _)
    · exact Nat.le_of_eq (Nat.zero_add _)
  | false =>
    have used := (d.looks g.reader.population g.reader.position).finds_add_polls old
    rw [if_neg Bool.false_ne_true, if_neg Bool.false_ne_true]
    split <;> rename_i found <;> rw [found] at used <;> exact used

/-- A step of a reader only asks a run for a row, if it does anything to one. -/
theorem readOn_stirs (d : Deployment σ) (g : Reading) : d.Stirs (d.readOn g).1 := by
  have looks : d.Stirs (d.look g.reader.population g.reader.position).1 := by
    rcases d.fst_look_cases g.reader.population g.reader.position with same | ⟨asked, asks⟩
    · rw [same]
      exact d.stirs_refl
    · rw [asks]
      exact d.ask_stirs asked
  unfold readOn
  split
  · split
    · exact d.stirs_refl
    · exact d.stirs_refl
  · split <;> rename_i found <;> rw [found] at looks <;> exact looks

end Deployment

namespace Replay

variable {σ : Type}

/-- A step of a replay finds a run at most as often as it spends polls of it. -/
theorem step_finds_add_polls (r : Replay) (d : Deployment σ) (stage : Stage) {run : RunId}
    (old : run.serial < d.serial) :
    (r.efforts d stage).countP (·.finds run) + (r.step d stage).1.pollsOf run ≤ d.pollsOf run := by
  have goes_on := (r.step_stirs d stage).runsGoOn.pollsOf_le old
  cases stage with
  | opening | wiring | offering | closing | finishing | done =>
    simpa [efforts, Effort.finds] using goes_on
  | reading n =>
    have used := (r.looks d n).finds_add_polls old
    rw [Replay.step, Replay.efforts]
    rcases look : r.look d n with ⟨d', sight⟩
    rw [look] at used
    cases sight with
    | row | waiting | ended => exact used
  | asking n row =>
    rw [Replay.step, Replay.efforts]
    rcases ask : d.ask r.target with ⟨d', running⟩
    have used := Deployment.pollsOf_ask ask old
    cases running with
    | true => simpa [Effort.finds] using used
    | false => simpa [Effort.finds] using used

/-- The target that a replay finds running is the run that it was set up for. -/
theorem Next.finds_target {r : Replay} {stage stage' : Stage} {efforts : List Effort}
    (next : r.Next stage efforts stage') :
    ∀ effort ∈ efforts, effort.findsTarget = true → effort.finds r.target = true := by
  cases next with
  | opens | late | wires | unfit | finds | ends | closes | finishes | stays =>
    exact fun effort among => absurd among List.not_mem_nil
  | waits | abandons | runs | stops | accepts | refuses =>
    simp [Effort.findsTarget, Effort.finds]

/-- All answers of the target are answers of one run. -/
theorem findsTarget_le [ResultStore σ] (r : Replay) (c : Course σ) (turns : List (Turn σ)) :
    (r.worker.trace c turns).countP (·.findsTarget) ≤
      (r.worker.trace c turns).countP (·.finds r.target) := by
  refine List.countP_mono_left (Worker.forall_mem_trace r.worker ?_ c turns)
  intro c t effort done
  cases t with
  | own => exact (r.next c.deployment c.stage).finds_target effort done
  | other op => cases done

end Replay

/-- A run is found running in the course of a replay no more often than it has polls, all questions
to it counted, those by which rows are offered and those by which they are waited for. -/
theorem Replay.finds_le_polls {σ : Type} [ResultStore σ] (before : List (Operation σ)) (r : Replay)
    (turns : List (Turn σ)) {run : RunId} {there : Run}
    (here : (({} : Deployment σ).after before).run? run = some there) :
    (r.worker.trace { deployment := ({} : Deployment σ).after before } turns).countP
      (·.finds run) ≤ there.polls := by
  have polls_eq : (({} : Deployment σ).after before).pollsOf run = there.polls := by
    rw [Deployment.pollsOf, here]
    rfl
  rw [← polls_eq]
  refine Nat.le_of_add_right_le (Worker.countP_trace_le r.worker
    (fun c => (∃ calls, r.Keeps c calls) ∧ run.serial < c.deployment.serial)
    (fun c => c.deployment.pollsOf run) (·.finds run) ?_
    ⟨⟨_, keeps_start before⟩, (Deployment.placed_after before).serial_lt here⟩ turns)
  rintro c t ⟨⟨calls, keeps⟩, old⟩
  have goes_on := keeps.runsGoOn t
  refine ⟨⟨⟨_, keeps.turn t⟩, Nat.lt_of_lt_of_le old goes_on.serial_le⟩, ?_⟩
  cases t with
  | own => exact r.step_finds_add_polls c.deployment c.stage old
  | other op =>
    show 0 + _ ≤ _
    rw [Nat.zero_add]
    exact goes_on.pollsOf_le old

namespace Audience

variable {σ : Type} [ResultStore σ] {a : Audience σ}

/-- A turn only stirs the deployment, whether a reader takes it or somebody else. -/
theorem InOrder.stirs (h : a.InOrder) (t : Turn σ) :
    a.deployment.Stirs (a.turn t).deployment := by
  cases t with
  | reads number =>
    show a.deployment.Stirs (a.read number).deployment
    cases found : a.readings[number]? with
    | none =>
      unfold Audience.read
      rw [found]
      exact a.deployment.stirs_refl
    | some g =>
      rw [read_eq found]
      exact a.deployment.readOn_stirs g
  | opens id =>
    have same : (a.opened id).deployment = a.deployment := by
      unfold Audience.opened
      split
      · rfl
      · rfl
    show a.deployment.Stirs (a.opened id).deployment
    rw [same]
    exact a.deployment.stirs_refl
  | other op => exact a.deployment.apply_stirs h.kept op

/-- Populations stay placed on their runs whatever the readers do. -/
theorem InOrder.placed_after (h : a.InOrder) (placed : a.deployment.Placed [])
    (turns : List (Turn σ)) : (a.after turns).deployment.Placed [] := by
  induction turns generalizing a with
  | nil => exact placed
  | cons t turns ih => exact ih (h.turn t) ((h.stirs t).placed placed)

/-- A run is found running by a reader no more often than it has polls. -/
theorem finds_le_polls (before turns : List (Turn σ)) (number : Nat) {run : RunId} {there : Run}
    (here : (({} : Audience σ).after before).deployment.run? run = some there) :
    ((worker number).trace (({} : Audience σ).after before) turns).countP (·.finds run) ≤
      there.polls := by
  have polls_eq : (({} : Audience σ).after before).deployment.pollsOf run = there.polls := by
    rw [Deployment.pollsOf, here]
    rfl
  have old := (inOrder_empty.placed_after Deployment.placed_empty before).serial_lt here
  rw [← polls_eq]
  refine Nat.le_of_add_right_le (Worker.countP_trace_le (worker number)
    (fun a => a.InOrder ∧ run.serial < a.deployment.serial) (fun a => a.deployment.pollsOf run)
    (·.finds run) ?_ ⟨inOrder_empty.after before, old⟩ turns)
  rintro a t ⟨inOrder, old⟩
  have goes_on := (inOrder.stirs t).runsGoOn
  refine ⟨⟨inOrder.turn t, Nat.lt_of_lt_of_le old goes_on.serial_le⟩, ?_⟩
  show (turnEfforts number a t).countP _ + (a.turn t).deployment.pollsOf run ≤ _
  have none_used : ([] : List Effort).countP (·.finds run) + (a.turn t).deployment.pollsOf run ≤
      a.deployment.pollsOf run := by
    rw [List.countP_nil, Nat.zero_add]
    exact goes_on.pollsOf_le old
  cases own : t.isOf number with
  | false => rwa [turnEfforts, own, if_neg Bool.false_ne_true]
  | true =>
    cases found : a.readings[number]? with
    | none => rwa [turnEfforts, own, if_pos rfl, found]
    | some g =>
      rw [turnEfforts_of_found found own]
      obtain rfl := eq_reads_of_isOf own
      show _ + (a.read number).deployment.pollsOf run ≤ _
      rw [read_eq found]
      exact a.deployment.readOn_finds_add_polls g old

end Audience

end DataService
