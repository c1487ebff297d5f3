import DataService.Proofs.Deployment.TargetCalls

/-!
# The protocol of a replay

Whatever its source, its target and the course of things, a replay keeps to one protocol. If the
population has not started, or else the target has no injection step, the replay fails and has made
no call on the target. Otherwise it takes the bypassed steps out, feeds the rows in one after the
other, each until it is accepted (`Feeds`), and tells the target, as its last call, that no more
follow.

`Proceeds` says of every stage what the calls, the accepted rows and the answers of the target were
by then. It holds at the start, the replay's own steps keep it, and so does whatever else happens,
since a source only grows. The protocol is what it says of the end
(`replay_follows_protocol`).
-/

set_option autoImplicit false

namespace DataService.Replay

open Deployment

variable {σ : Type}

/-! ## Transcripts -/

/-- The calls that a replay makes on its target in its course. -/
def transcript [ResultStore σ] (r : Replay) (c : Course σ) : List (Turn σ) → List Event
  | [] => []
  | .own :: turns => r.calls c.deployment c.stage ++ r.transcript (r.own c) turns
  | .other op :: turns => r.transcript (r.turn c (.other op)) turns

/-- Offers by which rows are fed in, one row after the other and each one until it is accepted. -/
inductive Feeds (r : Replay) : List Row → List Event → Prop
  | nothing : Feeds r [] []
  | further {rows : List Row} {offers : List Event} (row : Row) (refusals : Nat) :
    Feeds r rows offers →
    Feeds r (rows ++ [row])
      (offers ++ (List.replicate refusals (r.offered row false) ++ [r.offered row true]))

/-- In a course the replay takes a step, or other operations are all there is. -/
theorem exists_others (turns : List (Turn σ)) :
    ∃ ops : List (Operation σ), turns = ops.map .other ∨
      ∃ rest, turns = ops.map .other ++ .own :: rest := by
  induction turns with
  | nil => exact ⟨[], .inl rfl⟩
  | cons t turns ih =>
    cases t with
    | own => exact ⟨[], .inr ⟨turns, rfl⟩⟩
    | other op =>
      obtain ⟨ops, all | ⟨rest, first⟩⟩ := ih
      · exact ⟨op :: ops, .inl (by rw [all, List.map_cons])⟩
      · exact ⟨op :: ops, .inr ⟨rest, by rw [first, List.map_cons, List.cons_append]⟩⟩

/-! ## Sources -/

/-- The rows that a source has so far. -/
def sourceRows (r : Replay) (d : Deployment σ) : List Row :=
  match r.source with
  | .kept result => result.rows
  | .live id => ((d.population? id).map (·.rows)).getD []

/-- The source is a population that ended with the failure. -/
def SourceFailed (r : Replay) (d : Deployment σ) (failure : Failure) : Prop :=
  ∃ id p, r.source = .live id ∧ d.population? id = some p ∧ p.outcome = some (.error failure)

/-- What has become of a source later on. -/
structure SourceGrows (r : Replay) (d d' : Deployment σ) : Prop where
  rows_prefix : r.sourceRows d <+: r.sourceRows d'
  failed : ∀ failure, r.SourceFailed d failure → r.SourceFailed d' failure

variable {r : Replay} {d d' : Deployment σ} {accepted : List Row} {answers : List Bool}
  {calls tail : List Event}

/-- If populations only grow, so do sources. -/
theorem SourceGrows.of_populations
    (grow : ∀ id p, d.population? id = some p →
      ∃ p', d'.population? id = some p' ∧ p.Grows p') : r.SourceGrows d d' where
  rows_prefix := by
    unfold sourceRows
    cases r.source with
    | kept result => exact List.prefix_refl _
    | live id =>
      dsimp only
      cases here : d.population? id with
      | none => exact List.nil_prefix
      | some p =>
        obtain ⟨p', here', grows⟩ := grow id p here
        rw [here']
        exact grows.rows_prefix
  failed := by
    rintro failure ⟨id, p, live, here, failed⟩
    obtain ⟨p', here', grows⟩ := grow id p here
    have resolved : p.outcome ≠ none := by
      rw [failed]
      exact Option.some_ne_none _
    obtain ⟨-, -, -, outcome_eq⟩ := grows.final resolved
    exact ⟨id, p', live, here', outcome_eq.trans failed⟩

/-- A failure that a replay reads off its source is that of the population. -/
theorem sourceFailed_of_sourceFailure {failure : Failure}
    (failed : r.sourceFailure d = some failure) : r.SourceFailed d failure := by
  unfold sourceFailure at failed
  cases source : r.source with
  | kept result =>
    rw [source] at failed
    cases failed
  | live id =>
    rw [source] at failed
    dsimp only at failed
    split at failed
    · rename_i found
      cases failed
      obtain ⟨p, here, ended⟩ := Option.bind_eq_some_iff.1 found
      exact ⟨id, p, source, here, ended⟩
    · cases failed

/-- A row that is found is one of the source. -/
theorem sourceRows_of_look {position : Nat} {row : Row}
    (look : r.look d position = (d', .row row)) : (r.sourceRows d)[position]? = some row := by
  unfold Replay.look at look
  unfold sourceRows
  cases source : r.source with
  | kept result =>
    rw [source] at look
    dsimp only at look ⊢
    split at look
    · rename_i found
      cases look
      exact found
    · cases look
  | live id =>
    rw [source] at look
    dsimp only at look ⊢
    obtain ⟨-, found⟩ := row_of_look look
    obtain ⟨p, here, at_position⟩ := Option.bind_eq_some_iff.1 found
    rw [here]
    exact at_position

/-- Where the rows end, the source has no more of them. -/
theorem length_le_of_look_ended {position : Nat} (look : r.look d position = (d', .ended)) :
    (r.sourceRows d).length ≤ position := by
  unfold Replay.look at look
  unfold sourceRows
  cases source : r.source with
  | kept result =>
    rw [source] at look
    dsimp only at look ⊢
    split at look
    · cases look
    · rename_i beyond
      exact List.getElem?_eq_none_iff.1 beyond
  | live id =>
    rw [source] at look
    dsimp only at look ⊢
    cases here : d.population? id with
    | none => exact Nat.zero_le _
    | some p =>
      show p.rows.length ≤ position
      rcases d.look_cases here position with
        ⟨row, -, found⟩ | ⟨beyond, -, -⟩ | ⟨beyond, -, -⟩
      · rw [look] at found
        cases found
      · exact List.getElem?_eq_none_iff.1 beyond
      · exact List.getElem?_eq_none_iff.1 beyond

/-! ## What is true at a stage -/

/-- The target was wired and fed with the rows that it accepted, the first ones of the source; the
calls since then are the `tail`. -/
structure Fed (r : Replay) (d : Deployment σ) (accepted : List Row) (calls tail : List Event) :
    Prop where
  calls_eq : ∃ offers, r.Feeds accepted offers ∧ calls = r.wired ++ offers ++ tail
  rows_prefix : accepted <+: r.sourceRows d

/-- The calls are refused offers of the row that comes next. -/
def Refused (r : Replay) (d : Deployment σ) (accepted : List Row) (row : Row)
    (tail : List Event) : Prop :=
  accepted ++ [row] <+: r.sourceRows d ∧
    ∃ refusals, tail = List.replicate refusals (r.offered row false)

/-- How the feeding came to its end: the target was found stopped before the next row, or there were
no more rows. -/
def Over (r : Replay) (d : Deployment σ) (accepted : List Row) (answers : List Bool)
    (tail : List Event) : Bool → Prop
  | true => false ∈ answers ∧ ∃ row, r.Refused d accepted row tail
  | false => (∀ answer ∈ answers, answer = true) ∧ tail = [] ∧
    ∀ result, r.source = .kept result → accepted = result.rows

/-- What the calls, the accepted rows and the answers of the target were by a stage. -/
def Proceeds (r : Replay) (d : Deployment σ) (accepted : List Row) (answers : List Bool)
    (calls : List Event) : Stage → Prop
  | .opening | .wiring => calls = [] ∧ accepted = [] ∧ answers = []
  | .reading n => n = accepted.length ∧ r.Fed d accepted calls [] ∧
    ∀ answer ∈ answers, answer = true
  | .asking n row | .offering n row => n = accepted.length ∧
    (∃ tail, r.Fed d accepted calls tail ∧ r.Refused d accepted row tail) ∧
    ∀ answer ∈ answers, answer = true
  | .closing n stopped => n = accepted.length ∧
    ∃ tail, r.Fed d accepted calls tail ∧ r.Over d accepted answers tail stopped
  | .finishing n failure => n = accepted.length ∧
    (∃ tail stopped, r.Fed d accepted calls tail ∧ r.Over d accepted answers tail stopped) ∧
    ∀ f, failure = some f → r.SourceFailed d f
  | .done answer =>
    calls = [] ∧ (∃ failure, answer = .error failure) ∨
    (∃ fed tail stopped, calls = fed ++ [.feedEnded r.target] ∧ r.Fed d accepted fed tail ∧
      r.Over d accepted answers tail stopped) ∧
    (answer = .ok accepted.length ∨ ∃ f, answer = .error f ∧ r.SourceFailed d f)

/-- Rows that were fed are the first ones of a source that has grown, too. -/
theorem Fed.grows (h : r.Fed d accepted calls tail) (grows : r.SourceGrows d d') :
    r.Fed d' accepted calls tail := ⟨h.calls_eq, h.rows_prefix.trans grows.rows_prefix⟩

/-- A row that is refused is the next one of a source that has grown, too. -/
theorem Refused.grows {row : Row} (h : r.Refused d accepted row tail)
    (grows : r.SourceGrows d d') : r.Refused d' accepted row tail :=
  ⟨h.1.trans grows.rows_prefix, h.2⟩

/-- How the feeding came to its end holds of a source that has grown, too. -/
theorem Over.grows {stopped : Bool} (h : r.Over d accepted answers tail stopped)
    (grows : r.SourceGrows d d') : r.Over d' accepted answers tail stopped := by
  cases stopped with
  | true =>
    obtain ⟨told, row, refused⟩ := h
    exact ⟨told, row, refused.grows grows⟩
  | false => exact h

/-- What is true at a stage stays true while the source grows. -/
theorem Proceeds.grows {stage : Stage} (h : r.Proceeds d accepted answers calls stage)
    (grows : r.SourceGrows d d') : r.Proceeds d' accepted answers calls stage := by
  cases stage with
  | opening | wiring => exact h
  | reading n => exact ⟨h.1, h.2.1.grows grows, h.2.2⟩
  | asking n row | offering n row =>
    obtain ⟨length_eq, ⟨tail, fed, refused⟩, running⟩ := h
    exact ⟨length_eq, ⟨tail, fed.grows grows, refused.grows grows⟩, running⟩
  | closing n stopped =>
    obtain ⟨length_eq, tail, fed, is_over⟩ := h
    exact ⟨length_eq, tail, fed.grows grows, is_over.grows grows⟩
  | finishing n failure =>
    obtain ⟨length_eq, ⟨tail, stopped, fed, is_over⟩, failed⟩ := h
    exact ⟨length_eq, ⟨tail, stopped, fed.grows grows, is_over.grows grows⟩,
      fun f is_failure => grows.failed f (failed f is_failure)⟩
  | done answer =>
    rcases h with untouched | ⟨⟨fed, tail, stopped, calls_eq, is_fed, is_over⟩, ok | ⟨f, error, failed⟩⟩
    · exact .inl untouched
    · exact .inr ⟨⟨fed, tail, stopped, calls_eq, is_fed.grows grows, is_over.grows grows⟩, .inl ok⟩
    · exact .inr ⟨⟨fed, tail, stopped, calls_eq, is_fed.grows grows, is_over.grows grows⟩,
        .inr ⟨f, error, grows.failed f failed⟩⟩

/-! ## One step -/

/-- What the replay looks at first is whether its population has started. -/
theorem opening_cases (r : Replay) (d : Deployment σ) :
    (∃ id p, r.source = .live id ∧ d.population? id = some p ∧ p.phase = .created ∧
      r.step d .opening = (d, .done (.error (r.startFailure p.label)))) ∨
    (∀ id p, r.source = .live id → d.population? id = some p → p.phase ≠ .created) ∧
      r.step d .opening = (d, .wiring) := by
  rw [Replay.step]
  cases r.source with
  | kept result =>
    refine .inr ⟨fun id p live => ?_, rfl⟩
    cases live
  | live id =>
    dsimp only
    cases here : d.population? id with
    | none =>
      refine .inr ⟨fun j p live there => ?_, rfl⟩
      cases live
      rw [here] at there
      cases there
    | some p =>
      dsimp only
      by_cases created : p.phase = .created
      · refine .inl ⟨id, p, rfl, here, created, ?_⟩
        rw [if_neg]
        unfold Population.hasStarted
        rw [created]
        decide
      · refine .inr ⟨fun j q live there => ?_, ?_⟩
        · cases live
          rw [here] at there
          cases there
          exact created
        · rw [if_pos]
          exact decide_eq_true created

/-- A row that is found behind those that were accepted is the next one. -/
theorem Fed.next_row (h : r.Fed d accepted calls tail) {row : Row}
    (look : r.look d accepted.length = (d', .row row)) : accepted ++ [row] <+: r.sourceRows d := by
  obtain ⟨rest, rows_eq⟩ := h.rows_prefix
  have found := sourceRows_of_look look
  rw [← rows_eq, List.getElem?_append_right (Nat.le_refl _), Nat.sub_self] at found
  cases rest with
  | nil => cases found
  | cons first rest =>
    cases found
    refine ⟨rest, ?_⟩
    rw [← rows_eq, List.append_assoc]
    rfl

/-- The accepted offer of a row follows on those that were refused. -/
theorem Fed.accepts {row : Row} (h : r.Fed d accepted calls tail)
    (refused : r.Refused d accepted row tail) :
    r.Fed d (accepted ++ [row]) (calls ++ [r.offered row true]) [] := by
  obtain ⟨offers, feeds, calls_eq⟩ := h.calls_eq
  obtain ⟨next, refusals, tail_eq⟩ := refused
  refine ⟨⟨_, feeds.further row refusals, ?_⟩, next⟩
  rw [calls_eq, tail_eq]
  simp only [List.append_assoc, List.append_nil]

/-- A refused offer of a row follows on those before. -/
theorem Fed.refuses {row : Row} (h : r.Fed d accepted calls tail)
    (refused : r.Refused d accepted row tail) :
    ∃ tail', r.Fed d accepted (calls ++ [r.offered row false]) tail' ∧
      r.Refused d accepted row tail' := by
  obtain ⟨offers, feeds, calls_eq⟩ := h.calls_eq
  obtain ⟨next, refusals, tail_eq⟩ := refused
  refine ⟨tail ++ [r.offered row false], ⟨⟨offers, feeds, ?_⟩, h.rows_prefix⟩, next,
    refusals + 1, ?_⟩
  · rw [calls_eq, List.append_assoc]
  · rw [tail_eq, List.replicate_succ']

/-- A step of a replay that looks for its next row keeps to the protocol: it offers the row that
comes next, goes on waiting, or closes. -/
theorem Proceeds.reading {n : Nat} (h : r.Proceeds d accepted answers calls (.reading n)) :
    r.Proceeds d accepted answers calls (r.step d (.reading n)).2 := by
  obtain ⟨rfl, fed, running⟩ := h
  rw [Replay.step]
  rcases look : r.look d accepted.length with ⟨d', sight⟩
  cases sight with
  | row row => exact ⟨rfl, ⟨[], fed, fed.next_row look, 0, rfl⟩, running⟩
  | waiting => exact ⟨rfl, fed, running⟩
  | ended =>
    refine ⟨rfl, [], fed, running, rfl, fun result kept => ?_⟩
    have all := fed.rows_prefix.eq_of_length_le (length_le_of_look_ended look)
    unfold sourceRows at all
    rw [kept] at all
    exact all

/-- A step of a replay that asks its target keeps to the protocol: the row is offered, or the target
has stopped. -/
theorem Proceeds.asking {n : Nat} {row : Row}
    (h : r.Proceeds d accepted answers calls (.asking n row)) :
    r.Proceeds d accepted (answers ++ [(d.ask r.target).2]) calls
      (r.step d (.asking n row)).2 := by
  obtain ⟨rfl, ⟨tail, fed, refused⟩, running⟩ := h
  rw [Replay.step]
  rcases ask : d.ask r.target with ⟨d', found_running⟩
  cases found_running with
  | true =>
    refine ⟨rfl, ⟨tail, fed, refused⟩, fun answer member => ?_⟩
    rcases List.mem_append.1 member with before | now
    · exact running answer before
    · exact List.mem_singleton.1 now
  | false =>
    exact ⟨rfl, tail, fed, List.mem_append_right _ (List.mem_singleton_self _), row, refused⟩

/-- A step of a replay that offers a row keeps to the protocol: the row has been accepted, or it is
the next one still. -/
theorem Proceeds.offering {n : Nat} {row : Row}
    (h : r.Proceeds d accepted answers calls (.offering n row)) :
    r.Proceeds d (accepted ++ r.accepts d (.offering n row)) answers
      (calls ++ [r.offered row (d.offer r.target r.putTimeout row).2])
      (r.step d (.offering n row)).2 := by
  obtain ⟨rfl, ⟨tail, fed, refused⟩, running⟩ := h
  rw [Replay.step, Replay.accepts]
  rcases d.offer r.target r.putTimeout row with ⟨d', taken⟩
  cases taken with
  | true =>
    rw [if_pos rfl]
    refine ⟨?_, fed.accepts refused, running⟩
    rw [List.length_append]
    rfl
  | false =>
    rw [if_neg Bool.false_ne_true, List.append_nil]
    exact ⟨rfl, fed.refuses refused, running⟩

/-- A step of the replay goes on from what was true before it. -/
theorem Proceeds.step {stage : Stage} (h : r.Proceeds d accepted answers calls stage) :
    r.Proceeds d (accepted ++ r.accepts d stage) (answers ++ r.hears d stage)
      (calls ++ r.calls d stage) (r.step d stage).2 := by
  cases stage with
  | opening =>
    obtain ⟨rfl, rfl, rfl⟩ := h
    rw [calls_opening]
    rcases r.opening_cases d with ⟨id, p, -, -, -, opens⟩ | ⟨-, opens⟩
    · rw [opens]
      exact .inl ⟨rfl, _, rfl⟩
    · rw [opens]
      exact ⟨rfl, rfl, rfl⟩
  | wiring =>
    obtain ⟨rfl, rfl, rfl⟩ := h
    rw [calls_wiring, Replay.step]
    split
    · refine ⟨rfl, ⟨⟨[], .nothing, ?_⟩, List.nil_prefix⟩, fun _ told => by cases told⟩
      simp only [List.nil_append, List.append_nil]
    · exact .inl ⟨rfl, _, rfl⟩
  | reading n =>
    simp only [accepts, hears, calls_reading, List.append_nil]
    exact h.reading
  | asking n row =>
    simp only [accepts, hears, calls_asking, List.append_nil]
    exact h.asking
  | offering n row =>
    simp only [hears, calls_offering, List.append_nil]
    exact h.offering
  | closing n stopped =>
    obtain ⟨length_eq, tail, fed, is_over⟩ := h
    simp only [accepts, hears, calls_closing, List.append_nil]
    refine ⟨length_eq, ⟨tail, stopped, fed, is_over⟩, fun f failure => ?_⟩
    cases stopped with
    | true => cases failure
    | false => exact sourceFailed_of_sourceFailure failure
  | finishing n failure =>
    obtain ⟨rfl, ⟨tail, stopped, fed, is_over⟩, failed⟩ := h
    simp only [accepts, hears, calls_finishing, List.append_nil]
    refine .inr ⟨⟨calls, tail, stopped, rfl, fed, is_over⟩, ?_⟩
    cases failure with
    | none => exact .inl rfl
    | some f => exact .inr ⟨f, rfl, failed f rfl⟩
  | done answer =>
    simp only [accepts, hears, calls_done, List.append_nil]
    exact h

/-! ## Whole courses -/

/-- A course in a deployment that operations have led to, with the calls made in it. -/
structure Keeps (r : Replay) [ResultStore σ] (c : Course σ) (calls : List Event) : Prop where
  reached : ∃ ops, c.deployment = ({} : Deployment σ).after ops
  proceeds : r.Proceeds c.deployment c.accepted c.answers calls c.stage

variable [ResultStore σ]

/-- In the course of a replay populations are in order. -/
theorem Keeps.wellKept {c : Course σ} (h : r.Keeps c calls) : c.deployment.WellKept := by
  obtain ⟨ops, reached⟩ := h.reached
  rw [reached]
  exact Deployment.wellKept_after Deployment.wellKept_empty ops

/-- Whatever comes next is an operation of the deployment. -/
theorem exists_operation (r : Replay) (c : Course σ) (t : Turn σ) :
    ∃ op, (r.turn c t).deployment = c.deployment.apply op := by
  cases t with
  | own => exact ⟨.replay r c.stage, rfl⟩
  | other op => exact ⟨op, rfl⟩

/-- In any turn of a course the source of the replay grows. -/
theorem Keeps.sourceGrows {c : Course σ} (h : r.Keeps c calls) (t : Turn σ) :
    r.SourceGrows c.deployment (r.turn c t).deployment := by
  obtain ⟨op, next⟩ := r.exists_operation c t
  rw [next]
  exact .of_populations fun id p here =>
    (c.deployment.apply_changes op).exists_grows h.wellKept here

/-- A course that keeps to the protocol keeps to it in any turn. -/
theorem Keeps.turn {c : Course σ} (h : r.Keeps c calls) (t : Turn σ) :
    r.Keeps (r.turn c t) (calls ++ r.transcript c [t]) := by
  have grows := h.sourceGrows t
  obtain ⟨⟨ops, reached⟩, proceeds⟩ := h
  refine ⟨?_, ?_⟩
  · obtain ⟨op, next⟩ := r.exists_operation c t
    refine ⟨ops ++ [op], ?_⟩
    rw [next, reached, Deployment.after_append]
    rfl
  · cases t with
    | own =>
      rw [transcript, transcript, List.append_nil]
      -- `Proceeds.step` is about the deployment before the step, which a look may change
      exact proceeds.step.grows grows
    | other op =>
      rw [transcript, transcript, List.append_nil]
      exact proceeds.grows grows

/-- The transcript of a course begins with the calls of its first turn. -/
theorem transcript_cons (c : Course σ) (t : Turn σ) (turns : List (Turn σ)) :
    r.transcript c (t :: turns) = r.transcript c [t] ++ r.transcript (r.turn c t) turns := by
  cases t with
  | own =>
    simp only [transcript, List.append_nil]
    rfl
  | other op => simp only [transcript, List.nil_append]

/-- A course that keeps to the protocol keeps to it in all turns. -/
theorem Keeps.follow {c : Course σ} (h : r.Keeps c calls) (turns : List (Turn σ)) :
    r.Keeps (r.follow c turns) (calls ++ r.transcript c turns) := by
  induction turns generalizing c calls with
  | nil =>
    rw [transcript, List.append_nil]
    exact h
  | cons t turns ih =>
    rw [transcript_cons, ← List.append_assoc]
    exact ih (h.turn t)

/-- Other operations that come first lead the deployment on. -/
theorem follow_others (r : Replay) (c : Course σ) (ops : List (Operation σ))
    (turns : List (Turn σ)) :
    r.follow c (ops.map .other ++ turns) =
      r.follow { c with deployment := c.deployment.after ops } turns := by
  induction ops generalizing c with
  | nil => rfl
  | cons op ops ih => exact ih _

/-- Other operations make no calls of the replay, and leave it a deployment to go on in. -/
theorem transcript_others (r : Replay) (c : Course σ) (ops : List (Operation σ))
    (turns : List (Turn σ)) :
    r.transcript c (ops.map .other ++ turns) =
      r.transcript { c with deployment := c.deployment.after ops } turns := by
  induction ops generalizing c with
  | nil => rfl
  | cons op ops ih =>
    rw [List.map_cons, List.cons_append, transcript]
    exact ih _

/-- A replay that is over makes no more calls. -/
theorem follow_of_done {c : Course σ} {answer : Except Failure Nat}
    (is_over : c.stage = .done answer) (turns : List (Turn σ)) :
    (r.follow c turns).stage = .done answer ∧ r.transcript c turns = [] := by
  induction turns generalizing c with
  | nil => exact ⟨is_over, rfl⟩
  | cons t turns ih =>
    cases t with
    | own =>
      have still : (r.own c).stage = .done answer := by
        unfold own
        rw [is_over]
        rfl
      obtain ⟨stage_eq, no_calls⟩ := ih still
      rw [transcript, is_over, calls_done, no_calls]
      exact ⟨stage_eq, rfl⟩
    | other op => exact ih is_over

/-- The replay wired its target, fed it with rows, told it that no more follow, and answered. -/
structure Completes (r : Replay) (c : Course σ) (calls : List Event)
    (answer : Except Failure Nat) : Prop where
  calls_eq : ∃ offers tail, calls = r.wired ++ offers ++ tail ++ [.feedEnded r.target] ∧
    r.Feeds c.accepted offers ∧
    (tail = [] ∨ false ∈ c.answers ∧ ∃ row, r.Refused c.deployment c.accepted row tail)
  rows_prefix : c.accepted <+: r.sourceRows c.deployment
  answer_eq : answer = .ok c.accepted.length ∨
    ∃ failure, answer = .error failure ∧ r.SourceFailed c.deployment failure
  complete : ∀ result, r.source = .kept result → (∀ told ∈ c.answers, told = true) →
    c.accepted = result.rows

/-- A replay that is over and has made a call has gone through the whole protocol. -/
theorem Keeps.completes {c : Course σ} {answer : Except Failure Nat} (h : r.Keeps c calls)
    (is_over : c.stage = .done answer) (called : calls ≠ []) : r.Completes c calls answer := by
  have proceeds := h.proceeds
  rw [is_over] at proceeds
  rcases proceeds with ⟨untouched, -⟩ | ⟨⟨fed, tail, stopped, rfl, is_fed, how⟩, answer_eq⟩
  · exact absurd untouched called
  obtain ⟨offers, feeds, rfl⟩ := is_fed.calls_eq
  cases stopped with
  | true =>
    obtain ⟨told, refused⟩ := how
    refine ⟨⟨offers, tail, rfl, feeds, .inr ⟨told, refused⟩⟩, is_fed.rows_prefix, answer_eq, ?_⟩
    intro result kept running
    cases running false told
  | false =>
    obtain ⟨running, no_tail, all⟩ := how
    exact ⟨⟨offers, tail, rfl, feeds, .inl no_tail⟩, is_fed.rows_prefix, answer_eq,
      fun result kept _ => all result kept⟩

/-- A replay may begin in any deployment that there can be. -/
theorem keeps_start (before : List (Operation σ)) :
    r.Keeps { deployment := ({} : Deployment σ).after before } [] :=
  ⟨⟨before, rfl⟩, rfl, rfl, rfl⟩

/-- **The protocol of a replay.** A replay can always be driven to its end. If it is over it has
failed since its population had not started, which it looked at first, or since its target had no
injection step, and made no call on the target; or it took the bypassed steps out of the target,
offered the first rows of its source, each one until it was accepted, told the target at last that
no more follow, and answered with the number of the rows or with the failure of its source. A result
that was kept is delivered in full unless the target was found stopped. -/
theorem replay_follows_protocol (before : List (Operation σ)) (r : Replay)
    (turns : List (Turn σ)) :
    let d := ({} : Deployment σ).after before
    let c := r.follow { deployment := d } (.own :: turns)
    let calls := r.transcript { deployment := d } (.own :: turns)
    (∃ steps answer, (r.follow c (List.replicate steps .own)).stage = .done answer) ∧
    ∀ answer, c.stage = .done answer →
      (∃ id p, r.source = .live id ∧ d.population? id = some p ∧ p.phase = .created ∧
        calls = [] ∧ answer = .error (.timeout (.start p.label) r.startupTimeout)) ∨
      (∀ id p, r.source = .live id → d.population? id = some p → p.phase ≠ .created) ∧
      ∃ (ops : List (Operation σ)) (rest : List (Turn σ)),
        turns = ops.map .other ++ .own :: rest ∧
        let present :=
          ((d.after ops).run? r.target).any (·.injectors.contains r.wiring.injectionStep)
        (present = false ∧ calls = [] ∧
          answer = .error (.configuration (.noInjectionStep r.wiring.injectionStep)) ∨
        present = true ∧ r.Completes c calls answer) := by
  intro d c calls
  refine ⟨⟨_, _, (r.follow_own_eq_drive (c := c) (Nat.le_refl _)).2⟩, fun answer is_over => ?_⟩
  have keeps : r.Keeps c calls := (keeps_start before).follow (.own :: turns)
  have calls_eq : calls = r.transcript (r.own { deployment := d }) turns := by
    show r.calls d .opening ++ _ = _
    rw [calls_opening, List.nil_append]
  rcases r.opening_cases d with ⟨id, p, live, here, created, opens⟩ | ⟨started, opens⟩
  · have failed : (r.own { deployment := d }).stage = .done (.error (r.startFailure p.label)) := by
      unfold own
      rw [opens]
    obtain ⟨stage_eq, no_calls⟩ := follow_of_done failed turns
    have same : Stage.done answer = _ := is_over.symm.trans stage_eq
    cases same
    exact .inl ⟨id, p, live, here, created, calls_eq.trans no_calls, rfl⟩
  refine .inr ⟨started, ?_⟩
  have opened : r.own { deployment := d } = { deployment := d, stage := .wiring } := by
    unfold own
    rw [opens]
    rfl
  rw [opened] at calls_eq
  have course_eq : c = r.follow { deployment := d, stage := .wiring } turns := by
    rw [← opened]
    rfl
  obtain ⟨ops, rfl | ⟨rest, rfl⟩⟩ := exists_others turns
  · -- the replay has not taken a second step
    rw [course_eq, ← List.append_nil (ops.map _), follow_others] at is_over
    cases is_over
  refine ⟨ops, rest, rfl, ?_⟩
  rw [follow_others] at course_eq
  rw [transcript_others, transcript] at calls_eq
  cases present : ((d.after ops).run? r.target).any (·.injectors.contains r.wiring.injectionStep) with
  | false =>
    have failed : (r.own { deployment := d.after ops, stage := .wiring }).stage =
        .done (.error (.configuration (.noInjectionStep r.wiring.injectionStep))) := by
      unfold own
      rw [Replay.step, present, if_neg Bool.false_ne_true]
    obtain ⟨stage_eq, no_calls⟩ := follow_of_done failed rest
    have same : Stage.done answer = _ := (is_over.symm.trans (congrArg _ course_eq)).trans stage_eq
    cases same
    refine .inl ⟨rfl, ?_, rfl⟩
    rw [calls_eq, no_calls, calls_wiring, present, if_neg Bool.false_ne_true]
    rfl
  | true =>
    refine .inr ⟨rfl, keeps.completes is_over ?_⟩
    rw [calls_eq, calls_wiring, present, if_pos rfl]
    exact List.cons_ne_nil _ _

/-- A run that waits for rows and refuses the first offer. -/
def refusingTarget : List (Operation KeyedMap) :=
  [.addRun "target" [] ["in"] 2 [{ accepted := false }]]

/-- A replay of a row that was kept. -/
def replayOfKept : Replay where
  source := .kept (.complete [⟨[.integer 1]⟩])
  wiring := ⟨"read", "read_out", "in"⟩
  putTimeout := 50
  startupTimeout := 30000
  target := ⟨"target", 0⟩

/-- The row is fed into a run that refuses its first offer. -/
theorem replay_follows_protocol_refused :
    let turns : List (Turn KeyedMap) := List.replicate 9 .own
    let start : Course KeyedMap := { deployment := ({} : Deployment KeyedMap).after refusingTarget }
    let c := replayOfKept.follow start (.own :: turns)
    c.stage = .done (.ok 1) ∧
      replayOfKept.Completes c (replayOfKept.transcript start (.own :: turns)) (.ok 1) := by
  intro turns start c
  have is_over : c.stage = .done (.ok 1) := rfl
  refine ⟨is_over, ?_⟩
  obtain ⟨-, protocol⟩ := replay_follows_protocol refusingTarget replayOfKept turns
  rcases protocol _ is_over with ⟨id, p, live, -⟩ | ⟨-, ops, rest, -, ⟨-, -, failed⟩ | ⟨-, completes⟩⟩
  · cases live
  · cases failed
  · exact completes

end DataService.Replay
