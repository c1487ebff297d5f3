import DataService.Proofs.Deployment.Efforts
import DataService.Proofs.Deployment.Readers
import DataService.Proofs.Deployment.StoppedTarget

/-!
# The loops of replays and readers

A replay is three loops in one. It looks for the next row, and waits for it as often as it has to;
it offers that row as often as the target refuses it; and it does so row after row. A reader that is
no replay has the first of these loops. `Replay.Next` is the diagram of a replay: the stages that
follow on each other and the efforts on the way. All three loops are read off it (`Replay.loop`),
and that every offer and every wait has an answer of its own is one more reading of it
(`Replay.Next.answered`).

Each loop is left once its worker has had turns enough for the answers on the way: the push loop
(`Replay.push_ends`), the wait for the next row (`Replay.wait_ends`, `Audience.wait_ends`) and the
replay as a whole (`Replay.whole_ends`).
-/

set_option autoImplicit false

namespace DataService

/-- The replay takes a step. -/
def Turn.isOwn {σ : Type} : Turn σ → Bool
  | .own => true
  | .other _ => false

/-- A row is offered to a target. -/
def Event.isOffer : Event → Bool
  | .rowOffered .. => true
  | _ => false

namespace Deployment

variable {σ : Type}

/-- The run that is asked in a look at a position: the one that a population which may still get
rows was last installed on, unless there is a row at the position. -/
def asked? (d : Deployment σ) (id : PopulationId) (position : Nat) : Option RunId :=
  (d.population? id).bind fun p =>
    if p.rows[position]?.isSome || p.closed || p.phase.isResolved then none else p.run

/-- There is no row yet, and it is waited for. -/
def Sight.isWaiting : Sight → Bool
  | .waiting => true
  | _ => false

/-- The efforts of a look at a position. -/
def lookEfforts (d : Deployment σ) (id : PopulationId) (position : Nat) : List Effort :=
  (d.asked? id position).toList.map (fun run => .asksSource run (d.ask run).2) ++
    if (d.look id position).2.isWaiting then [.waits] else []

/-- What a look comes to, and the efforts of it. -/
inductive Looks (d : Deployment σ) : Deployment σ × Sight → List Effort → Prop
  | finds (row : Row) : Looks d (d, .row row) []
  | ends : Looks d (d, .ended) []
  | waits {run : RunId} {d' : Deployment σ} : d.ask run = (d', true) →
    Looks d (d', .waiting) [.asksSource run true, .waits]
  | stops {run : RunId} {d' : Deployment σ} : d.ask run = (d', false) →
    Looks d (d', .ended) [.asksSource run false]

/-- Whether a population that is open is live is the answer of the run that is asked, if there is
one. -/
theorem isLive_cases {d : Deployment σ} {id : PopulationId} {p : Population} {position : Nat}
    (here : d.population? id = some p) (beyond : p.rows[position]? = none)
    (still_open : p.closed = false) :
    (d.asked? id position = none ∧ d.isLive id = (d, false)) ∨
    ∃ run, d.asked? id position = some run ∧ d.isLive id = d.ask run := by
  unfold asked? isLive
  rw [here, Option.bind_some, beyond, still_open]
  dsimp only
  cases p.phase.isResolved with
  | true => exact .inl ⟨rfl, rfl⟩
  | false =>
    cases p.run with
    | none => exact .inl ⟨rfl, rfl⟩
    | some run => exact .inr ⟨run, rfl, rfl⟩

/-- Every look at a population comes to one of these, with just these efforts. -/
theorem looks (d : Deployment σ) (id : PopulationId) (position : Nat) :
    d.Looks (d.look id position) (d.lookEfforts id position) := by
  unfold lookEfforts
  cases here : d.population? id with
  | none =>
    simp only [asked?, look, here]
    exact .ends
  | some p =>
    rcases d.look_cases here position with
      ⟨row, at_position, look⟩ | ⟨beyond, closed, look⟩ | ⟨beyond, still_open, d', answered⟩
    · have unasked : d.asked? id position = none := by
        rw [asked?, here, Option.bind_some, at_position]
        rfl
      rw [look, unasked]
      exact .finds row
    · have unasked : d.asked? id position = none := by simp [asked?, here, closed]
      rw [look, unasked]
      exact .ends
    · rcases isLive_cases here beyond still_open with ⟨unasked, live⟩ | ⟨run, asked, live⟩
      · rw [live] at answered
        rcases answered with ⟨told, -⟩ | ⟨told, look⟩
        · cases told
        · cases told
          rw [look, unasked]
          exact .ends
      · rw [live] at answered
        rcases answered with ⟨ask, look⟩ | ⟨ask, look⟩
        · rw [look, asked, Option.toList_some, List.map_singleton, ask]
          exact .waits ask
        · rw [look, asked, Option.toList_some, List.map_singleton, ask]
          exact .stops ask

/-- The efforts of a look can follow any efforts that were answered. -/
theorem Looks.answered {d : Deployment σ} {found : Deployment σ × Sight}
    {earlier efforts : List Effort} (looks : d.Looks found efforts) (answered : Answered earlier) :
    Answered (earlier ++ efforts) := by
  cases looks with
  | finds | ends => rwa [List.append_nil]
  | @waits run => exact answered.waits run
  | stops => exact answered.further trivial

end Deployment

namespace Replay

variable {σ : Type} {r : Replay} {d : Deployment σ}

/-- The efforts of a look for the next row. The rows of a result that was kept are all there. -/
def lookEfforts (r : Replay) (d : Deployment σ) (position : Nat) : List Effort :=
  match r.source with
  | .kept _ => []
  | .live id => d.lookEfforts id position

/-- The efforts of a step. -/
def efforts (r : Replay) (d : Deployment σ) : Stage → List Effort
  | .reading delivered => r.lookEfforts d delivered
  | .asking _ _ => [.asksTarget r.target (d.ask r.target).2]
  | .offering _ row => [.offers r.target row (d.offer r.target r.putTimeout row).2]
  | _ => []

/-- Every look of a replay for its next row comes to one of these, with just these efforts. -/
theorem looks (r : Replay) (d : Deployment σ) (position : Nat) :
    d.Looks (r.look d position) (r.lookEfforts d position) := by
  unfold look lookEfforts
  cases r.source with
  | kept result =>
    dsimp only
    split
    · exact .finds _
    · exact .ends
  | live id => exact d.looks id position

/-- The stages that follow on each other, and the efforts on the way. -/
inductive Next (r : Replay) : Stage → List Effort → Stage → Prop
  | opens : r.Next .opening [] .wiring
  | late (failure : Failure) : r.Next .opening [] (.done (.error failure))
  | wires : r.Next .wiring [] (.reading 0)
  | unfit (failure : Failure) : r.Next .wiring [] (.done (.error failure))
  | finds (n : Nat) (row : Row) : r.Next (.reading n) [] (.asking n row)
  | waits (n : Nat) (run : RunId) :
    r.Next (.reading n) [.asksSource run true, .waits] (.reading n)
  | ends (n : Nat) : r.Next (.reading n) [] (.closing n false)
  | abandons (n : Nat) (run : RunId) :
    r.Next (.reading n) [.asksSource run false] (.closing n false)
  | runs (n : Nat) (row : Row) :
    r.Next (.asking n row) [.asksTarget r.target true] (.offering n row)
  | stops (n : Nat) (row : Row) :
    r.Next (.asking n row) [.asksTarget r.target false] (.closing n true)
  | accepts (n : Nat) (row : Row) :
    r.Next (.offering n row) [.offers r.target row true] (.reading (n + 1))
  | refuses (n : Nat) (row : Row) :
    r.Next (.offering n row) [.offers r.target row false] (.asking n row)
  | closes (n : Nat) (stopped : Bool) (failure : Option Failure) :
    r.Next (.closing n stopped) [] (.finishing n failure)
  | finishes (n : Nat) (failure : Option Failure) (answer : Except Failure Nat) :
    r.Next (.finishing n failure) [] (.done answer)
  | stays (answer : Except Failure Nat) : r.Next (.done answer) [] (.done answer)

/-- Every step of a replay is one of these, with just these efforts. -/
theorem next (r : Replay) (d : Deployment σ) (stage : Stage) :
    r.Next stage (r.efforts d stage) (r.step d stage).2 := by
  cases stage with
  | opening =>
    rcases r.opening_cases d with ⟨id, p, -, -, -, opens⟩ | ⟨-, opens⟩
    · rw [opens]
      exact .late _
    · rw [opens]
      exact .opens
  | wiring =>
    rw [Replay.step]
    split
    · exact .wires
    · exact .unfit _
  | reading n =>
    have looks := r.looks d n
    rw [Replay.step, Replay.efforts]
    generalize r.look d n = found, r.lookEfforts d n = efforts at looks
    cases looks with
    | finds row => exact .finds n row
    | ends => exact .ends n
    | waits => exact .waits n _
    | stops => exact .abandons n _
  | asking n row =>
    rw [Replay.step, Replay.efforts]
    rcases d.ask r.target with ⟨d', running⟩
    cases running with
    | true => exact .runs n row
    | false => exact .stops n row
  | offering n row =>
    rw [Replay.step, Replay.efforts]
    rcases d.offer r.target r.putTimeout row with ⟨d', taken⟩
    cases taken with
    | true => exact .accepts n row
    | false => exact .refuses n row
  | closing n stopped => exact .closes n stopped _
  | finishing n failure => exact .finishes n failure _
  | done answer => exact .stays answer

/-! ## Answers -/

/-- What was done last before a row is offered is to find the target running. -/
def Ready (r : Replay) (last : Option Effort) : Stage → Prop
  | .offering _ _ => last = some (.asksTarget r.target true)
  | _ => True

/-- A step keeps its efforts answered, and reaches an offer only from a target found running. -/
theorem Next.answered {stage stage' : Stage} {earlier efforts : List Effort}
    (next : r.Next stage efforts stage') (answered : Answered earlier)
    (ready : r.Ready earlier.getLast? stage) :
    Answered (earlier ++ efforts) ∧ r.Ready (earlier ++ efforts).getLast? stage' := by
  cases next with
  | opens | late | wires | unfit | finds | ends | closes | finishes | stays =>
    rw [List.append_nil]
    exact ⟨answered, trivial⟩
  | waits n run => exact ⟨answered.waits run, trivial⟩
  | abandons | stops => exact ⟨answered.further trivial, trivial⟩
  | runs => exact ⟨answered.further trivial, List.getLast?_concat⟩
  | accepts | refuses => exact ⟨answered.further ready, trivial⟩

/-- The efforts of a turn in the course of a replay. -/
def turnEfforts (r : Replay) (c : Course σ) : Turn σ → List Effort
  | .own => r.efforts c.deployment c.stage
  | .other _ => []

variable [ResultStore σ]

/-- The replay between any other operations. -/
def worker (r : Replay) : Worker (Course σ) (Turn σ) where
  turn := r.turn
  isOwn := Turn.isOwn
  efforts := r.turnEfforts

/-- Whatever comes between its steps, every effort of a replay was answered. -/
theorem answered_trace (r : Replay) (d : Deployment σ) (turns : List (Turn σ)) :
    Answered (r.worker.trace { deployment := d } turns) := by
  have start : r.Ready none .opening := trivial
  refine Worker.answered_trace r.worker (fun c last => r.Ready last c.stage) ?_ .nothing
    (s := { deployment := d }) start turns
  intro c t earlier answered ready
  cases t with
  | own => exact (r.next c.deployment c.stage).answered answered ready
  | other op =>
    have no_efforts : earlier ++ r.worker.efforts c (.other op) = earlier := List.append_nil _
    rw [no_efforts]
    exact ⟨answered, ready⟩

/-! ## What can be seen of efforts -/

omit [ResultStore σ] in
/-- The efforts of a step have as many offers as it makes, and as many answers of a target that is
running as it hears. -/
theorem efforts_seen (r : Replay) (d : Deployment σ) (stage : Stage) :
    (r.efforts d stage).countP (·.isOffer) = (r.calls d stage).countP (·.isOffer) ∧
      (r.efforts d stage).countP (·.findsTarget) = (r.hears d stage).count true := by
  cases stage with
  | opening =>
    rw [calls_opening]
    exact ⟨rfl, rfl⟩
  | wiring =>
    rw [calls_wiring]
    split
    · exact ⟨rfl, rfl⟩
    · exact ⟨rfl, rfl⟩
  | reading n =>
    have none_heard : r.hears d (.reading n) = [] := rfl
    rw [calls_reading, none_heard, efforts]
    have looks := r.looks d n
    generalize r.look d n = found, r.lookEfforts d n = efforts at looks
    cases looks with
    | finds | ends | waits | stops => exact ⟨rfl, rfl⟩
  | asking n row =>
    rw [calls_asking, efforts, hears]
    cases (d.ask r.target).2 with
    | true => exact ⟨rfl, rfl⟩
    | false => exact ⟨rfl, rfl⟩
  | offering n row =>
    rw [calls_offering]
    exact ⟨rfl, rfl⟩
  | closing n stopped =>
    rw [calls_closing]
    exact ⟨rfl, rfl⟩
  | finishing n failure =>
    rw [calls_finishing]
    exact ⟨rfl, rfl⟩
  | done answer =>
    rw [calls_done]
    exact ⟨rfl, rfl⟩

/-- In a course the offers are those of the transcript, and the answers of a target that is running
are those that the course has noted. -/
theorem trace_seen (r : Replay) (c : Course σ) (turns : List (Turn σ)) :
    (r.worker.trace c turns).countP (·.isOffer) = (r.transcript c turns).countP (·.isOffer) ∧
      c.answers.count true + (r.worker.trace c turns).countP (·.findsTarget) =
        (r.follow c turns).answers.count true := by
  induction turns generalizing c with
  | nil => exact ⟨rfl, rfl⟩
  | cons t turns ih =>
    cases t with
    | own =>
      obtain ⟨offers_eq, answers_eq⟩ := ih (r.own c)
      obtain ⟨offers_now, answers_now⟩ := r.efforts_seen c.deployment c.stage
      have trace_eq : r.worker.trace c (.own :: turns) =
          r.efforts c.deployment c.stage ++ r.worker.trace (r.own c) turns := rfl
      have answers_own : (r.own c).answers = c.answers ++ r.hears c.deployment c.stage := rfl
      have follow_eq : r.follow c (.own :: turns) = r.follow (r.own c) turns := rfl
      rw [answers_own, List.count_append] at answers_eq
      rw [trace_eq, transcript, follow_eq, List.countP_append, List.countP_append,
        List.countP_append]
      omega
    | other op => exact ih (r.turn c (.other op))

/-! ## Loops -/

/-- A loop of stages is one of the replay, whatever other operations do meanwhile. -/
theorem loop (Inside Leaves : Stage → Prop) {weight : Stage → Nat} {perTarget perSource : Nat}
    (pos : ∀ stage, Inside stage → 0 < weight stage)
    (step : ∀ stage efforts stage', r.Next stage efforts stage' → Inside stage →
      Leaves stage' ∨ Inside stage' ∧
        weight stage' + 1 ≤ weight stage + Effort.allowance perTarget perSource efforts) :
    (r.worker : Worker (Course σ) (Turn σ)).Loop (fun c => Inside c.stage)
      (fun c => Leaves c.stage) (fun c => weight c.stage) perTarget perSource where
  pos c := pos c.stage
  other c t inside other := by
    cases t with
    | own => cases other
    | other op => exact ⟨inside, rfl⟩
  own c t inside own := by
    cases t with
    | own => exact step _ _ _ (r.next c.deployment c.stage) inside
    | other op => cases own

/-- How many turns offering a row can take without another answer that the target is running. -/
def pushWeight : Stage → Nat
  | .offering _ _ => 2
  | _ => 1

/-- Offering a row until it is accepted or the target has stopped. -/
theorem push_loop (r : Replay) (n : Nat) (row : Row) :
    (r.worker : Worker (Course σ) (Turn σ)).Loop
      (fun c => c.stage = .asking n row ∨ c.stage = .offering n row)
      (fun c => c.stage = .reading (n + 1) ∨ c.stage = .closing n true)
      (fun c => pushWeight c.stage) 2 0 := by
  refine loop (fun stage => stage = .asking n row ∨ stage = .offering n row)
    (fun stage => stage = .reading (n + 1) ∨ stage = .closing n true) ?_ ?_
  · rintro stage (rfl | rfl)
    · exact Nat.one_pos
    · exact Nat.two_pos
  · rintro stage efforts stage' next (rfl | rfl)
    · cases next with
      | runs => exact .inr ⟨.inr rfl, by simp [pushWeight, Effort.allowance, Effort.findsTarget]⟩
      | stops => exact .inl (.inr rfl)
    · cases next with
      | accepts => exact .inl (.inl rfl)
      | refuses => exact .inr ⟨.inl rfl, by simp [pushWeight]⟩

/-- Waiting for the next row. -/
theorem wait_loop (r : Replay) (n : Nat) :
    (r.worker : Worker (Course σ) (Turn σ)).Loop (fun c => c.stage = .reading n)
      (fun c => (∃ row, c.stage = .asking n row) ∨ c.stage = .closing n false)
      (fun _ => 1) 0 1 := by
  refine loop (· = .reading n)
    (fun stage => (∃ row, stage = .asking n row) ∨ stage = .closing n false)
    (fun _ _ => Nat.one_pos) ?_
  rintro stage efforts stage' next rfl
  cases next with
  | finds n row => exact .inl (.inl ⟨row, rfl⟩)
  | waits => exact .inr ⟨rfl, by simp [Effort.allowance, Effort.findsSource]⟩
  | ends | abandons => exact .inl (.inr rfl)

/-- The whole replay. An answer of the target lets it go three stages back at most, and an answer of
the source keeps it where it is. -/
theorem whole_loop (r : Replay) :
    (r.worker : Worker (Course σ) (Turn σ)).Loop (fun c => 0 < c.stage.rank)
      (fun c => ∃ answer, c.stage = .done answer) (fun c => c.stage.rank) 3 1 := by
  refine loop (fun stage => 0 < stage.rank) (fun stage => ∃ answer, stage = .done answer)
    (fun _ pos => pos) ?_
  intro stage efforts stage' next pos
  cases next with
  | late | unfit | finishes | stays => exact .inl ⟨_, rfl⟩
  | opens | wires | finds | waits | ends | abandons | runs | stops | accepts | refuses | closes =>
    refine .inr ⟨by simp [Stage.rank], ?_⟩
    simp [Stage.rank, Effort.allowance, Effort.findsTarget, Effort.findsSource]

/-- The replay is done with a row, or has found the target stopped, once it has had more than two
turns for each answer of the target. -/
theorem push_ends {c : Course σ} {n : Nat} {row : Row} {later : List (Turn σ)}
    (asking : c.stage = .asking n row)
    (enough : 2 * (r.worker.trace c later).countP (·.findsTarget) < later.countP (·.isOwn)) :
    ∃ front, front <+: later ∧ ((r.follow c front).stage = .reading (n + 1) ∨
      (r.follow c front).stage = .closing n true) := by
  have paid : pushWeight c.stage + Effort.allowance 2 0 (r.worker.trace c later) ≤
      later.countP (·.isOwn) := by
    simp only [asking, pushWeight, Effort.allowance]
    omega
  obtain ⟨front, t, within, -, leaves⟩ := (r.push_loop n row).is_left (.inl asking) paid
  exact ⟨front ++ [t], within, leaves⟩

/-- The replay has found the next row, or that there is none, once it has had more turns than the
source has answered. -/
theorem wait_ends {c : Course σ} {n : Nat} {later : List (Turn σ)} (reading : c.stage = .reading n)
    (enough : (r.worker.trace c later).countP (·.findsSource) < later.countP (·.isOwn)) :
    ∃ front, front <+: later ∧ ((∃ row, (r.follow c front).stage = .asking n row) ∨
      (r.follow c front).stage = .closing n false) := by
  have paid : 1 + Effort.allowance 0 1 (r.worker.trace c later) ≤ later.countP (·.isOwn) := by
    simp only [Effort.allowance]
    omega
  obtain ⟨front, t, within, -, leaves⟩ := (r.wait_loop n).is_left reading paid
  exact ⟨front ++ [t], within, leaves⟩

/-- The replay is over once it has had as many turns as its stage needs, and three more for each
answer of the target and one for each of the source. -/
theorem whole_ends {c : Course σ} {turns : List (Turn σ)}
    (enough : c.stage.rank + 3 * (r.worker.trace c turns).countP (·.findsTarget) +
      (r.worker.trace c turns).countP (·.findsSource) ≤ turns.countP (·.isOwn)) :
    ∃ answer, (r.follow c turns).stage = .done answer := by
  have paid : c.stage.rank + Effort.allowance 3 1 (r.worker.trace c turns) ≤
      turns.countP (·.isOwn) := by
    simp only [Effort.allowance]
    omega
  by_cases inside : 0 < c.stage.rank
  · obtain ⟨front, t, ⟨rest, rfl⟩, -, answer, is_over⟩ := r.whole_loop.is_left inside paid
    refine ⟨answer, ?_⟩
    have follow_eq : r.follow c (front ++ [t] ++ rest) =
        r.follow (r.worker.after c (front ++ [t])) rest := List.foldl_append ..
    rw [follow_eq]
    exact (follow_of_done is_over rest).1
  · cases stage : c.stage with
    | done answer => exact ⟨answer, (follow_of_done stage turns).1⟩
    | opening | wiring | reading | asking | offering | closing | finishing =>
      rw [stage] at inside
      exact absurd (by simp [Stage.rank]) inside

end Replay

/-! ## Readers -/

/-- The efforts of a step of a reader. One that has seen a row only takes it. -/
def Deployment.readEfforts {σ : Type} (d : Deployment σ) (g : Reading) : List Effort :=
  if g.sighted then [] else d.lookEfforts g.reader.population g.reader.position

namespace Audience

variable {σ : Type}

/-- The efforts of the reader of the number in a turn. -/
def turnEfforts (number : Nat) (a : Audience σ) (t : Turn σ) : List Effort :=
  if t.isOf number then (a.readings[number]?.map a.deployment.readEfforts).getD [] else []

/-- The only turns that are a reader's own are those in which it reads. -/
theorem eq_reads_of_isOf {number : Nat} {t : Turn σ} (own : t.isOf number = true) :
    t = .reads number := by
  cases t with
  | reads i => simpa [Turn.isOf] using own
  | opens | other => cases own

/-- The efforts in a reader's own turn are those of its step. -/
theorem turnEfforts_of_found {a : Audience σ} {number : Nat} {g : Reading} {t : Turn σ}
    (found : a.readings[number]? = some g) (own : t.isOf number = true) :
    turnEfforts number a t = a.deployment.readEfforts g := by
  rw [turnEfforts, if_pos own, found]
  rfl

variable [ResultStore σ]

/-- The reader of the number between other readers and any other operations. -/
def worker (number : Nat) : Worker (Audience σ) (Turn σ) where
  turn := turn
  isOwn := Turn.isOf number
  efforts := turnEfforts number

/-- Whatever the other readers and the operations do, every effort of a reader was answered. -/
theorem answered_trace (a : Audience σ) (number : Nat) (turns : List (Turn σ)) :
    Answered ((worker number).trace a turns) := by
  refine Worker.answered_trace (worker number) (fun _ _ => True) ?_ .nothing (s := a) trivial turns
  intro a t earlier answered _
  refine ⟨?_, trivial⟩
  show Answered (earlier ++ turnEfforts number a t)
  have unchanged : Answered (earlier ++ []) := by rwa [List.append_nil]
  cases own : t.isOf number with
  | false => rwa [turnEfforts, own, if_neg Bool.false_ne_true]
  | true =>
    cases found : a.readings[number]? with
    | none => rwa [turnEfforts, own, if_pos rfl, found]
    | some g =>
      rw [turnEfforts_of_found found own]
      unfold Deployment.readEfforts
      cases g.sighted with
      | true => exact unchanged
      | false => exact (a.deployment.looks _ _).answered answered

/-- Waiting for the next row. -/
theorem wait_loop (number : Nat) :
    (worker number : Worker (Audience σ) (Turn σ)).Loop
      (fun a => ∃ g, a.readings[number]? = some g ∧ g.sighted = false)
      (fun a => ∃ g, a.readings[number]? = some g ∧ (g.sighted = true ∨ g.ended = true))
      (fun _ => 1) 0 1 where
  pos _ _ := Nat.one_pos
  other a t inside other := by
    obtain ⟨g, found, unsighted⟩ := inside
    have found' := reading_turn found t
    have not_of : t.isOf number = false := other
    rw [not_of, if_neg Bool.false_ne_true] at found'
    exact ⟨⟨g, found', unsighted⟩, rfl⟩
  own a t inside own := by
    obtain ⟨g, found, unsighted⟩ := inside
    have is_of : t.isOf number = true := own
    have found' := reading_turn found t
    rw [if_pos is_of] at found'
    show _ ∨ _ ∧ 1 + 1 ≤ 1 + Effort.allowance 0 1 (turnEfforts number a t)
    rw [turnEfforts_of_found found is_of, Deployment.readEfforts, unsighted,
      if_neg Bool.false_ne_true]
    have looks := a.deployment.looks g.reader.population g.reader.position
    rcases look : a.deployment.look g.reader.population g.reader.position with ⟨d', sight⟩
    rw [look] at looks
    cases sight with
    | row row =>
      rw [Deployment.readOn_of_row unsighted look] at found'
      exact .inl ⟨_, found', .inl rfl⟩
    | ended =>
      rw [Deployment.readOn_of_ended unsighted look] at found'
      exact .inl ⟨_, found', .inr rfl⟩
    | waiting =>
      rw [Deployment.readOn_of_waiting unsighted look] at found'
      refine .inr ⟨⟨_, found', rfl⟩, ?_⟩
      generalize a.deployment.lookEfforts _ _ = efforts at looks ⊢
      cases looks with
      | waits => simp [Effort.allowance, Effort.findsSource]

/-- The call of a reader has come to its answer once it has had more turns than the source has
answered. -/
theorem wait_ends {a : Audience σ} {number : Nat} {g : Reading} {later : List (Turn σ)}
    (found : a.readings[number]? = some g) (unsighted : g.sighted = false)
    (enough : ((worker number).trace a later).countP (·.findsSource) <
      later.countP (·.isOf number)) :
    ∃ front, front ++ [.reads number] <+: later ∧
      ∃ g', (a.after (front ++ [.reads number])).readings[number]? = some g' ∧
        (g'.sighted = true ∨ g'.ended = true) := by
  have paid : 1 + Effort.allowance 0 1 ((worker number).trace a later) ≤
      later.countP (·.isOf number) := by
    simp only [Effort.allowance]
    omega
  obtain ⟨front, t, within, own, g', found', is_left⟩ :=
    (wait_loop number).is_left ⟨g, found, unsighted⟩ paid
  obtain rfl := eq_reads_of_isOf own
  exact ⟨front, within, g', found', is_left⟩

end Audience

end DataService
