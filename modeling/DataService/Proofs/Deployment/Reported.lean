import DataService.Proofs.Deployment.Gauges
import DataService.Proofs.Deployment.Playbacks
import DataService.Proofs.Store.Unreliable
import Mathlib.Algebra.BigOperators.Group.List.Basic

/-!
# What the metrics report

At every point of a history the metrics of a service agree with what happened (`metrics_agree`). The
gauge shows the size of the board (`gaugeShows_after`); the populations that the service started and
that have resolved are counted once each, by how they ended and by their rows; the queries that were
attached and those that were looked up are counted one by one (`count_eq_tally_add_credits`); and the
counters of replays are what the replays come to that are over (`Situation.count_eq_told`).

A history is what occurs in a situation from its beginning on: runs, populations, services and any
number of replays do their steps in whatever order. Nothing has to be waited for, so that results
may be waiting to be deposited when the metrics are read.
-/

set_option autoImplicit false

namespace DataService

/-- The operation attaches a query of the service of a name to a population in flight. -/
def Operation.attachesFor {σ : Type} (d : Deployment σ) (name : String) : Operation σ → Bool
  | .populate s q run label =>
    match (d.populate s q run label).2 with
    | .ok (.attached _) => s.name = name
    | _ => false
  | _ => false

/-- The operation looks up a query for the service of a name, and gets past the creation of its key:
the service keeps results in a store that is there, and the query has a key. -/
def Operation.looksUpFor {σ : Type} (d : Deployment σ) (name : String) : Operation σ → Bool
  | .lookup s q =>
    s.name = name ∧ s.definition.resultCache?.isSome ∧ (CacheKey.ofQuery q).toOption.isSome ∧
      (d.stores.get? s.store).isSome
  | _ => false

/-- Whether a population with the outcome ended in a given way. -/
def Outcome.endsAs (ending : Ending) (outcome : Outcome) : Bool := outcome.ending = ending

namespace Deployment

variable {σ : Type} {d : Deployment σ} {us : List Undertaking}

/-! ## Populations -/

/-- The outcomes of the populations of undertakings, as far as there are some. -/
def outcomes (d : Deployment σ) (us : List Undertaking) : List Outcome :=
  us.filterMap fun u => d.outcome? u.population

/-- What was undertaken by the service of a name. -/
def undertakenBy (name : String) (us : List Undertaking) : List Undertaking :=
  us.filter fun u => u.service.name = name

theorem credits_cons (d : Deployment σ) (c : Counter) (u : Undertaking) (us : List Undertaking) :
    d.credits c (u :: us) = d.credit c u + d.credits c us := List.sum_cons

/-- An undertaking has an outcome for its own service only, and only if its population has one. -/
theorem outcomes_undertakenBy_cons (d : Deployment σ) (name : String) (u : Undertaking)
    (us : List Undertaking) :
    d.outcomes (undertakenBy name (u :: us)) =
      (if u.service.name = name then (d.outcome? u.population).toList else []) ++
        d.outcomes (undertakenBy name us) := by
  unfold outcomes undertakenBy
  by_cases own : u.service.name = name
  · rw [List.filter_cons_of_pos (by simpa using own), if_pos own, List.filterMap_cons]
    cases d.outcome? u.population <;> rfl
  · rw [List.filter_cons_of_neg (by simpa using own), if_neg own, List.nil_append]

/-- The credit of a counter of a service is what the outcomes of its populations add to it. -/
theorem credits_eq_sum (name : String) {c : Counter} {g : Outcome → Nat}
    (adds : ∀ (outcome : Outcome) (service : String),
      outcome.adds service c = if service = name then g outcome else 0)
    (d : Deployment σ) (us : List Undertaking) :
    d.credits c us = ((d.outcomes (undertakenBy name us)).map g).sum := by
  induction us with
  | nil => rfl
  | cons u rest ih =>
    rw [credits_cons, outcomes_undertakenBy_cons, List.map_append, List.sum_append, ih]
    refine congrArg (· + _) ?_
    unfold credit
    cases d.outcome? u.population with
    | none =>
      dsimp only [Option.toList_none]
      rw [ite_self]
      rfl
    | some outcome =>
      dsimp only [Option.toList_some]
      rw [adds]
      split <;> rfl

/-- An outcome adds one to the populations of its service that ended as it did. -/
theorem adds_populations (name : String) (ending : Ending) (outcome : Outcome) (service : String) :
    outcome.adds service (.populations name ending) =
      if service = name then (outcome.endsAs ending).toNat else 0 := by
  unfold Outcome.adds Outcome.endsAs
  rw [if_neg (show Counter.populations name ending ≠ .populatedRows service from nofun),
    Nat.add_zero]
  by_cases own : service = name
  · rw [if_pos own, own]
    by_cases same : outcome.ending = ending
    · rw [same, if_pos rfl, decide_eq_true rfl]
      rfl
    · rw [if_neg (by rintro ⟨⟩; exact same rfl), decide_eq_false same]
      rfl
  · rw [if_neg own, if_neg (by rintro ⟨⟩; exact own rfl)]

/-- An outcome adds its rows to those that its service has populated. -/
theorem adds_populatedRows (name : String) (outcome : Outcome) (service : String) :
    outcome.adds service (.populatedRows name) = if service = name then outcome.rowCount else 0 := by
  unfold Outcome.adds
  rw [if_neg (show Counter.populatedRows name ≠ .populations service outcome.ending from nofun),
    Nat.zero_add]
  by_cases own : service = name
  · rw [if_pos own, if_pos (by rw [own])]
  · rw [if_neg own, if_neg (by rintro ⟨⟩; exact own rfl)]

/-- A sum of tests, each one for a success, is the number of successes. -/
theorem sum_map_toNat {α : Type} (test : α → Bool) (l : List α) :
    (l.map fun a => (test a).toNat).sum = l.countP test := by
  induction l with
  | nil => rfl
  | cons a rest ih =>
    rw [List.map_cons, List.sum_cons, ih, List.countP_cons, Nat.add_comm]
    cases test a <;> rfl

/-- Every population that has resolved ended in one of three ways. -/
theorem countP_endings (outcomes : List Outcome) :
    outcomes.countP (Outcome.endsAs .complete) + outcomes.countP (Outcome.endsAs .bounded) +
      outcomes.countP (Outcome.endsAs .failed) = outcomes.length := by
  induction outcomes with
  | nil => rfl
  | cons outcome rest ih =>
    rw [List.countP_cons, List.countP_cons, List.countP_cons, List.length_cons]
    unfold Outcome.endsAs at ih ⊢
    cases Outcome.ending outcome <;> simp only [decide_eq_true_eq, reduceCtorEq, if_true, if_false] <;>
      omega

variable [ResultStore σ]

/-- The ends of the populations that a service started are counted once each. -/
theorem populations_counted (ops : List (Operation σ)) (name : String) :
    let d := ({} : Deployment σ).after ops
    let outcomes := d.outcomes (undertakenBy name (undertakings {} ops))
    (∀ ending, d.metrics.count (.populations name ending) =
      outcomes.countP (Outcome.endsAs ending)) ∧
    d.metrics.count (.populatedRows name) = (outcomes.map Outcome.rowCount).sum := by
  intro d outcomes
  have uncounted {c : Counter} (of_ends : c.isOfEnds = true) :
      tally apply (fun d op => op.counted d c) ({} : Deployment σ) ops = 0 := by
    refine (tally_congr (fun d op => ?_) _ ops).trans (tally_zero apply ({} : Deployment σ) ops)
    refine Operation.counted_eq_zero ?_ d
    cases c <;> first | cases op <;> rfl | cases of_ends
  refine ⟨fun ending => ?_, ?_⟩
  · rw [count_eq_tally_add_credits, uncounted rfl, Nat.zero_add,
      credits_eq_sum name (adds_populations name ending)]
    exact sum_map_toNat _ outcomes
  · rw [count_eq_tally_add_credits, uncounted rfl, Nat.zero_add,
      credits_eq_sum name (adds_populatedRows name)]

/-! ## Attachments and look-ups -/

/-- An operation adds one to the attachments of a service exactly if it attaches for it. -/
theorem counted_attachments (d : Deployment σ) (name : String) (op : Operation σ) :
    op.counted d (.attachments name) = (op.attachesFor d name).toNat := by
  cases op with
  | populate s q run label =>
    rw [Operation.counted, Operation.attachesFor]
    rcases (d.populate s q run label).2 with failure | started | joined
    · rfl
    · rfl
    · by_cases own : s.name = name
      · simp only [own, if_true, decide_true, Bool.toNat_true]
      · simp only [own, decide_false, Bool.toNat_false]
        exact if_neg (by rintro ⟨⟩; exact own rfl)
  | replay r stage => exact (Operation.counted_eq_zero (by cases stage <;> rfl) d).trans rfl
  | _ => exact (Operation.counted_eq_zero (by rfl) d).trans rfl

/-- A look-up has an answer to be counted if it got past the creation of its key. -/
theorem exists_answer_iff (d : Deployment σ) (s : Service) (q : Query) :
    (∃ answer, (d.withStore s.store (.ok none) (s.lookup q)).2 = .ok (some answer)) ↔
      s.definition.resultCache?.isSome = true ∧ (CacheKey.ofQuery q).toOption.isSome = true ∧
        (d.stores.get? s.store).isSome = true := by
  unfold withStore
  cases d.stores.get? s.store with
  | none => simp
  | some store =>
    unfold Service.lookup
    cases s.definition.resultCache? with
    | none => simp
    | some cache =>
      cases CacheKey.ofQuery q with
      | error failure => simp [Except.toOption]
      | ok key => simp [Except.toOption]

/-- A look-up is counted once if it got past the creation of its key, and not at all otherwise. -/
theorem counted_lookups (d : Deployment σ) (name : String) (op : Operation σ) :
    op.counted d (.lookups name .hit) + op.counted d (.lookups name .miss) +
      op.counted d (.lookups name .insufficient) = (op.looksUpFor d name).toNat := by
  have of_uncounted {op : Operation σ}
      (nothing : ∀ outcome, op.counted d (.lookups name outcome) = 0)
      (no_look : op.looksUpFor d name = false) :
      op.counted d (.lookups name .hit) + op.counted d (.lookups name .miss) +
        op.counted d (.lookups name .insufficient) = (op.looksUpFor d name).toNat := by
    rw [nothing, nothing, nothing, no_look]
    rfl
  cases op with
  | lookup s q =>
    have passes := d.exists_answer_iff s q
    by_cases answered : ∃ answer, (d.withStore s.store (.ok none) (s.lookup q)).2 = .ok (some answer)
    · have looks : (Operation.lookup s q : Operation σ).looksUpFor d name = decide (s.name = name) :=
        decide_eq_decide.2 (and_iff_left (passes.1 answered))
      obtain ⟨answer, answer_eq⟩ := answered
      rw [Operation.counted_of_answer answer_eq, Operation.counted_of_answer answer_eq,
        Operation.counted_of_answer answer_eq, looks]
      simp only [Counter.lookups.injEq]
      by_cases own : s.name = name
      · rw [own, decide_eq_true rfl]
        cases answer.outcome <;> simp
      · rw [decide_eq_false own]
        simp only [Ne.symm own, false_and, if_false]
        rfl
    · exact of_uncounted (fun outcome => Operation.counted_of_no_answer answered _)
        (decide_eq_false fun looked => answered (passes.2 looked.2))
  | replay r stage =>
    exact of_uncounted (fun _ => Operation.counted_eq_zero (by cases stage <;> rfl) d) rfl
  | _ => exact of_uncounted (fun _ => Operation.counted_eq_zero (by rfl) d) rfl

/-- The queries that were attached are counted one by one. -/
theorem attachments_counted (ops : List (Operation σ)) (name : String) :
    (({} : Deployment σ).after ops).metrics.count (.attachments name) =
      tally apply (fun d op => (op.attachesFor d name).toNat) {} ops := by
  rw [count_eq_tally_add_credits, credits_eq_zero rfl, Nat.add_zero]
  exact tally_congr (fun d op => d.counted_attachments name op) _ ops

/-- The look-ups that got past the creation of their keys are counted one by one. -/
theorem lookups_counted (ops : List (Operation σ)) (name : String) :
    let m := (({} : Deployment σ).after ops).metrics
    m.count (.lookups name .hit) + m.count (.lookups name .miss) +
        m.count (.lookups name .insufficient) =
      tally apply (fun d op => (op.looksUpFor d name).toNat) {} ops := by
  intro m
  have counted (outcome : LookupOutcome) : m.count (.lookups name outcome) =
      tally apply (fun d op => op.counted d (.lookups name outcome)) ({} : Deployment σ) ops := by
    rw [count_eq_tally_add_credits, credits_eq_zero rfl, Nat.add_zero]
  rw [counted, counted, counted, ← tally_add, ← tally_add]
  exact tally_congr (fun d op => d.counted_lookups name op) _ ops

end Deployment

/-! ## Replays -/

namespace Playback

/-- Of a replay that is over, the rows that were accepted are told as replayed. -/
theorem told_replayedRows (p : Playback) :
    p.told .replayedRows = if p.isWired ∧ p.isOver then p.accepted.length else 0 := rfl

/-- Of a replay that is over, the rows that were left are told as dropped. -/
theorem told_droppedRows (p : Playback) :
    p.told .droppedRows = if p.isWired ∧ p.isOver then p.left.length else 0 := by
  unfold told
  rw [if_neg (show Counter.droppedRows ≠ .replayedRows from nofun), if_pos rfl, Nat.zero_add]

end Playback

/-- A sum of what meets two conditions is that of the list after both filters. -/
theorem sum_map_ite_and {α : Type} (chosen among : α → Bool) (f : α → Nat) (l : List α) :
    (l.map fun a => if chosen a ∧ among a then f a else 0).sum =
      (((l.filter chosen).filter among).map f).sum := by
  rw [List.sum_map_ite, List.filter_filter]
  simp [Bool.and_comm]

namespace Situation

variable {σ : Type} [ResultStore σ]

/-- The replays that got past their wiring. -/
def wired (s : Situation σ) : List Playback := s.playbacks.filter (·.isWired)

/-- The rows that were replayed are those accepted in the replays that are over, and those dropped the
ones that were not. -/
theorem replays_counted (occurrences : List (Occurrence σ)) :
    let now := ({} : Situation σ).after occurrences
    now.deployment.metrics.count .replayedRows =
        ((now.wired.filter (·.isOver)).map (·.accepted.length)).sum ∧
      now.deployment.metrics.count .droppedRows =
        ((now.wired.filter (·.isOver)).map (·.left.length)).sum := by
  intro now
  refine ⟨?_, ?_⟩
  · rw [count_eq_told (.inl rfl)]
    unfold told
    rw [List.map_congr_left fun p _ => p.told_replayedRows]
    exact sum_map_ite_and (·.isWired) (·.isOver) (·.accepted.length) now.playbacks
  · rw [count_eq_told (.inr rfl)]
    unfold told
    rw [List.map_congr_left fun p _ => p.told_droppedRows]
    exact sum_map_ite_and (·.isWired) (·.isOver) (·.left.length) now.playbacks

open Deployment in
/-- **The metrics agree with what happened.** At every point of a history in which a service has its
board for itself: the gauge, once it is set, shows how many populations the board names; every
population that the service started and that has resolved is counted once, under its own ending, and
its rows are counted if it did not fail; the queries that were attached are counted, and a look-up is
counted once if it got past the creation of its key. Over all replays that got past their wiring, the
rows replayed are those that were accepted, up to the replays that are still under way, and the rows
dropped are what the others left: of a kept result, exactly the rows that were not accepted. -/
theorem metrics_agree (occurrences : List (Occurrence σ)) (service : Service)
    (own : ∀ op ∈ ({} : Situation σ).operations occurrences, ∀ s, op.populating? = some s →
      (s.name = service.name ↔ s.board = service.board)) :
    let now := ({} : Situation σ).after occurrences
    let d := now.deployment
    let m := d.metrics
    let ops := ({} : Situation σ).operations occurrences
    let started := undertakenBy service.name (undertakings ({} : Deployment σ) ops)
    let ended := d.outcomes started
    (∀ n, m.inFlight? service.name = some n → n = (d.board service.board).size) ∧
    ((started.map (·.population)).Nodup ∧
      (∀ ending, m.count (.populations service.name ending) =
        ended.countP (Outcome.endsAs ending)) ∧
      m.count (.populations service.name .complete) +
        m.count (.populations service.name .bounded) +
        m.count (.populations service.name .failed) = ended.length ∧
      m.count (.populatedRows service.name) = (ended.map Outcome.rowCount).sum) ∧
    m.count (.attachments service.name) =
      tally apply (fun d op => (op.attachesFor d service.name).toNat) {} ops ∧
    m.count (.lookups service.name .hit) + m.count (.lookups service.name .miss) +
        m.count (.lookups service.name .insufficient) =
      tally apply (fun d op => (op.looksUpFor d service.name).toNat) {} ops ∧
    m.count .replayedRows + ((now.wired.filter (!·.isOver)).map (·.accepted.length)).sum =
      (now.wired.map (·.accepted.length)).sum ∧
    m.count .droppedRows = ((now.wired.filter (·.isOver)).map (·.left.length)).sum ∧
    ∀ p ∈ now.wired, ∀ result, p.replay.source = .kept result →
      p.accepted ++ p.left = result.rows := by
  intro now d m ops started ended
  have deployment_eq : d = ({} : Deployment σ).after ops := deployment_after {} occurrences
  have traced : d.Traced (undertakings {} ops) := by
    have from_nothing := traced_after (traced_empty (σ := σ)) ops
    rw [List.nil_append, ← deployment_eq] at from_nothing
    exact from_nothing
  have shows : d.GaugeShows service.name service.board := by
    rw [deployment_eq]
    exact gaugeShows_after traced_empty (List.forall_mem_nil _) (gaugeShows_empty _ _) own
  obtain ⟨endings, rows⟩ := populations_counted ops service.name
  rw [← deployment_eq] at endings rows
  have attached := attachments_counted ops service.name
  have looked_up := lookups_counted ops service.name
  rw [← deployment_eq] at attached looked_up
  obtain ⟨replayed, dropped⟩ := replays_counted occurrences
  refine ⟨?_, ⟨?_, endings, ?_, rows⟩, attached, looked_up, ?_, dropped, ?_⟩
  · intro n is_set
    unfold GaugeShows at shows
    rw [is_set] at shows
    exact shows
  · exact (List.filter_sublist.map _).nodup traced.once
  · rw [endings, endings, endings]
    exact countP_endings ended
  · have split := List.sum_map_filter_add_sum_map_filter_not (·.isOver = true)
      (·.accepted.length) now.wired
    simp only [Bool.decide_eq_true, decide_not] at split
    rw [replayed]
    exact split
  · intro p among result kept
    exact ((inOrder_empty.after occurrences).keeps p (List.mem_filter.1 among).1).accepted_append_left
      kept

/-- A replay of two rows that were kept. -/
def replayOfTwo : Replay where
  source := .kept (.complete [⟨[.integer 1]⟩, ⟨[.integer 2]⟩])
  wiring := ⟨"read", "read_out", "in"⟩
  putTimeout := 50
  startupTimeout := 30000
  target := ⟨"target", 1⟩

/-- A query is populated from a run, another one is attached to it, and a third one is refused, since
the run has an owner. While the row of the run is captured a replay goes to its end, with a target
that refuses its first offer and stops after the first row. Nothing has been deposited by then. -/
def capturedAmidReplay : List (Occurrence KeyedMap) :=
  [.happens (.addRun "first" [("out", ["n"])] [] 0 []) rfl,
    .happens (.addRun "target" [] ["in"] 2 [{ accepted := false }]) rfl,
    .happens (.addStore {}) rfl,
    .begins replayOfTwo,
    .happens (.populate Deployment.numbersService { fingerprint := some 7 } ⟨"first", 0⟩ "new") rfl,
    .happens (.populate Deployment.numbersService { fingerprint := some 7 } ⟨"first", 0⟩ "joins") rfl,
    .happens (.populate Deployment.numbersService { fingerprint := some 8 } ⟨"first", 0⟩ "late") rfl] ++
  List.replicate 6 (.proceeds 0) ++
  [.happens (.engine (.start "first")) rfl,
    .happens (.engine (.emit "first" "out" [.integer 1])) rfl,
    .happens (.engine (.finish "first" "out" [] false)) rfl,
    .happens (.lookup Deployment.numbersService { fingerprint := some 7 }) rfl] ++
  List.replicate 6 (.proceeds 0)

/-- The metrics agree while a captured result waits to be deposited and a replay has just ended. -/
theorem metrics_agree_capturedAmidReplay :
    let now := ({} : Situation KeyedMap).after capturedAmidReplay
    let m := now.deployment.metrics
    now.deployment.pending.length = 1 ∧
      m.inFlight? "numbers" = some (now.deployment.board ⟨0⟩).size ∧
      m.count (.populations "numbers" .complete) = 1 ∧ m.count (.populatedRows "numbers") = 1 ∧
      m.count (.attachments "numbers") = 1 ∧
      m.count (.lookups "numbers" .hit) + m.count (.lookups "numbers" .miss) +
        m.count (.lookups "numbers" .insufficient) = 1 ∧
      m.count .replayedRows = 1 ∧ m.count .droppedRows = 1 := by
  intro now m
  have populating : (({} : Situation KeyedMap).operations capturedAmidReplay).filterMap
      Operation.populating? = List.replicate 3 Deployment.numbersService := rfl
  obtain ⟨gauge, ⟨-, endings, -, rows⟩, attached, looked_up, replayed, dropped, -⟩ :=
    metrics_agree capturedAmidReplay Deployment.numbersService (by
      intro op among s populates
      have is_numbers : s ∈ List.replicate 3 Deployment.numbersService := by
        rw [← populating]
        exact List.mem_filterMap.2 ⟨op, among, populates⟩
      rw [List.eq_of_mem_replicate is_numbers]
      exact iff_of_true rfl rfl)
  have is_set : m.inFlight? "numbers" = some 1 := rfl
  exact ⟨rfl, is_set.trans (congrArg some (gauge 1 is_set)), endings .complete, rows, attached,
    looked_up, replayed, dropped⟩

end Situation

end DataService
