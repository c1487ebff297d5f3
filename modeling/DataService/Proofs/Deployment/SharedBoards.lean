import DataService.Proofs.Deployment.Joining

/-!
# Services that share a board

A board names populations by the exact keys of queries, and a key says nothing about the service. So
a query may be attached to a population of another service over the same board, and that one captures
the output step of the service that started it (`attached_captures_starters_step`), whatever step the
queried service has. Services that share a board keep to their own rows only if those that start
populations for the same key agree in their output steps; two that do not are in
`attached_across_services`.
-/

set_option autoImplicit false

namespace DataService.Deployment

variable {σ : Type} [ResultStore σ]

/-- **Whoever joins a population gets what its starter captures.** A population to which a query is
attached was undertaken for the key of the query by a service over the same board. From then on it
captures the output step of that service. So this is the output step of the service that was queried
if all services agree that started populations for the key on the board. -/
theorem attached_captures_starters_step (ops : List (Operation σ)) (s : Service) (q : Query)
    (run : RunId) (label : String) (id : PopulationId)
    (attached : ((({} : Deployment σ).after ops).populate s q run label).2 = .ok (.attached id)) :
    let joined := ((({} : Deployment σ).after ops).populate s q run label).1
    ∃ u ∈ undertakings ({} : Deployment σ) ops,
      u.population = id ∧ u.service.board = s.board ∧
      CacheKey.ofQuery u.query = CacheKey.ofQuery q ∧
      ∀ later : List (Operation σ), ∃ p, (joined.after later).population? id = some p ∧
        p.outputStep = u.service.definition.outputStep ∧
        ((∀ u' ∈ undertakings ({} : Deployment σ) ops, u'.service.board = s.board →
            CacheKey.ofQuery u'.query = CacheKey.ofQuery q →
            u'.service.definition.outputStep = s.definition.outputStep) →
          p.outputStep = s.definition.outputStep) := by
  intro joined
  obtain ⟨key, exact_key, named, -, same⟩ := populate_of_attached attached
  obtain ⟨u, undertaken, about, on_board, undertaken_key⟩ := exists_undertaking_on_board named
  obtain ⟨p, here, began⟩ := began_after wellKept_empty undertaken
  have same_key : CacheKey.ofQuery u.query = CacheKey.ofQuery q := undertaken_key.trans exact_key.symm
  have kept : joined.WellKept := by
    rw [show joined = _ from same]
    exact (wellKept_after wellKept_empty ops).congr rfl (Nat.le_refl _) fun _ waits => waits
  have here' : joined.population? id = some p := by
    rw [show joined = _ from same, ← about]
    exact here
  refine ⟨u, undertaken, about, on_board, same_key, ?_⟩
  intro later
  obtain ⟨p', there, grows⟩ := exists_grows_after kept here' later
  have step_eq := (began.grows grows).outputStep_eq
  exact ⟨p', there, step_eq, fun agree => step_eq.trans (agree u undertaken on_board same_key)⟩

/-- A service over the board of the numbers, with a step of its own for their totals. -/
def totalsService : Service :=
  { numbersService with
    definition :=
      { name := "totals", outputStep := "sum"
        strategies := [.resultCache ⟨"cache", ⟨"in", "sort", "sum"⟩⟩] } }

/-- The numbers are captured from a run that has sums as well. -/
def numbersWanted : List (Operation KeyedMap) :=
  [.addRun "first" [("out", ["n"]), ("sum", ["n"])] [] 0 [],
    .addRun "second" [("out", ["n"]), ("sum", ["n"])] [] 0 [],
    .addStore {},
    .populate numbersService { fingerprint := some 7 } ⟨"first", 0⟩ "numbers"]

/-- The run gives two numbers and their sum. -/
def twoNumbersAndSum : List (Operation KeyedMap) :=
  [.engine (.start "first"),
    .engine (.emit "first" "out" [.integer 1]),
    .engine (.emit "first" "out" [.integer 2]),
    .engine (.emit "first" "sum" [.integer 3]),
    .engine (.finish "first" "sum" [] false),
    .engine (.finish "first" "out" [] false)]

/-- The query for the sums joins the capture of the numbers, which are not of their step. -/
theorem attached_captures_starters_step_numbers :
    let d := ({} : Deployment KeyedMap).after numbersWanted
    let joining := d.populate totalsService { fingerprint := some 7 } ⟨"second", 1⟩ "totals"
    joining.2 = .ok (.attached ⟨3⟩) ∧
      ∃ p, (joining.1.after twoNumbersAndSum).population? ⟨3⟩ = some p ∧ p.outputStep = "out" := by
  have undertaken : (undertakings ({} : Deployment KeyedMap) numbersWanted).map
      (fun u => u.service.definition.outputStep) = ["out"] := rfl
  intro d joining
  have attached : joining.2 = .ok (.attached ⟨3⟩) := rfl
  obtain ⟨u, member, -, -, -, captures⟩ := attached_captures_starters_step numbersWanted totalsService
    { fingerprint := some 7 } ⟨"second", 1⟩ "totals" ⟨3⟩ attached
  obtain ⟨p, there, step_eq, -⟩ := captures twoNumbersAndSum
  refine ⟨attached, p, there, ?_⟩
  have step : u.service.definition.outputStep ∈
      (undertakings ({} : Deployment KeyedMap) numbersWanted).map
        (fun u => u.service.definition.outputStep) := List.mem_map.2 ⟨u, member, rfl⟩
  rw [undertaken, List.mem_singleton] at step
  exact step_eq.trans step

/-- Services over one board do get each other's rows: a query for sums is attached to a capture of the
numbers, and what it waits for is the two numbers and not their sum. -/
theorem attached_across_services :
    let d := ({} : Deployment KeyedMap).after numbersWanted
    let joining := d.populate totalsService { fingerprint := some 7 } ⟨"second", 1⟩ "totals"
    joining.2 = .ok (.attached ⟨3⟩) ∧
      ((joining.1.population? ⟨3⟩).map (·.outputStep) = some "out" ∧
        totalsService.definition.outputStep = "sum") ∧
      ((joining.1.after twoNumbersAndSum).population? ⟨3⟩).bind (·.outcome) =
        some (.ok (.complete [⟨[.integer 1]⟩, ⟨[.integer 2]⟩])) := by
  refine ⟨rfl, ⟨rfl, rfl⟩, rfl⟩

end DataService.Deployment
