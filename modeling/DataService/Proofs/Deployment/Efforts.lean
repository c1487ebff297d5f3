import DataService.Model.Deployment.Replay

/-!
# Loops that questions pay for

A replay offers a row again and again, and a reader waits again and again, while somebody else
decides how often: a loop goes on as long as a run is found running. No measure of the deployment
alone goes down in it, since an offer that is refused changes nothing and rows may come while others
are delivered. What can be counted are the answers. `Effort`s are what such a loop does, its
questions included, and a `Worker` is whatever takes turns with the rest of a deployment and is
followed by its efforts.

Every offer and every wait has an answer of its own in front of it (`Answered`), and a loop whose
rounds are paid for by such answers is left once it has had turns enough (`Loop.is_left`).
-/

set_option autoImplicit false

namespace DataService

/-- What replays and readers do as often as it takes. -/
inductive Effort where
  /-- The target is asked whether it is running. -/
  | asksTarget (run : RunId) (running : Bool)
  /-- The run that a population was last installed on is asked whether it is running. -/
  | asksSource (run : RunId) (running : Bool)
  /-- A row is offered to the target. -/
  | offers (run : RunId) (row : Row) (accepted : Bool)
  /-- The next row of a population is waited for. -/
  | waits

namespace Effort

/-- The target was found running. -/
def findsTarget : Effort → Bool
  | .asksTarget _ running => running
  | _ => false

/-- The run of a population was found running. -/
def findsSource : Effort → Bool
  | .asksSource _ running => running
  | _ => false

/-- The run was found running, whatever it was asked for. -/
def finds (run : RunId) : Effort → Bool
  | .asksTarget asked running | .asksSource asked running => running && asked = run
  | _ => false

def isOffer : Effort → Bool
  | .offers .. => true
  | _ => false

def isWait : Effort → Bool
  | .waits => true
  | _ => false

/-- An offer follows at once on the answer that its target is running, and a wait on the answer that
the run of the population is. -/
def FollowsOn (last : Option Effort) : Effort → Prop
  | .asksTarget .. | .asksSource .. => True
  | .offers run _ _ => last = some (.asksTarget run true)
  | .waits => ∃ run, last = some (.asksSource run true)

/-- The answers by which efforts were allowed, each of the target's counted `perTarget` times and
each of the source's `perSource` times. -/
def allowance (perTarget perSource : Nat) (efforts : List Effort) : Nat :=
  perTarget * efforts.countP (·.findsTarget) + perSource * efforts.countP (·.findsSource)

@[simp] theorem allowance_nil (perTarget perSource : Nat) :
    allowance perTarget perSource [] = 0 := rfl

/-- What two sequences of efforts allow adds up. -/
theorem allowance_append (perTarget perSource : Nat) (efforts further : List Effort) :
    allowance perTarget perSource (efforts ++ further) =
      allowance perTarget perSource efforts + allowance perTarget perSource further := by
  simp only [allowance, List.countP_append, Nat.mul_add]
  omega

end Effort

/-- Every offer and every wait has a true answer of its own right in front of it. -/
inductive Answered : List Effort → Prop
  | nothing : Answered []
  | further {efforts : List Effort} {effort : Effort} : Answered efforts →
    effort.FollowsOn efforts.getLast? → Answered (efforts ++ [effort])

/-- A source that is found running may be waited for. -/
theorem Answered.waits {earlier : List Effort} (answered : Answered earlier) (run : RunId) :
    Answered (earlier ++ [.asksSource run true, .waits]) := by
  have asked : Answered (earlier ++ [.asksSource run true]) := answered.further trivial
  have waited : Answered (earlier ++ [.asksSource run true] ++ [.waits]) :=
    asked.further ⟨run, List.getLast?_concat⟩
  rwa [List.append_assoc] at waited

/-- If each of certain deeds has an answer right in front of it and is no answer itself, the deeds
are no more than the answers. If the last thing was an answer, there is one that is not used yet. -/
theorem Answered.countP_le {deed answer : Effort → Bool} {efforts : List Effort}
    (h : Answered efforts) (apart : ∀ effort, deed effort = true → answer effort = false)
    (follows : ∀ effort last, deed effort = true → effort.FollowsOn last →
      last.any answer = true) :
    efforts.countP deed + (if efforts.getLast?.any answer then 1 else 0) ≤
      efforts.countP answer := by
  induction h with
  | nothing => simp
  | @further efforts effort _ on_last ih =>
    rw [List.countP_append, List.countP_append, List.countP_singleton, List.countP_singleton,
      List.getLast?_concat, Option.any_some]
    cases is_deed : deed effort with
    | false =>
      simp only [Bool.false_eq_true, if_false]
      omega
    | true =>
      rw [follows effort _ is_deed on_last] at ih
      rw [apart effort is_deed]
      simpa using ih

/-- Offers never exceed the answers that the target is running. -/
theorem Answered.offers_le {efforts : List Effort} (h : Answered efforts) :
    efforts.countP (·.isOffer) ≤ efforts.countP (·.findsTarget) := by
  refine Nat.le_of_add_right_le
    (h.countP_le (fun effort offer => ?_) fun effort last offer on => ?_)
  · cases effort with
    | offers => rfl
    | asksTarget | asksSource | waits => cases offer
  · cases effort with
    | offers run row accepted =>
      obtain rfl : last = some (.asksTarget run true) := on
      rfl
    | asksTarget | asksSource | waits => cases offer

/-- Waits never exceed the answers that the run of the population is running. -/
theorem Answered.waits_le {efforts : List Effort} (h : Answered efforts) :
    efforts.countP (·.isWait) ≤ efforts.countP (·.findsSource) := by
  refine Nat.le_of_add_right_le (h.countP_le (fun effort wait => ?_) fun effort last wait on => ?_)
  · cases effort with
    | waits => rfl
    | asksTarget | asksSource | offers => cases wait
  · cases effort with
    | waits =>
      obtain ⟨run, rfl⟩ := on
      rfl
    | asksTarget | asksSource | offers => cases wait

/-! ## Workers -/

/-- Something that takes turns with the rest of a deployment. -/
structure Worker (S T : Type) where
  turn : S → T → S
  /-- The turn is one of its own. -/
  isOwn : T → Bool
  /-- What it does in a turn. -/
  efforts : S → T → List Effort

namespace Worker

variable {S T : Type}

/-- The state after turns. -/
def after (w : Worker S T) (s : S) (turns : List T) : S := turns.foldl w.turn s

/-- What is done in turns, one after the other. -/
def trace (w : Worker S T) (s : S) : List T → List Effort
  | [] => []
  | t :: turns => w.efforts s t ++ w.trace (w.turn s t) turns

/-- If every turn goes on from answered efforts, so do all turns together. What a turn needs to know
of the last effort before it is `Ready`. -/
theorem answered_trace (w : Worker S T) (Ready : S → Option Effort → Prop)
    (each : ∀ s t earlier, Answered earlier → Ready s earlier.getLast? →
      Answered (earlier ++ w.efforts s t) ∧
        Ready (w.turn s t) (earlier ++ w.efforts s t).getLast?)
    {s : S} {earlier : List Effort} (answered : Answered earlier)
    (ready : Ready s earlier.getLast?) (turns : List T) :
    Answered (earlier ++ w.trace s turns) := by
  induction turns generalizing s earlier with
  | nil => simpa [trace] using answered
  | cons t turns ih =>
    obtain ⟨answered', ready'⟩ := each s t earlier answered ready
    rw [trace, ← List.append_assoc]
    exact ih answered' ready'

/-- What is true of all that is done in any turn is true of all that is done in turns. -/
theorem forall_mem_trace (w : Worker S T) {P : Effort → Prop}
    (each : ∀ s t, ∀ effort ∈ w.efforts s t, P effort) (s : S) (turns : List T) :
    ∀ effort ∈ w.trace s turns, P effort := by
  induction turns generalizing s with
  | nil => exact fun effort among => absurd among List.not_mem_nil
  | cons t turns ih =>
    intro effort among
    rcases List.mem_append.1 among with now | later
    · exact each s t effort now
    · exact ih (w.turn s t) effort later

/-- What uses up a stock in every turn uses it up in all turns together. -/
theorem countP_trace_le (w : Worker S T) (Fine : S → Prop) (stock : S → Nat)
    (uses : Effort → Bool)
    (each : ∀ s t, Fine s →
      Fine (w.turn s t) ∧ (w.efforts s t).countP uses + stock (w.turn s t) ≤ stock s)
    {s : S} (fine : Fine s) (turns : List T) :
    (w.trace s turns).countP uses + stock (w.after s turns) ≤ stock s := by
  induction turns generalizing s with
  | nil => simp [trace, after]
  | cons t turns ih =>
    obtain ⟨fine', uses_now⟩ := each s t fine
    have uses_later := ih fine'
    have after_cons : w.after s (t :: turns) = w.after (w.turn s t) turns := rfl
    rw [after_cons, trace, List.countP_append]
    omega

/-- A loop of the worker. While it is inside, an own turn brings it nearer to its end, by a weight
that only the answers of runs can add to, or leads out of it. -/
structure Loop (w : Worker S T) (Inside Leaves : S → Prop) (weight : S → Nat)
    (perTarget perSource : Nat) : Prop where
  pos : ∀ s, Inside s → 0 < weight s
  other : ∀ s t, Inside s → w.isOwn t = false →
    Inside (w.turn s t) ∧ weight (w.turn s t) = weight s
  own : ∀ s t, Inside s → w.isOwn t = true →
    Leaves (w.turn s t) ∨ Inside (w.turn s t) ∧
      weight (w.turn s t) + 1 ≤ weight s + Effort.allowance perTarget perSource (w.efforts s t)

/-- **A loop that has turns enough is left.** The turns that are enough are as many as the weight at
the start and the answers of the runs together. -/
theorem Loop.is_left {w : Worker S T} {Inside Leaves : S → Prop} {weight : S → Nat}
    {perTarget perSource : Nat}
    (loop : w.Loop Inside Leaves weight perTarget perSource) {s : S} (inside : Inside s)
    {turns : List T}
    (enough : weight s + Effort.allowance perTarget perSource (w.trace s turns) ≤
      turns.countP w.isOwn) :
    ∃ front t, front ++ [t] <+: turns ∧ w.isOwn t = true ∧ Leaves (w.after s (front ++ [t])) := by
  induction turns generalizing s with
  | nil =>
    have pos := loop.pos s inside
    simp only [List.countP_nil] at enough
    omega
  | cons t turns ih =>
    -- once the loop is left later on, it is left after this turn as well
    have go_on {s' : S} (turn_eq : w.turn s t = s') (inside' : Inside s')
        (enough' : weight s' + Effort.allowance perTarget perSource (w.trace s' turns) ≤
          turns.countP w.isOwn) :
        ∃ front t', front ++ [t'] <+: t :: turns ∧ w.isOwn t' = true ∧
          Leaves (w.after s (front ++ [t'])) := by
      obtain ⟨front, t', within, own, leaves⟩ := ih inside' enough'
      refine ⟨t :: front, t', (List.prefix_cons_inj t).2 within, own, ?_⟩
      show Leaves (w.after (w.turn s t) (front ++ [t']))
      rw [turn_eq]
      exact leaves
    rw [trace, Effort.allowance_append, List.countP_cons] at enough
    cases own : w.isOwn t with
    | false =>
      obtain ⟨inside', same_weight⟩ := loop.other s t inside own
      rw [own] at enough
      refine go_on rfl inside' ?_
      simp only [Bool.false_eq_true, if_false] at enough
      omega
    | true =>
      rcases loop.own s t inside own with leaves | ⟨inside', nearer⟩
      · exact ⟨[], t, ⟨turns, rfl⟩, own, leaves⟩
      · rw [own] at enough
        refine go_on rfl inside' ?_
        simp only [if_true] at enough
        omega

end Worker

end DataService
