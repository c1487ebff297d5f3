import DataService.Proofs.Deployment.Populations

/-!
# What waiters do when they are informed

A waiter is a tree, but what it does is a list of calls: it announces the outcome under a tag, once
for itself and once for every waiter that it registers in turn, or it hands the outcome to a service
(`Waiter.calls`). Informing waiters makes their calls in this order (`informAll_eq_foldl`).

Of a deployment the calls change three things: the list of what was announced
(`announcements_informAll`), the results that wait to be deposited (`pending_informAll_ok`) and the
boards. A call takes off a board what its errand concerns, and nothing else
(`flight?_clearFlight_iff`).
-/

set_option autoImplicit false

namespace DataService

/-- One thing that a waiter does when it is informed. -/
inductive Call where
  | announce (tag : String)
  | deliver (errand : Delivery)

namespace Call

/-- The tag under which the outcome is announced. -/
def tag? : Call → Option String
  | .announce tag => some tag
  | .deliver _ => none

/-- The errand on which the outcome is handed to a service. -/
def errand? : Call → Option Delivery
  | .announce _ => none
  | .deliver errand => some errand

end Call

mutual

/-- What a waiter does, in order. -/
def Waiter.calls : Waiter → List Call
  | .announce tag further => .announce tag :: callsAll further
  | .deliver errand => [.deliver errand]

/-- What waiters do, one after the other. -/
def callsAll : List Waiter → List Call
  | [] => []
  | w :: ws => w.calls ++ callsAll ws

end

/-- The tags under which waiters announce the outcome. -/
def tagsAll (ws : List Waiter) : List String := (callsAll ws).filterMap Call.tag?

/-- The errands on which waiters hand the outcome to services. -/
def errandsAll (ws : List Waiter) : List Delivery := (callsAll ws).filterMap Call.errand?

/-- The errand is about a population in flight for a key on a board. -/
def Delivery.concerns (errand : Delivery) (board : BoardId) (key : CacheKey) (id : PopulationId) :
    Bool :=
  decide (errand.board = board ∧ errand.key = key ∧ errand.population = id)

/-- The first waiters do all that they do before the others begin. -/
theorem callsAll_append (ws ws' : List Waiter) :
    callsAll (ws ++ ws') = callsAll ws ++ callsAll ws' := by
  induction ws with
  | nil => rfl
  | cons w ws ih => rw [List.cons_append, callsAll, callsAll, ih, List.append_assoc]

/-- The first waiters announce before the others. -/
theorem tagsAll_append (ws ws' : List Waiter) : tagsAll (ws ++ ws') = tagsAll ws ++ tagsAll ws' := by
  rw [tagsAll, callsAll_append, List.filterMap_append]
  rfl

/-- The errands of the first waiters come before those of the others. -/
theorem errandsAll_append (ws ws' : List Waiter) :
    errandsAll (ws ++ ws') = errandsAll ws ++ errandsAll ws' := by
  rw [errandsAll, callsAll_append, List.filterMap_append]
  rfl

theorem errandsAll_deliver (errand : Delivery) : errandsAll [.deliver errand] = [errand] := rfl

/-- What an event announces, and the outcome. -/
def Event.announcement? : Event → Option (String × Outcome)
  | .resolved tag outcome => some (tag, outcome)
  | _ => none

namespace Deployment

variable {σ : Type}

/-- What has been announced, in order. -/
def announcements (d : Deployment σ) : List (String × Outcome) :=
  d.events.filterMap Event.announcement?

/-- The population that a board names as in flight for a key. -/
def flight? (d : Deployment σ) (board : BoardId) (key : CacheKey) : Option PopulationId :=
  (d.board board).get? key

/-! ## Boards -/

/-- A change of one board leaves every other one as it is. -/
theorem board_modifyBoard (d : Deployment σ) (id : BoardId) (f : Board → Board) (j : BoardId) :
    (d.modifyBoard id f).board j = if j = id then f (d.board id) else d.board j := by
  unfold board modifyBoard
  rw [Table.get?_put]
  by_cases same : j = id
  · rw [if_pos (beq_iff_eq.2 same), if_pos same]
    rfl
  · rw [if_neg (mt beq_iff_eq.1 same), if_neg same]

/-- What is in flight on a board depends on no other board. -/
theorem flight?_modifyBoard_of_ne (d : Deployment σ) {id j : BoardId} (h : j ≠ id)
    (f : Board → Board) (key : CacheKey) :
    (d.modifyBoard id f).flight? j key = d.flight? j key := by
  unfold flight?
  rw [board_modifyBoard, if_neg h]

/-- A population that gives up its key leaves every other entry, even one of a later population
under the same key. -/
theorem get?_erase_own_iff (b : Board) (key : CacheKey) (id : PopulationId) (key' : CacheKey)
    (id' : PopulationId) :
    (if b.get? key = some id then b.erase key else b).get? key' = some id' ↔
      b.get? key' = some id' ∧ ¬(key = key' ∧ id = id') := by
  by_cases own : b.get? key = some id
  · rw [if_pos own, Table.get?_erase]
    by_cases same : key' = key
    · rw [if_pos (beq_iff_eq.2 same), same, own]
      simp
    · rw [if_neg (mt beq_iff_eq.1 same)]
      refine (and_iff_left_of_imp ?_).symm
      rintro - ⟨at_key, -⟩
      exact same at_key.symm
  · rw [if_neg own]
    refine (and_iff_left_of_imp ?_).symm
    rintro entry ⟨rfl, rfl⟩
    exact own entry

/-- Taking a population off its board removes what the errand concerns, and nothing else. -/
theorem flight?_clearFlight_iff (d : Deployment σ) (errand : Delivery) (board : BoardId)
    (key : CacheKey) (id : PopulationId) :
    (d.clearFlight errand).flight? board key = some id ↔
      d.flight? board key = some id ∧ errand.concerns board key id = false := by
  have concerns : errand.concerns board key id = false ↔
      ¬(errand.board = board ∧ errand.key = key ∧ errand.population = id) := decide_eq_false_iff_not
  have cleared : (d.clearFlight errand).flight? board key =
      (d.modifyBoard errand.board fun b =>
        if b.get? errand.key = some errand.population then b.erase errand.key else b).flight?
          board key := rfl
  rw [cleared, concerns]
  by_cases same : board = errand.board
  · unfold flight?
    rw [board_modifyBoard, if_pos same, get?_erase_own_iff, same]
    simp only [true_and]
  · rw [flight?_modifyBoard_of_ne d same]
    refine (and_iff_left_of_imp ?_).symm
    rintro - ⟨here, -⟩
    exact same here.symm

/-! ## Calls -/

/-- Makes a call with an outcome. -/
def serve (outcome : Outcome) (d : Deployment σ) : Call → Deployment σ
  | .announce tag => d.log (.resolved tag outcome)
  | .deliver errand => d.receive errand outcome

mutual

/-- A waiter is served call by call. -/
theorem inform_eq_foldl (outcome : Outcome) (w : Waiter) (d : Deployment σ) :
    inform outcome w d = w.calls.foldl (serve outcome) d :=
  match w with
  | .announce tag further => by
    rw [inform, informAll_eq_foldl outcome further, Waiter.calls, List.foldl_cons]
    rfl
  | .deliver errand => by
    rw [inform, Waiter.calls]
    rfl

/-- Informing waiters makes their calls in their order. -/
theorem informAll_eq_foldl (outcome : Outcome) (ws : List Waiter) (d : Deployment σ) :
    informAll outcome ws d = (callsAll ws).foldl (serve outcome) d :=
  match ws with
  | [] => by
    rw [informAll, callsAll]
    rfl
  | w :: rest => by
    rw [informAll, informAll_eq_foldl outcome rest, inform_eq_foldl outcome w, callsAll,
      List.foldl_append]

end

/-- Informing waiters makes nothing that needs a serial number. -/
theorem serial_informAll (outcome : Outcome) (ws : List Waiter) (d : Deployment σ) :
    (informAll outcome ws d).serial = d.serial := by
  rw [informAll_eq_foldl]
  induction callsAll ws generalizing d with
  | nil => rfl
  | cons call calls ih =>
    rw [List.foldl_cons, ih]
    cases call with
    | announce tag => rfl
    | deliver errand => cases outcome <;> rfl

/-- Informed waiters announce the outcome under each of their tags, in order, and nothing else of
theirs can be seen from outside. -/
theorem events_informAll (outcome : Outcome) (ws : List Waiter) (d : Deployment σ) :
    (informAll outcome ws d).events =
      d.events ++ (tagsAll ws).map fun tag => .resolved tag outcome := by
  rw [informAll_eq_foldl]
  unfold tagsAll
  induction callsAll ws generalizing d with
  | nil => exact (List.append_nil _).symm
  | cons call calls ih =>
    rw [List.foldl_cons, ih]
    cases call with
    | announce tag =>
      have now : (serve outcome d (.announce tag)).events = d.events ++ [.resolved tag outcome] :=
        rfl
      rw [now, List.filterMap_cons, List.append_assoc]
      rfl
    | deliver errand =>
      have silent : (serve outcome d (.deliver errand)).events = d.events := by
        cases outcome <;> rfl
      rw [silent]
      rfl

/-- Informed waiters announce the outcome under their tags, in order. -/
theorem announcements_informAll (outcome : Outcome) (ws : List Waiter) (d : Deployment σ) :
    (informAll outcome ws d).announcements =
      d.announcements ++ (tagsAll ws).map fun tag => (tag, outcome) := by
  have announced : (((tagsAll ws).map fun tag => Event.resolved tag outcome).filterMap
      Event.announcement?) = (tagsAll ws).map fun tag => (tag, outcome) := by
    rw [List.filterMap_map, ← List.filterMap_eq_map]
    rfl
  unfold announcements
  rw [events_informAll, List.filterMap_append, announced]

/-- A result waits to be deposited once for each errand. -/
theorem pending_informAll_ok (result : CachedResult) (ws : List Waiter) (d : Deployment σ) :
    (informAll (.ok result) ws d).pending =
      d.pending ++ (errandsAll ws).map fun errand => (errand, result) := by
  rw [informAll_eq_foldl]
  unfold errandsAll
  induction callsAll ws generalizing d with
  | nil => exact (List.append_nil _).symm
  | cons call calls ih =>
    rw [List.foldl_cons, ih]
    cases call with
    | announce tag => rfl
    | deliver errand =>
      have lined_up : (serve (.ok result) d (.deliver errand)).pending =
          d.pending ++ [(errand, result)] := rfl
      rw [lined_up, List.append_assoc]
      rfl

/-- A failure leaves nothing to deposit. -/
theorem pending_informAll_error (failure : Failure) (ws : List Waiter) (d : Deployment σ) :
    (informAll (.error failure) ws d).pending = d.pending := by
  rw [informAll_eq_foldl]
  induction callsAll ws generalizing d with
  | nil => rfl
  | cons call calls ih =>
    rw [List.foldl_cons, ih]
    cases call <;> rfl

end Deployment

end DataService
