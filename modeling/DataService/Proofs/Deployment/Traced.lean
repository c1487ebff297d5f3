import DataService.Proofs.Deployment.Errands
import Mathlib.Data.List.Nodup

/-!
# Who waits for a population

A record of undertakings is complete (`Traced`) if each population was undertaken once, the errands of
all undertakings are at one of their places, and no errand is under way but theirs. Moves keep it
complete as it is (`Traced.moves`), and an operation does with what the operation undertakes
(`Traced.apply`), so that it is complete for every course of operations (`traced_after`).

From this it is known who waits for a population that is unresolved: the service that undertook it,
once, and no other service (`Traced.errands_eq`).
-/

set_option autoImplicit false

namespace DataService.Deployment

variable {σ : Type} {d d' : Deployment σ} {errand : Delivery} {id : PopulationId} {p : Population}
  {us : List Undertaking}

/-- Where an errand is, there is no other one after its population. -/
theorem OnErrand.eq_of_underWay (on : d.OnErrand errand) (kept : d.WellKept) {other : Delivery}
    (under_way : d.UnderWay [] other) (about : other.population = errand.population) :
    other = errand := by
  cases under_way with
  | carries member => cases member
  | @waits p there member =>
    -- resolved populations have no waiters
    have none_left (resolved : p.outcome ≠ none) : False := by
      rw [(kept.consistent _ p there).served resolved] at member
      cases member
    rw [about] at there
    cases on with
    | waits here _ alone =>
      obtain rfl := Option.some.inj (here.symm.trans there)
      rw [alone] at member
      exact List.mem_singleton.1 member
    | pends here ended =>
      obtain rfl := Option.some.inj (here.symm.trans there)
      exact (none_left (by rw [ended]; exact Option.some_ne_none _)).elim
    | done here resolved =>
      obtain rfl := Option.some.inj (here.symm.trans there)
      exact (none_left resolved).elim
  | @pends result member =>
    have waits : (other, result) ∈ d.waitingFor errand.population :=
      List.mem_filter.2 ⟨member, decide_eq_true about⟩
    cases on with
    | waits _ _ _ none_waits =>
      rw [none_waits] at waits
      cases waits
    | done _ _ none_waits =>
      rw [none_waits] at waits
      cases waits
    | pends _ _ once =>
      rw [once] at waits
      exact congrArg Prod.fst (List.mem_singleton.1 waits)

/-- The undertakings are those whose populations are there, and whose errands are under way. -/
structure Traced (d : Deployment σ) (us : List Undertaking) : Prop where
  kept : d.WellKept
  once : (us.map (·.population)).Nodup
  on : ∀ u ∈ us, ∃ key, d.OnErrand (u.errand key)
  sent : ∀ errand, d.UnderWay [] errand → ∃ u ∈ us, ∃ key, errand = u.errand key

theorem traced_empty : ({} : Deployment σ).Traced [] := by
  refine ⟨wellKept_empty, List.nodup_nil, List.forall_mem_nil _, ?_⟩
  intro errand under_way
  cases under_way with
  | carries member => cases member
  | waits here => cases here
  | pends member => cases member

/-- A move starts no population, and sends no errand of its own. -/
theorem Traced.moves {reach : PopulationId → Prop} (traced : d.Traced us) (h : Moves reach d d') :
    d'.Traced us := by
  refine ⟨h.wellKept traced.kept, traced.once, ?_, ?_⟩
  · intro u among
    obtain ⟨key, on⟩ := traced.on u among
    exact ⟨key, h.onErrand traced.kept on⟩
  · intro errand under_way
    exact traced.sent errand (h.underWay_of traced.kept under_way)

/-- The population of an undertaking is there. -/
theorem Traced.exists_population? (traced : d.Traced us) {u : Undertaking} (among : u ∈ us) :
    ∃ p, d.population? u.population = some p := by
  obtain ⟨key, on⟩ := traced.on u among
  exact on.exists_population?

/-- The undertakings of one population are one at most. -/
theorem Traced.eq_of_population_eq (traced : d.Traced us) {u u' : Undertaking} (among : u ∈ us)
    (among' : u' ∈ us) (same : u.population = u'.population) : u = u' :=
  List.inj_on_of_nodup_map traced.once among among' same

/-- No two undertakings have started the same population. -/
theorem Traced.filter_eq_singleton (traced : d.Traced us) {u : Undertaking} (among : u ∈ us) :
    us.filter (fun u' => u'.population = u.population) = [u] := by
  have chosen := (List.Nodup.of_map _ traced.once).filter
    fun u' : Undertaking => decide (u'.population = u.population)
  refine List.perm_singleton.1 ((List.perm_ext_iff_of_nodup chosen (List.nodup_singleton u)).2 ?_)
  intro u'
  rw [List.mem_filter, List.mem_singleton, decide_eq_true_eq]
  constructor
  · rintro ⟨among', same⟩
    exact traced.eq_of_population_eq among' among same
  · rintro rfl
    exact ⟨among, rfl⟩

/-- **One service waits.** The errands that wait with an unresolved population are those of its
undertaking, by the service that undertook it. -/
theorem Traced.errands_eq (traced : d.Traced us) (here : d.population? id = some p)
    (unresolved : p.outcome = none) :
    (errandsAll p.waiters).map (·.service) =
      (us.filter fun u => u.population = id).map (·.service.name) := by
  by_cases undertaken : ∃ u ∈ us, u.population = id
  · obtain ⟨u, among, rfl⟩ := undertaken
    obtain ⟨key, on⟩ := traced.on u among
    rw [traced.filter_eq_singleton among]
    cases on with
    | waits there _ alone =>
      obtain rfl := Option.some.inj (here.symm.trans there)
      rw [alone]
      rfl
    | pends there ended =>
      obtain rfl := Option.some.inj (here.symm.trans there)
      rw [unresolved] at ended
      cases ended
    | done there resolved =>
      obtain rfl := Option.some.inj (here.symm.trans there)
      exact absurd unresolved resolved
  · have none_waits : errandsAll p.waiters = [] := by
      refine List.eq_nil_iff_forall_not_mem.2 fun errand waits => undertaken ?_
      have own := traced.kept.own id p here errand waits
      obtain ⟨u, among, key, rfl⟩ :=
        traced.sent errand (.waits (by rw [own]; exact here) waits)
      exact ⟨u, among, own⟩
    have none_undertook : us.filter (fun u => u.population = id) = [] :=
      List.filter_eq_nil_iff.2 fun u among same => undertaken ⟨u, among, of_decide_eq_true same⟩
    rw [none_waits, none_undertook]
    rfl

/-! ## Courses of operations -/

variable [ResultStore σ]

/-- An operation adds what it undertakes, if anything, to the undertakings before. -/
theorem Traced.apply (traced : d.Traced us) (op : Operation σ) :
    (d.apply op).Traced (us ++ (op.undertaken d).toList) := by
  have kept' := (d.apply_changes op).wellKept traced.kept
  refine ⟨kept', ?_, ?_, ?_⟩
  · rw [List.map_append, List.nodup_append]
    refine ⟨traced.once, ?_, ?_⟩
    · cases op.undertaken d with
      | none => exact List.nodup_nil
      | some u => exact List.nodup_singleton _
    · -- what is undertaken now was not there before
      rintro _ earlier _ now rfl
      obtain ⟨u, among, same⟩ := List.mem_map.1 earlier
      obtain ⟨u', undertaken, same'⟩ := List.mem_map.1 now
      obtain ⟨p, here⟩ := traced.exists_population? among
      have missing := population?_of_undertaken traced.kept (Option.mem_toList.1 undertaken)
      rw [same', ← same, here] at missing
      cases missing
  · intro u among
    rcases List.mem_append.1 among with earlier | now
    · obtain ⟨key, on⟩ := traced.on u earlier
      exact ⟨key, on.apply traced.kept op⟩
    · have undertaken := Option.mem_toList.1 now
      have recorded : u ∈ undertakings d [op] := List.mem_append_left _ now
      obtain ⟨p, -, began⟩ := began_after traced.kept recorded
      exact ⟨p.key, onErrand_of_undertaken traced.kept undertaken began.exact_key⟩
  · intro errand under_way
    rcases UnderWay.of_apply traced.kept under_way with before | ⟨u, undertaken, sent⟩
    · obtain ⟨u, among, key, same⟩ := traced.sent errand before
      exact ⟨u, List.mem_append_left _ among, key, same⟩
    · have on := onErrand_of_undertaken traced.kept undertaken sent.exact_key
      refine ⟨u, List.mem_append_right _ (Option.mem_toList.2 undertaken), errand.key, ?_⟩
      exact on.eq_of_underWay kept' under_way sent.population_eq

/-- After a course of operations, the undertakings are those before it and those in it. -/
theorem traced_after (traced : d.Traced us) (ops : List (Operation σ)) :
    (d.after ops).Traced (us ++ undertakings d ops) := by
  induction ops generalizing d us with
  | nil =>
    rw [undertakings, List.append_nil]
    exact traced
  | cons op ops ih =>
    rw [undertakings, ← List.append_assoc]
    exact ih (traced.apply op)

end DataService.Deployment
