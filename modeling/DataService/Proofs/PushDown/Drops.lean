import DataService.Model.PushDown.Restate
import DataService.Proofs.Filter.Truth

/-!
# What a restated filter keeps

An earlier step that evaluates the restated filter may let rows through that the filter rejects, and
must not reject rows that the filter keeps. What can go wrong are the drops, the places where a
conjunction loses a part: without the part the conjunction holds more often, but below a negation
that makes the tree hold less often. `Filter.drops` lists the drops by the parity of the negations
on the way down to them.

`value_restate_of_drops` says what the drops decide: if an even number of negations stands over
every one of them, the restated filter never has a lower value; if an odd number does, it never has
a higher one; and without drops the values are the same. What was dropped inside a part that is
itself dropped leaves no trace, and does not count.
-/

set_option autoImplicit false

namespace DataService

/-- Two assignments of values to conditions, those on a row and those on what an earlier step has of
the row, that agree on every mapped field. -/
def FieldMap.Agrees (m : FieldMap) (outer upstream : Condition → Truth) : Prop :=
  ∀ (c : Condition) (target : String), m.target? c.field = some target →
    upstream { c with field := target } = outer c

namespace Filter

mutual

/-- The drops of a tree, each with whether the number of negated nodes from the root down to it, the
conjunction that loses the part included, is odd; `odd` is the parity above the tree. -/
def drops (m : FieldMap) (odd : Bool) : Filter → List Bool
  | ⟨_, _, _, some _⟩ => []
  | ⟨.or, negated, children, none⟩ => dropsOfKept m (odd ^^ negated) children
  | ⟨.and, negated, children, none⟩ => dropsOfParts m (odd ^^ negated) children
  | ⟨.none, negated, children, none⟩ => dropsOfParts m (odd ^^ negated) children

/-- The drops inside the children of a node. -/
def dropsOfKept (m : FieldMap) (odd : Bool) : List Filter → List Bool
  | [] => []
  | f :: fs => drops m odd f ++ dropsOfKept m odd fs

/-- The drops of a conjunction: one for each part that is lost, and those inside the others. -/
def dropsOfParts (m : FieldMap) (odd : Bool) : List Filter → List Bool
  | [] => []
  | f :: fs => (if (restate m f).isNone then [odd] else drops m odd f) ++ dropsOfParts m odd fs

end

/-- A node over survivors has the value of its operator on their values, negated as it is. -/
theorem value_promote {operator : Operator} {negated : Bool} {survivors : List Filter} {g : Filter}
    (h : promote operator negated survivors = some g) (v : Condition → Truth) :
    g.value v = (operator.combine (survivors.map (value v))).negateIf negated := by
  cases survivors with
  | nil => cases h
  | cons first rest =>
    cases rest with
    | nil =>
      have hvalue : (if first.isLeaf then { first with operator := .none } else first).value v =
          first.value v := by
        obtain ⟨operator', negated', children, condition⟩ := first
        cases condition <;> rfl
      simp only [promote, Option.some.injEq] at h
      rw [← h, value_negateIf, hvalue, List.map_singleton, Operator.combine_singleton]
    | cons second others =>
      simp only [promote, Option.some.injEq] at h
      rw [← h, value, valueAll_eq_map]

section Order

variable {m : FieldMap} {outer upstream : Condition → Truth} {sign : Bool}

mutual

/-- If all drops of a tree have one sign, its value and that of the restated tree are in the order
that this sign means at the root. -/
theorem inOrder_restate (agree : m.Agrees outer upstream) (odd : Bool) :
    (t : Filter) → {g : Filter} → (∀ d ∈ drops m odd t, d = sign) → restate m t = some g →
      Truth.InOrder (sign ^^ odd) (t.value outer) (g.value upstream)
  | ⟨operator, negated, children, some condition⟩, g, _, h => by
    rw [restate, Option.map_eq_some_iff] at h
    obtain ⟨target, htarget, rfl⟩ := h
    rw [value, value, agree condition target htarget]
    exact .refl _ _
  | ⟨.or, negated, children, none⟩, g, hdrops, h => by
    rw [restate, Option.bind_eq_some_iff] at h
    obtain ⟨survivors, hsurvivors, hg⟩ := h
    rw [drops] at hdrops
    rw [value, value_promote hg]
    have hbody := inOrder_kept agree (odd ^^ negated) children hdrops hsurvivors
    rw [← Bool.xor_assoc] at hbody
    exact hbody.negateIf
  | ⟨.and, negated, children, none⟩, g, hdrops, h => by
    rw [restate] at h
    rw [drops] at hdrops
    rw [value, value_promote h]
    have hbody := inOrder_parts agree (odd ^^ negated) children hdrops
    rw [← Bool.xor_assoc] at hbody
    exact hbody.negateIf
  | ⟨.none, negated, children, none⟩, g, hdrops, h => by
    rw [restate] at h
    rw [drops] at hdrops
    rw [value, value_promote h]
    have hbody := inOrder_parts agree (odd ^^ negated) children hdrops
    rw [← Bool.xor_assoc] at hbody
    exact hbody.negateIf

/-- A disjunction all of whose children are left keeps the order of its children. -/
theorem inOrder_kept (agree : m.Agrees outer upstream) (odd : Bool) :
    (children : List Filter) → {survivors : List Filter} →
      (∀ d ∈ dropsOfKept m odd children, d = sign) →
      allPresent (restateAll m children) = some survivors →
      Truth.InOrder (sign ^^ odd) (Operator.or.combine (valueAll outer children))
        (Operator.or.combine (survivors.map (value upstream)))
  | [], survivors, _, h => by
    rw [restateAll, allPresent, Option.some.injEq] at h
    rw [← h]
    exact .refl _ _
  | f :: fs, survivors, hdrops, h => by
    rw [dropsOfKept] at hdrops
    rw [restateAll] at h
    cases hf : restate m f with
    | none => simp [hf, allPresent] at h
    | some g =>
      rw [hf, allPresent, Option.map_eq_some_iff] at h
      obtain ⟨gs, hgs, rfl⟩ := h
      have hhead := inOrder_restate agree odd f
        (fun d hd => hdrops d (List.mem_append_left _ hd)) hf
      have htail := inOrder_kept agree odd fs
        (fun d hd => hdrops d (List.mem_append_right _ hd)) hgs
      exact hhead.greatest htail

/-- A conjunction keeps the order of the children that are left. One that it loses made it lower, so
without it the order can only be ascending, which is the order that the drop means here. -/
theorem inOrder_parts (agree : m.Agrees outer upstream) (odd : Bool) :
    (children : List Filter) → (∀ d ∈ dropsOfParts m odd children, d = sign) →
      Truth.InOrder (sign ^^ odd) (Operator.and.combine (valueAll outer children))
        (Operator.and.combine (((restateAll m children).filterMap id).map (value upstream)))
  | [], _ => .refl _ _
  | f :: fs, hdrops => by
    rw [dropsOfParts] at hdrops
    have htail := inOrder_parts agree odd fs
      (fun d hd => hdrops d (List.mem_append_right _ hd))
    cases hf : restate m f with
    | none =>
      obtain rfl : odd = sign := hdrops odd (by simp [hf])
      rw [Bool.xor_self] at htail ⊢
      rw [restateAll, hf]
      exact le_trans (min_le_right _ _) htail
    | some g =>
      have hhead := inOrder_restate agree odd f
        (fun d hd => hdrops d (List.mem_append_left _ (by simpa [hf] using hd))) hf
      rw [restateAll, hf]
      exact hhead.least htail

end

end Order

/-- **What the drops decide.** Where an even number of negated nodes leads down to every drop, the
restated filter has no lower value than the filter; where an odd number leads to every drop, it has
no higher one; and where nothing is dropped the values are the same. -/
theorem value_restate_of_drops {m : FieldMap} {t g : Filter} (h : restate m t = some g)
    {outer upstream : Condition → Truth} (agree : m.Agrees outer upstream) :
    ((∀ odd ∈ drops m false t, odd = false) → t.value outer ≤ g.value upstream) ∧
    ((∀ odd ∈ drops m false t, odd = true) → g.value upstream ≤ t.value outer) ∧
    (drops m false t = [] → g.value upstream = t.value outer) := by
  have ascending : (∀ odd ∈ drops m false t, odd = false) → t.value outer ≤ g.value upstream :=
    fun hdrops => inOrder_restate agree false t hdrops h
  have descending : (∀ odd ∈ drops m false t, odd = true) → g.value upstream ≤ t.value outer :=
    fun hdrops => inOrder_restate agree false t hdrops h
  refine ⟨ascending, descending, ?_⟩
  intro hnone
  apply le_antisymm
  · exact descending (by simp [hnone])
  · exact ascending (by simp [hnone])

/-- Below two negations a lost part widens what is left. -/
theorem value_restate_le_below_two_negations :
    (anyOf [equals "a" (.integer 1), (allOf [equals "b" (.integer 2),
      (allOf [equals "c" (.integer 3), equals "z" (.integer 4)]).negate]).negate]).value
        (fun c => if c.field = "a" ∨ c.field = "z" then .no else .yes) ≤
    (anyOf [equals "x" (.integer 1), (allOf [equals "y" (.integer 2),
      (equals "w" (.integer 3)).negate]).negate]).value
        (fun c => if c.field = "x" then .no else .yes) := by
  let m := ((FieldMap.empty.insert "a" "x").insert "b" "y").insert "c" "w"
  have agree : m.Agrees (fun c => if c.field = "a" ∨ c.field = "z" then .no else .yes)
      (fun c => if c.field = "x" then .no else .yes) := by
    intro c target h
    simp only [m, FieldMap.target?_insert, FieldMap.target?_empty] at h
    split at h
    · rename_i hc
      cases h
      simp [hc]
    · split at h
      · rename_i hb
        cases h
        simp [hb]
      · split at h
        · rename_i ha
          cases h
          simp [ha]
        · cases h
  exact (value_restate_of_drops (m := m) rfl agree).1 (by decide)

end Filter

end DataService
