/-!
# Keyed tables

A `Table κ ν` holds at most one value per key and remembers the order in which the keys first
came in. Writing to a key that is present replaces its value where it stands; writing to a new
key appends. The view of a table is `get?`; the lemmas below say what each operation does to it,
and nothing outside this file looks at `entries` to answer a question that `get?` can answer.
-/

set_option autoImplicit false

namespace DataService

universe u v

/-- Values under keys, the oldest key first. -/
structure Table (κ : Type u) (ν : Type v) where
  /-- The entries, oldest key first. -/
  entries : List (κ × ν) := []

namespace Table

variable {κ : Type u} {ν : Type v}

/-- The table without entries. -/
def empty : Table κ ν := {}

instance : Inhabited (Table κ ν) := ⟨empty⟩

/-- The keys, oldest first. -/
def keys (t : Table κ ν) : List κ := t.entries.map (·.1)

/-- The values, in the order of their keys. -/
def values (t : Table κ ν) : List ν := t.entries.map (·.2)

/-- The number of entries. -/
def size (t : Table κ ν) : Nat := t.entries.length

/-- The sum of a measure over all values. -/
def total (g : ν → Nat) (t : Table κ ν) : Nat := t.entries.foldr (fun e n => g e.2 + n) 0

section

variable [BEq κ]

/-- The value under a key. -/
def get? (t : Table κ ν) (k : κ) : Option ν := t.entries.lookup k

/-- Whether the key has a value. -/
def contains (t : Table κ ν) (k : κ) : Bool := (t.get? k).isSome

/-- Writes a value under a key into a list of entries. -/
def putEntry (k : κ) (v : ν) : List (κ × ν) → List (κ × ν)
  | [] => [(k, v)]
  | (k', v') :: rest => if k == k' then (k', v) :: rest else (k', v') :: putEntry k v rest

/-- Writes a value under a key: in place when the key is present, at the end otherwise. -/
def put (t : Table κ ν) (k : κ) (v : ν) : Table κ ν := ⟨putEntry k v t.entries⟩

/-- Removes a key and its value. -/
def erase (t : Table κ ν) (k : κ) : Table κ ν := ⟨t.entries.filter fun e => !(k == e.1)⟩

/-- Changes the value under a key, if there is one. -/
def modify (t : Table κ ν) (k : κ) (f : ν → ν) : Table κ ν :=
  ⟨t.entries.map fun e => if k == e.1 then (e.1, f e.2) else e⟩

/-- The table that results from writing the pairs one after the other: for a key that comes
twice the later value stands. -/
def ofList (pairs : List (κ × ν)) : Table κ ν :=
  pairs.foldl (fun t p => t.put p.1 p.2) empty

end

section Lemmas

variable [BEq κ] [LawfulBEq κ]

omit [LawfulBEq κ] in
@[simp] theorem get?_empty (k : κ) : (empty : Table κ ν).get? k = none := rfl

/-- An entry that is put in changes what is under its own key only. -/
private theorem lookup_putEntry (k j : κ) (v : ν) (es : List (κ × ν)) :
    (putEntry k v es).lookup j = if j == k then some v else es.lookup j := by
  induction es with
  | nil => by_cases h : j == k <;> simp [putEntry, List.lookup_cons, h]
  | cons e rest ih =>
    obtain ⟨k', v'⟩ := e
    by_cases hk : k == k'
    · have := eq_of_beq hk; subst this
      by_cases hj : j == k <;> simp [putEntry, List.lookup_cons, hj]
    · by_cases hj : j == k'
      · have := eq_of_beq hj; subst this
        have : (j == k) = false := by
          simp only [beq_eq_false_iff_ne, ne_eq]; rintro rfl; simp at hk
        simp [putEntry, hk, this]
      · simp [putEntry, List.lookup_cons, hk, hj, ih]

/-- After a write the key reads the new value and every other key what it read before. -/
theorem get?_put (t : Table κ ν) (k j : κ) (v : ν) :
    (t.put k v).get? j = if j == k then some v else t.get? j :=
  lookup_putEntry k j v t.entries

/-- What was put in under a key is found there. -/
@[simp] theorem get?_put_self (t : Table κ ν) (k : κ) (v : ν) : (t.put k v).get? k = some v := by
  simp [get?_put]

/-- Putting something in changes nothing under another key. -/
theorem get?_put_of_ne (t : Table κ ν) {k j : κ} (v : ν) (h : j ≠ k) :
    (t.put k v).get? j = t.get? j := by
  simp [get?_put, h]

/-- Without the entries of a key nothing is found under it, and all else is found as before. -/
private theorem lookup_filter_ne (k j : κ) (es : List (κ × ν)) :
    (es.filter fun e => !(k == e.1)).lookup j = if j == k then none else es.lookup j := by
  induction es with
  | nil => simp [List.lookup_nil]
  | cons e rest ih =>
    obtain ⟨k', v'⟩ := e
    by_cases hk : k == k'
    · have := eq_of_beq hk; subst this
      by_cases hj : j == k <;> simp [List.lookup_cons, hj, ih]
    · by_cases hj : j == k'
      · have := eq_of_beq hj; subst this
        have : (j == k) = false := by
          simp only [beq_eq_false_iff_ne, ne_eq]; rintro rfl; simp at hk
        simp [hk, this]
      · simp [List.lookup_cons, hk, hj, ih]

/-- After a removal the key reads nothing and every other key what it read before. -/
theorem get?_erase (t : Table κ ν) (k j : κ) :
    (t.erase k).get? j = if j == k then none else t.get? j :=
  lookup_filter_ne k j t.entries

/-- Nothing is found under a key that was erased. -/
@[simp] theorem get?_erase_self (t : Table κ ν) (k : κ) : (t.erase k).get? k = none := by
  simp [get?_erase]

/-- A change of what is under one key is seen under that key only. -/
private theorem lookup_map_modify (k j : κ) (f : ν → ν) (es : List (κ × ν)) :
    (es.map fun e => if k == e.1 then (e.1, f e.2) else e).lookup j =
      if j == k then (es.lookup j).map f else es.lookup j := by
  induction es with
  | nil => simp [List.lookup_nil]
  | cons e rest ih =>
    obtain ⟨k', v'⟩ := e
    by_cases hk : k == k'
    · have := eq_of_beq hk; subst this
      by_cases hj : j == k <;> simp [List.lookup_cons, hj, ih]
    · by_cases hj : j == k'
      · have := eq_of_beq hj; subst this
        have : (j == k) = false := by
          simp only [beq_eq_false_iff_ne, ne_eq]; rintro rfl; simp at hk
        simp [hk, this]
      · simp [List.lookup_cons, hk, hj, ih]

/-- The keys of a table are those that have a value. -/
theorem contains_iff_mem_keys (t : Table κ ν) (k : κ) : t.contains k = true ↔ k ∈ t.keys := by
  obtain ⟨es⟩ := t
  unfold contains get? keys
  induction es with
  | nil => simp
  | cons e rest ih =>
    obtain ⟨k', v'⟩ := e
    by_cases hk : k == k'
    · have := eq_of_beq hk; subst this
      simp
    · have : k ≠ k' := by rintro rfl; simp at hk
      simp [List.lookup_cons, hk, this, ih]

/-- A write to a key that is present moves no key. -/
theorem keys_put_of_mem (t : Table κ ν) {k : κ} (v : ν) (h : k ∈ t.keys) :
    (t.put k v).keys = t.keys := by
  obtain ⟨es⟩ := t
  unfold keys put at *
  induction es with
  | nil => simp at h
  | cons e rest ih =>
    obtain ⟨k', v'⟩ := e
    by_cases hk : k == k'
    · simp [putEntry, hk]
    · have : k ≠ k' := by rintro rfl; simp at hk
      simp only [List.map_cons, List.mem_cons, this, false_or] at h
      simp [putEntry, hk, ih h]

omit [LawfulBEq κ] in
/-- A removal keeps the other keys in their order. -/
theorem keys_erase (t : Table κ ν) (k : κ) :
    (t.erase k).keys = t.keys.filter fun j => !(k == j) := by
  unfold keys erase
  rw [List.filter_map]
  rfl

/-- A removal of a key that is absent changes nothing. -/
theorem erase_of_notMem {t : Table κ ν} {k : κ} (absent : k ∉ t.keys) : t.erase k = t := by
  unfold erase
  congr 1
  refine List.filter_eq_self.2 fun e among => ?_
  have other : k ≠ e.1 := by
    rintro rfl
    exact absent (List.mem_map.2 ⟨e, among, rfl⟩)
  simp [other]

/-- A key that was absent is taken back by a removal. -/
theorem erase_put_of_none {t : Table κ ν} {k : κ} (absent : t.get? k = none) (v : ν) :
    (t.put k v).erase k = t := by
  obtain ⟨es⟩ := t
  unfold get? at absent
  unfold put erase
  congr 1
  induction es with
  | nil => simp [putEntry]
  | cons e rest ih =>
    obtain ⟨k', v'⟩ := e
    by_cases hk : k == k'
    · simp [List.lookup_cons, hk] at absent
    · simp only [List.lookup_cons, hk] at absent
      simpa [putEntry, hk] using ih absent

omit [LawfulBEq κ] in
/-- A value that was written over is written back where it stood. -/
theorem put_put_of_some {t : Table κ ν} {k : κ} {v : ν} (present : t.get? k = some v) (w : ν) :
    (t.put k w).put k v = t := by
  obtain ⟨es⟩ := t
  unfold get? at present
  unfold put
  congr 1
  induction es with
  | nil => cases present
  | cons e rest ih =>
    obtain ⟨k', v'⟩ := e
    by_cases hk : k == k'
    · simp only [List.lookup_cons, hk, Option.some.injEq] at present
      simp [putEntry, hk, present]
    · simp only [List.lookup_cons, hk] at present
      simpa [putEntry, hk] using ih present

/-- A change reaches the value under its key and no other. -/
theorem get?_modify (t : Table κ ν) (k j : κ) (f : ν → ν) :
    (t.modify k f).get? j = if j == k then (t.get? j).map f else t.get? j :=
  lookup_map_modify k j f t.entries

omit [LawfulBEq κ] in
/-- A change moves no key. -/
@[simp] theorem keys_modify (t : Table κ ν) (k : κ) (f : ν → ν) : (t.modify k f).keys = t.keys := by
  simp only [keys, modify, List.map_map]
  apply List.map_congr_left
  intro e _
  by_cases h : k == e.1 <;> simp [h]

omit [BEq κ] [LawfulBEq κ] in
/-- The first entry of a table counts towards its total. -/
private theorem total_cons (g : ν → Nat) (e : κ × ν) (es : List (κ × ν)) :
    total g ⟨e :: es⟩ = g e.2 + total g ⟨es⟩ := rfl

omit [LawfulBEq κ] in
/-- A table is modified entry by entry. -/
private theorem modify_cons (k : κ) (f : ν → ν) (e : κ × ν) (es : List (κ × ν)) :
    (modify ⟨e :: es⟩ k f : Table κ ν) =
      ⟨(if k == e.1 then (e.1, f e.2) else e) :: (modify ⟨es⟩ k f : Table κ ν).entries⟩ := rfl

omit [LawfulBEq κ] in
/-- A change that keeps the measure of every value keeps the total. -/
theorem total_modify_eq (g : ν → Nat) (t : Table κ ν) (k : κ) (f : ν → ν)
    (h : ∀ v, g (f v) = g v) : (t.modify k f).total g = t.total g := by
  obtain ⟨es⟩ := t
  induction es with
  | nil => rfl
  | cons e rest ih =>
    have ih' : total g ⟨(modify ⟨rest⟩ k f : Table κ ν).entries⟩ = total g ⟨rest⟩ := ih
    rw [modify_cons, total_cons, total_cons, ih']
    by_cases hk : k == e.1 <;> simp [hk, h]

omit [LawfulBEq κ] in
/-- A change that raises the measure of no value does not raise the total. -/
theorem total_modify_le (g : ν → Nat) (t : Table κ ν) (k : κ) (f : ν → ν)
    (h : ∀ v, g (f v) ≤ g v) : (t.modify k f).total g ≤ t.total g := by
  obtain ⟨es⟩ := t
  induction es with
  | nil => exact Nat.le_refl _
  | cons e rest ih =>
    have ih' : total g ⟨(modify ⟨rest⟩ k f : Table κ ν).entries⟩ ≤ total g ⟨rest⟩ := ih
    rw [modify_cons, total_cons, total_cons]
    have := h e.2
    by_cases hk : k == e.1 <;> simp only [hk, if_true] <;> simp <;> omega

omit [LawfulBEq κ] in
/-- A change that raises the measure of no value and lowers it for the one under the key lowers the
total. -/
theorem total_modify_lt (g : ν → Nat) (t : Table κ ν) (k : κ) (f : ν → ν)
    (h : ∀ v, g (f v) ≤ g v) {v : ν} (hk : t.get? k = some v) (hv : g (f v) < g v) :
    (t.modify k f).total g < t.total g := by
  obtain ⟨es⟩ := t
  induction es with
  | nil => simp [get?] at hk
  | cons e rest ih =>
    rw [modify_cons, total_cons, total_cons]
    by_cases hke : k == e.1
    · have hev : e.2 = v := by
        obtain ⟨j, w⟩ := e
        simpa [get?, List.lookup_cons, hke] using hk
      have hle : total g ⟨(modify ⟨rest⟩ k f : Table κ ν).entries⟩ ≤ total g ⟨rest⟩ :=
        total_modify_le g ⟨rest⟩ k f h
      rw [← hev] at hv
      simp only [hke, if_true]
      omega
    · have hk' : (⟨rest⟩ : Table κ ν).get? k = some v := by
        obtain ⟨j, w⟩ := e
        simpa [get?, List.lookup_cons, hke] using hk
      have hlt : total g ⟨(modify ⟨rest⟩ k f : Table κ ν).entries⟩ < total g ⟨rest⟩ := ih hk'
      simp only [hke]
      simp
      omega

omit [LawfulBEq κ] in
/-- A write adds the measure of the new value in the place of that of the old one. -/
theorem total_put (g : ν → Nat) (t : Table κ ν) (k : κ) (v : ν) :
    (t.put k v).total g + ((t.get? k).map g).getD 0 = t.total g + g v := by
  obtain ⟨es⟩ := t
  induction es with
  | nil => simp [put, putEntry, get?, total]
  | cons e rest ih =>
    have ih' : total g ⟨putEntry k v rest⟩ + ((rest.lookup k).map g).getD 0 =
        total g ⟨rest⟩ + g v := ih
    obtain ⟨k', v'⟩ := e
    by_cases hk : k == k'
    · simp only [put, putEntry, get?, List.lookup_cons, hk, if_true, total_cons, Option.map_some,
        Option.getD_some]
      omega
    · simp only [put, putEntry, get?, List.lookup_cons, hk, total_cons]
      simp only [Bool.false_eq_true, if_false, total_cons]
      omega

/-- A removal takes the measure of the value away. -/
theorem total_erase (g : ν → Nat) {t : Table κ ν} (nodup : t.keys.Nodup) (k : κ) :
    (t.erase k).total g + ((t.get? k).map g).getD 0 = t.total g := by
  obtain ⟨es⟩ := t
  induction es with
  | nil => rfl
  | cons e rest ih =>
    obtain ⟨fresh, nodup'⟩ := List.nodup_cons.1 nodup
    have ih' : total g ⟨rest.filter fun e => !(k == e.1)⟩ + ((rest.lookup k).map g).getD 0 =
        total g ⟨rest⟩ := ih nodup'
    obtain ⟨k', v'⟩ := e
    by_cases hk : k == k'
    · have := eq_of_beq hk; subst this
      have others : rest.filter (fun e => !(k == e.1)) = rest :=
        congrArg entries (erase_of_notMem (t := ⟨rest⟩) fresh)
      simp only [erase, get?, List.lookup_cons, List.filter_cons, hk, Bool.not_true,
        Bool.false_eq_true, if_false, others, total_cons, Option.map_some, Option.getD_some]
      omega
    · simp only [erase, get?, List.lookup_cons, List.filter_cons, hk, Bool.not_false, if_true,
        total_cons]
      omega

/-- A change takes the measure of the value away and adds that of the changed one. -/
theorem total_modify (g : ν → Nat) {t : Table κ ν} (nodup : t.keys.Nodup) (k : κ) (f : ν → ν) :
    (t.modify k f).total g + ((t.get? k).map g).getD 0 =
      t.total g + (((t.get? k).map f).map g).getD 0 := by
  obtain ⟨es⟩ := t
  induction es with
  | nil => rfl
  | cons e rest ih =>
    obtain ⟨fresh, nodup'⟩ := List.nodup_cons.1 nodup
    have ih' : total g ⟨(modify ⟨rest⟩ k f : Table κ ν).entries⟩ + ((rest.lookup k).map g).getD 0 =
        total g ⟨rest⟩ + (((rest.lookup k).map f).map g).getD 0 := ih nodup'
    obtain ⟨k', v'⟩ := e
    by_cases hk : k == k'
    · have := eq_of_beq hk; subst this
      have absent : rest.lookup k = none := by
        rw [← Option.not_isSome_iff_eq_none]
        exact mt (contains_iff_mem_keys ⟨rest⟩ k).1 fresh
      simp only [absent, Option.map_none, Option.getD_none] at ih'
      simp only [modify_cons, get?, List.lookup_cons, hk, if_true, total_cons, Option.map_some,
        Option.getD_some]
      omega
    · simp only [modify_cons, get?, List.lookup_cons, hk, total_cons]
      simp only [Bool.false_eq_true, if_false]
      omega

/-- A write to a table with one value per key leaves it one. -/
theorem nodup_keys_put {t : Table κ ν} (nodup : t.keys.Nodup) (k : κ) (v : ν) :
    (t.put k v).keys.Nodup := by
  by_cases present : k ∈ t.keys
  · rw [t.keys_put_of_mem v present]
    exact nodup
  · have keys_eq : (t.put k v).keys = t.keys ++ [k] := by
      obtain ⟨es⟩ := t
      unfold keys put at *
      clear nodup
      induction es with
      | nil => rfl
      | cons e rest ih =>
        obtain ⟨k', v'⟩ := e
        simp only [List.map_cons, List.mem_cons, not_or] at present
        simp [putEntry, present.1, ih present.2]
    rw [keys_eq, List.nodup_append]
    refine ⟨nodup, List.pairwise_singleton _ k, ?_⟩
    rintro j among _ last rfl
    rw [List.mem_singleton.1 last] at among
    exact present among

end Lemmas

end Table

end DataService
