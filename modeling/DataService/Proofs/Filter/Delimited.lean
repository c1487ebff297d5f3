import DataService.Model.Filter.CanonicalText
import Mathlib.Data.List.Basic

/-!
# Reading written parts off the front of a text

Canonical text is one list of characters, and what tells its parts apart again is where each of
them ends. A part is `Delimited` by what stands behind it when that is nothing or begins with a
character that continues neither a number nor a quotation. The lemmas here say that a name, a
quotation and a separated list can be read off the front of a text in one way only, whatever stands
behind them: two of them with their rests are the same text only if they and the rests are the same.
-/

set_option autoImplicit false

namespace DataService

/-- What may stand behind a written part: nothing, a closing parenthesis, a comma or a space. -/
def Delimited (rest : List Char) : Prop :=
  ∀ c, rest.head? = some c → c = ')' ∨ c = ',' ∨ c = ' '

theorem delimited_nil : Delimited [] := by
  intro c h
  cases h

theorem delimited_close (rest : List Char) : Delimited (')' :: rest) := by
  intro c h
  cases h
  exact .inl rfl

theorem delimited_comma (rest : List Char) : Delimited (',' :: rest) := by
  intro c h
  cases h
  exact .inr (.inl rfl)

theorem delimited_space (rest : List Char) : Delimited (' ' :: rest) := by
  intro c h
  cases h
  exact .inr (.inr rfl)

/-- A character that delimits nothing does not begin what stands behind a part. -/
theorem Delimited.head?_ne {rest : List Char} (h : Delimited rest) {c : Char} (hc : c ≠ ')')
    (hk : c ≠ ',') (hs : c ≠ ' ') : rest.head? ≠ some c := by
  intro he
  rcases h c he with rfl | rfl | rfl
  · exact hc rfl
  · exact hk rfl
  · exact hs rfl

/-- The longest front of a text within a class of characters is read off in one way. -/
theorem append_inj_of_class (p : Char → Bool) {xs ys r s : List Char} (hx : ∀ c ∈ xs, p c)
    (hy : ∀ c ∈ ys, p c) (hr : ∀ c, r.head? = some c → p c = false)
    (hs : ∀ c, s.head? = some c → p c = false) (h : xs ++ r = ys ++ s) : xs = ys ∧ r = s := by
  have front : ∀ {zs t : List Char}, (∀ c ∈ zs, p c) → (∀ c, t.head? = some c → p c = false) →
      (zs ++ t).takeWhile p = zs := by
    intro zs t hz ht
    rw [List.takeWhile_append_of_pos hz]
    cases t with
    | nil => simp
    | cons c t => simp [ht c rfl]
  have heq : xs = ys := by
    rw [← front hx hr, h, front hy hs]
  subst heq
  exact ⟨rfl, List.append_cancel_left h⟩

/-! ## Quotations -/

/-- The inside of a quotation, with the mark that ends it, is read off in one way, as long as
another mark does not follow: a mark inside is always doubled. -/
theorem doubled_append_inj (mark : Char) {a b r s : List Char} (hr : r.head? ≠ some mark)
    (hs : s.head? ≠ some mark)
    (h : a.flatMap (fun c => if c = mark then [mark, mark] else [c]) ++ mark :: r =
      b.flatMap (fun c => if c = mark then [mark, mark] else [c]) ++ mark :: s) :
    a = b ∧ r = s := by
  induction a generalizing b with
  | nil =>
    cases b with
    | nil => simpa using h
    | cons d b =>
      by_cases hd : d = mark
      · subst hd
        simp only [List.flatMap_nil, List.nil_append, List.flatMap_cons, if_true,
          List.cons_append, List.cons.injEq, true_and] at h
        exact absurd (by rw [h]; rfl) hr
      · simp only [List.flatMap_nil, List.nil_append, List.flatMap_cons, hd, if_false,
          List.cons_append, List.cons.injEq] at h
        exact absurd h.1.symm hd
  | cons c a ih =>
    cases b with
    | nil =>
      by_cases hc : c = mark
      · subst hc
        simp only [List.flatMap_nil, List.nil_append, List.flatMap_cons, if_true,
          List.cons_append, List.cons.injEq, true_and] at h
        exact absurd (by rw [← h]; rfl) hs
      · simp only [List.flatMap_nil, List.nil_append, List.flatMap_cons, hc, if_false,
          List.cons_append, List.cons.injEq] at h
        exact h.1.elim
    | cons d b =>
      have hcd : c = d := by
        by_cases hc : c = mark <;> by_cases hd : d = mark <;>
          simp_all [List.flatMap_cons]
      subst hcd
      have hrest := List.append_cancel_left
        (by simpa only [List.flatMap_cons, List.append_assoc] using h)
      obtain ⟨rfl, rfl⟩ := ih hrest
      exact ⟨rfl, rfl⟩

/-- A quotation is read off in one way, as long as another mark does not follow. -/
theorem quoted_append_inj {mark : Char} {a b r s : List Char} (hr : r.head? ≠ some mark)
    (hs : s.head? ≠ some mark) (h : quoted mark a ++ r = quoted mark b ++ s) : a = b ∧ r = s := by
  apply doubled_append_inj mark hr hs
  simpa [quoted] using h

/-! ## Field names -/

/-- Every character of a plain name can stand inside a name. -/
theorem isNameRest_of_isPlainName {name : List Char} (h : isPlainName name) :
    ∀ c ∈ name, isNameRest c := by
  cases name with
  | nil => simp
  | cons c cs =>
    simp only [isPlainName, Bool.and_eq_true, List.all_eq_true] at h
    intro d hd
    rcases List.mem_cons.1 hd with rfl | hd
    · simp only [isNameStart, isNameRest, Char.isAlphanum, Bool.or_eq_true] at h ⊢
      tauto
    · exact h.2 d hd

/-- A written field begins with a letter, an underscore or a quotation mark. -/
theorem exists_cons_writtenField (field : List Char) :
    ∃ c cs, writtenField field = c :: cs ∧ (isNameStart c ∨ c = '"') := by
  unfold writtenField
  split
  · rename_i h
    cases field with
    | nil => simp [isPlainName] at h
    | cons c cs =>
      simp only [isPlainName, Bool.and_eq_true] at h
      exact ⟨c, cs, rfl, .inl h.1⟩
  · exact ⟨'"', _, rfl, .inr rfl⟩

/-- A plain name does not begin with a quotation mark. -/
theorem head?_ne_mark_of_isPlainName {name : List Char} (h : isPlainName name) (rest : List Char) :
    (name ++ rest).head? ≠ some '"' := by
  cases name with
  | nil => simp [isPlainName] at h
  | cons c cs =>
    intro he
    obtain rfl : c = '"' := by simpa using he
    simp only [isPlainName, Bool.and_eq_true] at h
    exact absurd h.1 (by decide)

/-- A field is read off in one way: a plain name ends before the space behind it, and a name in
quotes begins with a mark, as no plain name does. -/
theorem writtenField_append_inj {a b r s : List Char}
    (h : writtenField a ++ ' ' :: r = writtenField b ++ ' ' :: s) : a = b ∧ r = s := by
  have space : ∀ t : List Char, ∀ c, (' ' :: t).head? = some c → isNameRest c = false := by
    intro t c hc
    cases hc
    decide
  unfold writtenField at h
  split at h <;> split at h
  · rename_i ha hb
    obtain ⟨rfl, hrest⟩ := append_inj_of_class isNameRest (isNameRest_of_isPlainName ha)
      (isNameRest_of_isPlainName hb) (space r) (space s) h
    exact ⟨rfl, (List.cons.inj hrest).2⟩
  · rename_i ha hb
    exact absurd (by rw [h]; rfl) (head?_ne_mark_of_isPlainName ha (' ' :: r))
  · rename_i ha hb
    exact absurd (by rw [← h]; rfl) (head?_ne_mark_of_isPlainName hb (' ' :: s))
  · rename_i ha hb
    obtain ⟨rfl, hrest⟩ := quoted_append_inj (by simp) (by simp) h
    exact ⟨rfl, (List.cons.inj hrest).2⟩

/-! ## Separated lists -/

/-- The first item of a separated list has no separator in front of it, and every other has. -/
theorem separated_cons (separator item : List Char) (items : List (List Char)) :
    separated separator (item :: items) = item ++ items.flatMap (separator ++ ·) := by
  induction items generalizing item with
  | nil => simp [separated]
  | cons next rest ih =>
    rw [separated, ih, List.flatMap_cons]
    · simp only [List.append_assoc]
    · simp

section Items

variable {α β : Type} {write : α → List Char} {part : α → β} {separator : List Char}

/-- In a separated list the separator stands in front of each item but the first. -/
theorem separated_map_cons (separator : List Char) (x : α) (xs : List α) :
    separated separator ((x :: xs).map write) =
      write x ++ (xs.map write).flatMap (separator ++ ·) := by
  rw [List.map_cons, separated_cons]

/-- What items that are read off one way have in common: with whatever delimits them behind them,
two of them are the same text only if they have the same part and the same rest. -/
def ReadOff (write : α → List Char) (part : α → β) (x y : α) : Prop :=
  ∀ {r s : List Char}, Delimited r → Delimited s → write x ++ r = write y ++ s →
    part x = part y ∧ r = s

/-- What stands behind an item of a list in parentheses delimits it: a separator or the end. -/
theorem delimited_further (hd : ∀ t, Delimited (separator ++ t)) (zs : List α) (rest : List Char) :
    Delimited ((zs.map write).flatMap (separator ++ ·) ++ ')' :: rest) := by
  cases zs with
  | nil => exact delimited_close rest
  | cons z zs =>
    simp only [List.map_cons, List.flatMap_cons, List.append_assoc]
    exact hd _

/-- The further items of a list in parentheses, each with a separator in front of it, are read off
in one way when each of them is. -/
theorem further_append_inj (hd : ∀ t, Delimited (separator ++ t))
    (hc : separator.head? ≠ none ∧ separator.head? ≠ some ')') {xs ys : List α} {r s : List Char}
    (hread : ∀ x ∈ xs, ∀ y ∈ ys, ReadOff write part x y)
    (h : (xs.map write).flatMap (separator ++ ·) ++ ')' :: r =
      (ys.map write).flatMap (separator ++ ·) ++ ')' :: s) :
    xs.map part = ys.map part ∧ r = s := by
  have opens : ∀ t u : List Char, separator ++ t ≠ ')' :: u := by
    intro t u he
    cases separator with
    | nil => simp at hc
    | cons c cs =>
      obtain ⟨rfl, -⟩ := List.cons.inj he
      simp at hc
  induction xs generalizing ys with
  | nil =>
    cases ys with
    | nil => simpa using h
    | cons y ys =>
      simp only [List.map_nil, List.flatMap_nil, List.nil_append, List.map_cons,
        List.flatMap_cons, List.append_assoc] at h
      exact absurd h.symm (opens _ _)
  | cons x xs ih =>
    cases ys with
    | nil =>
      simp only [List.map_nil, List.flatMap_nil, List.nil_append, List.map_cons,
        List.flatMap_cons, List.append_assoc] at h
      exact absurd h (opens _ _)
    | cons y ys =>
      simp only [List.map_cons, List.flatMap_cons, List.append_assoc] at h
      obtain ⟨hxy, hrest⟩ := hread x (by simp) y (by simp) (delimited_further hd xs r)
        (delimited_further hd ys s)
        (List.append_cancel_left h)
      obtain ⟨hxs, hrs⟩ := ih
        (fun x hx y hy => hread x (List.mem_cons_of_mem _ hx) y (List.mem_cons_of_mem _ hy)) hrest
      exact ⟨by simp [hxy, hxs], hrs⟩

end Items

end DataService
