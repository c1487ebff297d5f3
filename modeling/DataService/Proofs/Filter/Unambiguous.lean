import DataService.Proofs.Filter.Delimited
import DataService.Proofs.Filter.Shown
import Std.Data.String.ToInt

/-!
# Canonical text is unambiguous

Every kind of written part can be read off the front of a text in one way only: literals
(`Literal.readOff`), comparators, conditions (`Condition.readOff`) and spelled trees
(`Filter.Spelled.readOff`), each up to what its text does not show. It follows that two filters have
the same canonical text exactly when their simplified trees show the same.

Numbers are left out: the written form of a floating point number is a matter of its own.
-/

set_option autoImplicit false

namespace DataService

/-! ## Literals -/

theorem Literal.writtenItems_eq_map (vs : List Literal) :
    Literal.writtenItems vs = vs.map Literal.written := by
  induction vs with
  | nil => rfl
  | cons v vs ih => rw [Literal.writtenItems, ih, List.map_cons]

/-- The characters that integers are written with. -/
def isIntegerChar (c : Char) : Bool := c == '-' || c.isDigit

/-- An integer is written in digits, with a minus sign at most. -/
theorem isIntegerChar_of_mem {n : Int} : ∀ c ∈ (toString n).toList, isIntegerChar c := by
  intro c hc
  have digit : ∀ m : Nat, c ∈ m.repr.toList → isIntegerChar c := by
    intro m hm
    rw [Nat.toList_repr] at hm
    simp [isIntegerChar, Nat.isDigit_of_mem_toDigits (by decide) (by decide) hm]
  cases n with
  | ofNat m => exact digit m hc
  | negSucc m =>
    have hc' : c ∈ ("-" ++ (m + 1).repr).toList := hc
    rw [String.toList_append, List.mem_append] at hc'
    rcases hc' with hc' | hc'
    · obtain rfl : c = '-' := by simpa using hc'
      rfl
    · exact digit (m + 1) hc'

/-- An integer is written in at least one character. -/
theorem exists_cons_toString (n : Int) :
    ∃ c cs, (toString n).toList = c :: cs ∧ isIntegerChar c := by
  cases h : (toString n).toList with
  | nil =>
    exfalso
    cases n with
    | ofNat m =>
      have hm : m.repr.toList = [] := h
      rw [Nat.toList_repr] at hm
      exact Nat.toDigits_ne_nil hm
    | negSucc m =>
      have hm : ("-" ++ (m + 1).repr).toList = [] := h
      simp at hm
  | cons c cs => exact ⟨c, cs, rfl, isIntegerChar_of_mem c (by rw [h]; simp)⟩

/-- An integer does not run on into what delimits it. -/
theorem Delimited.not_isIntegerChar {rest : List Char} (h : Delimited rest) :
    ∀ c, rest.head? = some c → isIntegerChar c = false := by
  intro c hc
  rcases h c hc with rfl | rfl | rfl <;> rfl

/-- An integer is read off in one way: it ends before what delimits it. -/
theorem integer_append_inj {m n : Int} {r s : List Char} (hr : Delimited r) (hs : Delimited s)
    (h : (toString m).toList ++ r = (toString n).toList ++ s) : m = n ∧ r = s := by
  obtain ⟨heq, hrest⟩ := append_inj_of_class isIntegerChar isIntegerChar_of_mem
    isIntegerChar_of_mem hr.not_isIntegerChar hs.not_isIntegerChar h
  exact ⟨Int.repr_injective (String.toList_inj.1 heq), hrest⟩

/-- The character that stands for all with which a literal of one case may begin. -/
def openingOf (c : Char) : Char := if isIntegerChar c then '-' else c

/-- How a literal begins when it is written, the digits of an integer not told apart. -/
def Literal.opening : Literal → Char
  | .null => 'N'
  | .boolean b => if b then 'T' else 'F'
  | .integer _ => '-'
  | .number _ => '-'
  | .text _ => '\''
  | .list _ => '('

/-- The first character of a literal tells which kind of literal it is. -/
theorem Literal.NumberFree.exists_cons_written {v : Literal} (h : v.NumberFree) :
    ∃ c cs, v.written = c :: cs ∧ openingOf c = v.opening := by
  cases h with
  | null => exact ⟨'N', _, rfl, rfl⟩
  | boolean b => cases b <;> exact ⟨_, _, rfl, rfl⟩
  | integer n =>
    obtain ⟨c, cs, hn, hc⟩ := exists_cons_toString n.toInt
    exact ⟨c, cs, by rw [Literal.written, hn], by simp [openingOf, hc, Literal.opening]⟩
  | text s => exact ⟨'\'', _, rfl, rfl⟩
  | list _ => exact ⟨'(', _, rfl, rfl⟩

/-- Two literals that begin the same text are of one case. -/
theorem opening_eq_of_written_append {v w : Literal} (hv : v.NumberFree) (hw : w.NumberFree)
    {r s : List Char} (h : v.written ++ r = w.written ++ s) : v.opening = w.opening := by
  obtain ⟨c, cs, hc, hv⟩ := hv.exists_cons_written
  obtain ⟨d, ds, hd, hw⟩ := hw.exists_cons_written
  rw [hc, hd] at h
  rw [← hv, ← hw, (List.cons.inj h).1]

/-- The items of a list, with the parenthesis that ends it, are read off in one way. -/
theorem items_append_inj {vs ws : List Literal} (hv : ∀ v ∈ vs, v.NumberFree)
    (hw : ∀ w ∈ ws, w.NumberFree)
    (hread : ∀ v ∈ vs, ∀ w ∈ ws, ReadOff Literal.written id v w) {r s : List Char}
    (h : separated [',', ' '] (vs.map Literal.written) ++ ')' :: r =
      separated [',', ' '] (ws.map Literal.written) ++ ')' :: s) : vs = ws ∧ r = s := by
  have opens : ∀ {v : Literal} (t u : List Char), v.NumberFree → v.written ++ t ≠ ')' :: u := by
    intro v t u hv he
    obtain ⟨c, cs, hc, hopen⟩ := hv.exists_cons_written
    rw [hc] at he
    obtain rfl : c = ')' := (List.cons.inj he).1
    cases hv <;> simp [openingOf, isIntegerChar, Literal.opening] at hopen
    split at hopen <;> simp at hopen
  have follows : ∀ t : List Char, Delimited ([',', ' '] ++ t) := fun t => delimited_comma _
  cases vs with
  | nil =>
    cases ws with
    | nil => simpa using h
    | cons w ws =>
      rw [separated_map_cons] at h
      simp only [List.map_nil, separated, List.nil_append, List.append_assoc] at h
      exact absurd h.symm (opens _ _ (hw w (by simp)))
  | cons v vs =>
    cases ws with
    | nil =>
      rw [separated_map_cons] at h
      simp only [List.map_nil, separated, List.nil_append, List.append_assoc] at h
      exact absurd h (opens _ _ (hv v (by simp)))
    | cons w ws =>
      rw [separated_map_cons, separated_map_cons, List.append_assoc, List.append_assoc] at h
      obtain ⟨hvw, hrest⟩ := hread v (by simp) w (by simp) (delimited_further follows _ _)
        (delimited_further follows _ _) h
      obtain ⟨hvs, hrs⟩ := further_append_inj follows (by simp)
        (fun x hx y hy => hread x (List.mem_cons_of_mem _ hx) y (List.mem_cons_of_mem _ hy)) hrest
      rw [List.map_id, List.map_id] at hvs
      obtain rfl : v = w := hvw
      exact ⟨by rw [hvs], hrs⟩

/-- A literal is read off in one way. -/
theorem Literal.readOff {v w : Literal} (hv : v.NumberFree) (hw : w.NumberFree) :
    ReadOff Literal.written id v w := by
  induction hv generalizing w with
  | null =>
    intro r s _ _ h
    have hopen := opening_eq_of_written_append .null hw h
    cases hw with
    | null => exact ⟨rfl, List.append_cancel_left h⟩
    | boolean b => cases b <;> simp [Literal.opening] at hopen
    | _ => simp [Literal.opening] at hopen
  | boolean b =>
    intro r s _ _ h
    have hopen := opening_eq_of_written_append (.boolean b) hw h
    cases hw with
    | boolean b' =>
      obtain rfl : b = b' := by cases b <;> cases b' <;> simp [Literal.opening] at hopen ⊢
      exact ⟨rfl, List.append_cancel_left h⟩
    | _ => cases b <;> simp [Literal.opening] at hopen
  | integer n =>
    intro r s hr hs h
    have hopen := opening_eq_of_written_append (.integer n) hw h
    cases hw with
    | integer n' =>
      obtain ⟨hn, hrs⟩ := integer_append_inj hr hs h
      exact ⟨by rw [Int64.toInt_inj.1 hn], hrs⟩
    | boolean b => cases b <;> simp [Literal.opening] at hopen
    | _ => simp [Literal.opening] at hopen
  | text t =>
    intro r s hr hs h
    have hopen := opening_eq_of_written_append (.text t) hw h
    cases hw with
    | text t' =>
      obtain ⟨ht, hrs⟩ := quoted_append_inj (hr.head?_ne (by decide) (by decide) (by decide))
        (hs.head?_ne (by decide) (by decide) (by decide)) h
      exact ⟨by rw [String.toList_inj.1 ht], hrs⟩
    | boolean b => cases b <;> simp [Literal.opening] at hopen
    | _ => simp [Literal.opening] at hopen
  | list hvs ih =>
    intro r s hr hs h
    have hopen := opening_eq_of_written_append (.list hvs) hw h
    cases hw with
    | list hws =>
      rw [Literal.written, Literal.written, Literal.writtenItems_eq_map,
        Literal.writtenItems_eq_map] at h
      simp only [List.cons_append, List.append_assoc, List.cons.injEq, true_and,
        List.nil_append] at h
      obtain ⟨hitems, hrs⟩ := items_append_inj hvs hws
        (fun v hv w hw => ih v hv (hws w hw)) h
      exact ⟨by rw [hitems], hrs⟩
    | boolean b => cases b <;> simp [Literal.opening] at hopen
    | _ => simp [Literal.opening] at hopen

/-! ## Conditions -/

/-- A comparator is read off in one way: where one spelling begins another, the longer one goes on
with a character that delimits nothing. -/
theorem sql_append_inj {c d : Comparator} {r s : List Char} (hr : Delimited r) (hs : Delimited s)
    (h : c.sql.toList ++ r = d.sql.toList ++ s) : c = d ∧ r = s := by
  have hre := hr.head?_ne (c := '=') (by decide) (by decide) (by decide)
  have hrg := hr.head?_ne (c := '>') (by decide) (by decide) (by decide)
  have hse := hs.head?_ne (c := '=') (by decide) (by decide) (by decide)
  have hsg := hs.head?_ne (c := '>') (by decide) (by decide) (by decide)
  have hcd : c = d := by
    cases c <;> cases d <;> simp [Comparator.sql] at h ⊢
    -- what is left are the pairs of which one spelling begins the other
    all_goals
      subst h
      simp at hre hrg hse hsg
  subst hcd
  exact ⟨rfl, List.append_cancel_left h⟩

/-- What stands behind the comparator of a condition: its literal, if it has one. -/
def Condition.behind (c : Condition) : List Char :=
  if c.comparator.isUnary then [] else ' ' :: c.value.written

/-- A condition is written as its field, its comparator and what is behind that. -/
theorem written_condition_append (c : Condition) (rest : List Char) :
    c.written ++ rest = writtenField c.field.toList ++
      ' ' :: (c.comparator.sql.toList ++ (c.behind ++ rest)) := by
  unfold Condition.written Condition.behind
  by_cases h : c.comparator.isUnary <;> simp [h]

/-- What is behind the comparator of a condition delimits the comparator. -/
theorem Condition.delimited_behind (c : Condition) {rest : List Char} (h : Delimited rest) :
    Delimited (c.behind ++ rest) := by
  unfold Condition.behind
  split
  · exact h
  · exact delimited_space _

/-- A condition is read off in one way, up to a literal that it does not show. -/
theorem Condition.readOff {c d : Condition} (hc : c.Legible) (hd : d.Legible) :
    ReadOff Condition.written Condition.shown c d := by
  intro r s hr hs h
  rw [written_condition_append, written_condition_append] at h
  obtain ⟨hfield, hrest⟩ := writtenField_append_inj h
  obtain ⟨hcomparator, hbehind⟩ := sql_append_inj (c.delimited_behind hr) (d.delimited_behind hs)
    hrest
  obtain ⟨field, comparator, value⟩ := c
  obtain ⟨field', comparator', value'⟩ := d
  obtain rfl : field = field' := String.toList_inj.1 hfield
  obtain rfl : comparator = comparator' := hcomparator
  cases hu : comparator.isUnary with
  | true =>
    refine ⟨by simp [Condition.shown, hu], ?_⟩
    simpa [Condition.behind, hu] using hbehind
  | false =>
    simp only [Condition.behind, hu, Bool.false_eq_true, if_false, List.cons_append,
      List.cons.injEq, true_and] at hbehind
    obtain ⟨hvalue, hrs⟩ := Literal.readOff (hc hu) (hd hu) hr hs hbehind
    obtain rfl : value = value' := hvalue
    exact ⟨rfl, hrs⟩

/-- A condition does not begin with a parenthesis. -/
theorem written_condition_ne_open (c : Condition) (r s : List Char) :
    c.written ++ r ≠ '(' :: s := by
  intro h
  obtain ⟨first, others, hfield, hfirst⟩ := exists_cons_writtenField c.field.toList
  rw [written_condition_append, hfield] at h
  obtain rfl : first = '(' := (List.cons.inj h).1
  rcases hfirst with hfirst | hfirst
  · exact absurd hfirst (by decide)
  · exact absurd hfirst (by decide)

/-- A condition is not taken for a negation, even if its field is called NOT: a parenthesis follows
on the negation, and none on a field. -/
theorem written_condition_ne_not (c : Condition) (r s : List Char) :
    c.written ++ r ≠ "NOT (".toList ++ s := by
  intro h
  have hnot : "NOT (".toList ++ s = writtenField "NOT".toList ++ ' ' :: '(' :: s := by
    have hplain : isPlainName "NOT".toList := by decide
    rw [writtenField, if_pos hplain]
    rfl
  rw [written_condition_append, hnot] at h
  obtain ⟨-, hrest⟩ := writtenField_append_inj h
  cases hcmp : c.comparator <;> simp [hcmp, Comparator.sql] at hrest

/-! ## Trees -/

namespace Filter

/-- A leaf is written as its condition, which stands in parentheses behind a negation. -/
theorem written_leaf (operator : Operator) (negated : Bool) (children : List Filter)
    (c : Condition) : written ⟨operator, negated, children, some c⟩ =
      if negated then "NOT (".toList ++ c.written ++ [')'] else c.written := by
  rw [written, writtenSign]
  have hopen : c.written.head? ≠ some '(' := by
    intro h
    obtain ⟨tail, htail⟩ := List.head?_eq_some_iff.1 h
    exact written_condition_ne_open c [] tail (by rw [List.append_nil, htail])
  cases negated with
  | false => rfl
  | true => rw [if_pos rfl, if_pos rfl, if_neg hopen]

/-- A composite is written in parentheses, negated or not. -/
theorem written_composite (operator : Operator) (negated : Bool) (children : List Filter) :
    written ⟨operator, negated, children, none⟩ =
      (if negated then "NOT (".toList else ['(']) ++
        separated operator.joiner (children.map written) ++ [')'] := by
  rw [written, writtenSign, writtenAll_eq_map]
  cases negated with
  | false => rfl
  | true =>
    rw [if_pos rfl, if_pos rfl, List.cons_append, if_pos List.head?_cons]
    rfl

/-- What the text of a spelled composite goes on with behind its first part. -/
theorem exists_space_separated (operator : Operator) (first second : List Char)
    (others : List (List Char)) (rest : List Char) :
    ∃ tail, separated operator.joiner (first :: second :: others) ++ rest =
      first ++ ' ' :: tail := by
  rw [separated_cons, List.flatMap_cons]
  cases operator <;> exact ⟨_, by simp [Operator.joiner]; rfl⟩

/-- A condition, where it is read off the front of a spelled tree, is that tree. -/
theorem Spelled.readOff_condition {c : Condition} (hc : c.Legible) {f : Filter} (hf : f.Spelled)
    {r s : List Char} (hr : Delimited r) (hs : Delimited s) (h : c.written ++ r = f.written ++ s) :
    f.shown = ⟨.none, false, [], some c.shown⟩ ∧ r = s := by
  cases hf with
  | @leaf operator negated children d hd =>
    rw [written_leaf] at h
    cases negated with
    | false =>
      obtain ⟨hcd, hrs⟩ := Condition.readOff hc hd hr hs h
      exact ⟨by rw [shown, hcd], hrs⟩
    | true =>
      simp only [if_true, List.append_assoc] at h
      exact absurd h (written_condition_ne_not c _ _)
  | @composite operator negated first second others hop hall =>
    rw [written_composite] at h
    cases negated with
    | false =>
      simp only [Bool.false_eq_true, if_false, List.append_assoc, List.singleton_append] at h
      exact absurd h (written_condition_ne_open c _ _)
    | true =>
      simp only [if_true, List.append_assoc] at h
      exact absurd h (written_condition_ne_not c _ _)

/-- A condition in parentheses is not taken for a composite: a composite goes on behind its first
part. -/
theorem written_condition_ne_separated {c : Condition} (hc : c.Legible) {first : Filter}
    (hfirst : first.Spelled) (operator : Operator) (second : List Char)
    (others : List (List Char)) (r s : List Char) :
    c.written ++ ')' :: r ≠
      separated operator.joiner (first.written :: second :: others) ++ ')' :: s := by
  intro h
  obtain ⟨tail, htail⟩ := exists_space_separated operator first.written second others (')' :: s)
  rw [htail] at h
  obtain ⟨-, hrest⟩ := hfirst.readOff_condition hc (delimited_close r) (delimited_space tail) h
  exact absurd (List.cons.inj hrest).1 (by decide)

/-- The parts of a composite, with the parenthesis that ends it, are read off in one way, and with
them the operator that joins them. -/
theorem parts_append_inj {operator operator' : Operator} (hop : operator ≠ .none)
    (hop' : operator' ≠ .none) {first second first' second' : Filter} {others others' : List Filter}
    (hread : ∀ f ∈ first :: second :: others, ∀ g ∈ first' :: second' :: others',
      ReadOff written shown f g) {r s : List Char}
    (h : separated operator.joiner ((first :: second :: others).map written) ++ ')' :: r =
      separated operator'.joiner ((first' :: second' :: others').map written) ++ ')' :: s) :
    operator = operator' ∧ (first :: second :: others).map shown =
      (first' :: second' :: others').map shown ∧ r = s := by
  have spaced : ∀ (o : Operator) (t : List Char), Delimited (o.joiner ++ t) := by
    intro o t
    cases o <;> exact delimited_space _
  rw [separated_map_cons, separated_map_cons, List.append_assoc, List.append_assoc] at h
  obtain ⟨hfirst, hrest⟩ := hread first (by simp) first' (by simp)
    (delimited_further (spaced operator) _ _) (delimited_further (spaced operator') _ _) h
  obtain rfl : operator = operator' := by
    cases operator <;> cases operator' <;> simp_all [Operator.joiner]
  obtain ⟨hothers, hrs⟩ := further_append_inj (spaced operator)
    (by cases operator <;> simp [Operator.joiner])
    (fun f hf g hg => hread f (List.mem_cons_of_mem _ hf) g (List.mem_cons_of_mem _ hg)) hrest
  exact ⟨rfl, List.cons_eq_cons.2 ⟨hfirst, hothers⟩, hrs⟩

/-- A spelled tree is read off in one way, up to what it does not show. -/
theorem Spelled.readOff {f g : Filter} (hf : f.Spelled) (hg : g.Spelled) :
    ReadOff written shown f g := by
  induction hf generalizing g with
  | @leaf operator negated children c hc =>
    intro r s hr hs h
    rw [written_leaf] at h
    cases negated with
    | false =>
      obtain ⟨hshown, hrs⟩ := hg.readOff_condition hc hr hs h
      exact ⟨by rw [hshown, shown], hrs⟩
    | true =>
      cases hg with
      | @leaf operator' negated' children' d hd =>
        rw [written_leaf] at h
        cases negated' with
        | false =>
          simp only [if_true, List.append_assoc] at h
          exact absurd h.symm (written_condition_ne_not d _ _)
        | true =>
          simp only [if_true, List.append_assoc, List.singleton_append] at h
          obtain ⟨hcd, hrest⟩ := Condition.readOff hc hd (delimited_close r) (delimited_close s)
            (List.append_cancel_left h)
          exact ⟨by rw [shown, shown, hcd], (List.cons.inj hrest).2⟩
      | @composite operator' negated' first second others hop hall =>
        rw [written_composite] at h
        cases negated' with
        | false => simp at h
        | true =>
          simp only [if_true, List.append_assoc, List.singleton_append] at h
          exact absurd (List.append_cancel_left h)
            (written_condition_ne_separated hc (hall first (by simp)) _ _ _ _ _)
  | @composite operator negated first second others hop hall ih =>
    intro r s hr hs h
    have hf : Spelled ⟨operator, negated, first :: second :: others, none⟩ := .composite hop hall
    cases hg with
    | @leaf operator' negated' children' d hd =>
      rw [written_leaf] at h
      cases negated' with
      | false =>
        simp only [Bool.false_eq_true, if_false] at h
        obtain ⟨hshown, hrs⟩ := hf.readOff_condition hd hs hr h.symm
        exact ⟨by rw [hshown, shown], hrs.symm⟩
      | true =>
        rw [written_composite] at h
        cases negated with
        | false => simp at h
        | true =>
          simp only [if_true, List.append_assoc, List.singleton_append] at h
          exact absurd (List.append_cancel_left h).symm
            (written_condition_ne_separated hd (hall first (by simp)) _ _ _ _ _)
    | @composite operator' negated' first' second' others' hop' hall' =>
      rw [written_composite, written_composite] at h
      obtain rfl : negated = negated' := by
        cases negated <;> cases negated' <;> simp at h ⊢
      simp only [List.append_assoc, List.singleton_append] at h
      obtain ⟨rfl, hparts, hrs⟩ := parts_append_inj hop hop'
        (fun f hf g hg => ih f hf (hall' g hg)) (List.append_cancel_left h)
      exact ⟨by rw [shown, shown, shownAll_eq_map, shownAll_eq_map, hparts], hrs⟩

/-! ## Canonical text -/

/-- Trees that are spelled out are written alike exactly if they are shown alike. -/
theorem Spelled.written_inj {f g : Filter} (hf : f.Spelled) (hg : g.Spelled) :
    f.written = g.written ↔ f.shown = g.shown := by
  constructor
  · intro h
    exact (hf.readOff hg delimited_nil delimited_nil (by rw [h])).1
  · intro h
    rw [← written_shown f, h, written_shown g]

/-- The canonical text of a tree is that of its simplified form, where this is spelled out. -/
theorem Spelled.canonicalText_eq {f : Filter} (h : f.simplify.Spelled) :
    f.canonicalText = some f.simplify.render := by
  unfold canonicalText
  cases hs : f.simplify with
  | mk operator negated children condition =>
    rw [hs] at h
    cases h with
    | leaf hc => simp [isLeaf]
    | composite hop hall => simp

/-- **Canonical text is unambiguous.** Two filters without numbers and without empty composites have
the same canonical text exactly when their simplified trees are the same in all that a text
shows. -/
theorem canonicalText_eq_iff {f g : Filter} (hf : f.Legible) (hg : g.Legible) :
    f.canonicalText = g.canonicalText ↔ f.simplify.shown = g.simplify.shown := by
  have hfs := hf.simplify_spelled
  have hgs := hg.simplify_spelled
  rw [hfs.canonicalText_eq, hgs.canonicalText_eq, Option.some.injEq, render, render,
    String.ofList_inj]
  exact hfs.written_inj hgs

/-- A grouping and a conjunction that says one thing twice, over a field called NOT, a nested list
and an operand that is not shown. -/
theorem canonicalText_eq_of_regrouped :
    (composite .none [leaf "NOT" .eq (.text "it's"),
      allOf [(isIn "" [.integer 7, .list [.null]]).negate, isNull "a b"]]).canonicalText =
    (allOf [leaf "NOT" .eq (.text "it's"), (anyOf [isIn "" [.integer 7, .list [.null]]]).negate,
      leaf "NOT" .eq (.text "it's"), leaf "a b" .isNull (.boolean true)]).canonicalText := by
  have htext : (leaf "NOT" .eq (.text "it's")).Legible := .leaf fun _ => .text _
  have hlist : (Literal.list [.integer 7, .list [.null]]).NumberFree := by
    refine .list ?_
    intro v hv
    rcases List.mem_pair.1 hv with rfl | rfl
    · exact .integer 7
    · refine .list ?_
      intro w hw
      rw [List.mem_singleton.1 hw]
      exact .null
  refine (canonicalText_eq_iff (.composite (by simp) ?_) (.composite (by simp) ?_)).2 rfl
  · intro f hf
    rcases List.mem_pair.1 hf with rfl | rfl
    · exact htext
    · refine .composite (by simp) ?_
      intro g hg
      rcases List.mem_pair.1 hg with rfl | rfl
      · exact .leaf fun _ => hlist
      · exact .leaf fun _ => .null
  · intro f hf
    simp only [List.mem_cons, List.not_mem_nil, or_false] at hf
    rcases hf with rfl | rfl | rfl | rfl
    · exact htext
    · refine .composite (by simp [anyOf, Filter.composite]) ?_
      intro g hg
      rw [List.mem_singleton.1 hg]
      exact .leaf fun _ => hlist
    · exact htext
    · exact .leaf fun _ => .boolean true

end Filter

end DataService
