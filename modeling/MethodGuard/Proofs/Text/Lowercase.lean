/-
# Lower case inside a longer text

A part of a text has a lower case of its own and one where it stands, and the two differ in capital
sigmas only: whether such a sigma ends a word is read off its neighbours, which may lie outside the
part.  `between` is the lower case of a part where it stands.

Where the sigmas of a part keep their forms, a text holds the part also after both have been
lower-cased (`isInfix_of_keepsForms`).  They keep them everywhere exactly if none of them has to
look outside the part, which `Settled` says of one sigma.  And if one of them has to, one more
letter is enough for a text that holds the part no longer (`isInfix_lowerCase_iff`): such a letter
can take the final form away, or give it, but not do both, so one of the two forms becomes rarer.
-/
import Mathlib.Data.List.Infix
import MethodGuard.Text.Lowercase

namespace MethodGuard

theorem occursIn_iff {part text : List Char} : occursIn part text = true ↔ part <:+: text := by
  induction text with
  | nil => rw [occursIn, List.isEmpty_iff, List.infix_nil]
  | cons c rest ih =>
    rw [occursIn, Bool.or_eq_true, ih, List.isPrefixOf_iff_prefix, List.infix_cons_iff]

namespace Lowercase

/-! ## 1. A part where it stands -/

/-- The lower case of a part of a text, given what precedes it, nearest first, and what follows. -/
def between (before : List Char) : List Char → List Char → List Char
  | [], _ => []
  | c :: rest, after => inPlace before c (rest ++ after) ++ between (c :: before) rest after

variable {before after left right part : List Char}

theorem between_append (before a b after : List Char) : between before (a ++ b) after =
    between before a (b ++ after) ++ between (a.reverse ++ before) b after := by
  induction a generalizing before with
  | nil => rfl
  | cons c a ih =>
    rw [List.cons_append, between, ih, between, List.append_assoc, List.append_assoc,
      List.reverse_cons, List.append_assoc]
    rfl

theorem between_nil (before cs : List Char) : between before cs [] = chars before cs := by
  induction cs generalizing before with
  | nil => rfl
  | cons c rest ih => rw [between, chars, List.append_nil, ih]

/-- The lower case of a text, cut in three. -/
theorem chars_append_append (left part right : List Char) : chars [] (left ++ part ++ right) =
    between [] left (part ++ right) ++ between left.reverse part right ++
      chars (part.reverse ++ left.reverse) right := by
  rw [← between_nil, between_append, between_append, between_nil, List.reverse_append]
  simp only [List.append_nil]

/-! ## 2. The form of a sigma -/

/-- Whether a look for a cased neighbour goes past all of the characters. -/
def passedOver (cs : List Char) : Bool := cs.all CodePointSet.caseIgnorable.contains

theorem casedAhead_append (xs ys : List Char) :
    casedAhead (xs ++ ys) = if passedOver xs then casedAhead ys else casedAhead xs := by
  induction xs with
  | nil => rfl
  | cons x xs ih =>
    by_cases hx : CodePointSet.caseIgnorable.contains x = true
    · simpa [casedAhead, passedOver, hx] using ih
    · simp [casedAhead, passedOver, hx]

theorem casedAhead_of_passedOver {cs : List Char} (h : passedOver cs = true) :
    casedAhead cs = false := by
  have happend := casedAhead_append cs []
  rwa [List.append_nil, if_pos h] at happend

theorem casedAhead_append_of_casedAhead {xs : List Char} (h : casedAhead xs = true)
    (ys : List Char) : casedAhead (xs ++ ys) = true := by
  rw [casedAhead_append, if_neg, h]
  intro hpassed
  rw [casedAhead_of_passedOver hpassed] at h
  cases h

theorem sigma_eq_final_iff :
    sigma before after = 'ς' ↔ casedAhead before = true ∧ casedAhead after = false := by
  unfold sigma
  cases casedAhead before <;> cases casedAhead after <;> decide

theorem sigma_eq_plain_iff :
    sigma before after = 'σ' ↔ casedAhead before = false ∨ casedAhead after = true := by
  unfold sigma
  cases casedAhead before <;> cases casedAhead after <;> decide

/-- **The form of a capital sigma is settled** by the part that it stands in: a look to the right
finds a cased letter there; or a look to the left ends there, at a character without case or while
a look to the right ends there too. -/
def Settled (before after : List Char) : Prop :=
  casedAhead after = true ∨
    passedOver before = false ∧ (casedAhead before = false ∨ passedOver after = false)

instance (before after : List Char) : Decidable (Settled before after) :=
  inferInstanceAs (Decidable (_ ∨ _))

theorem sigma_eq_of_settled (h : Settled before after) (left right : List Char) :
    sigma (before ++ left) (after ++ right) = sigma before after := by
  rcases h with hafter | ⟨hbefore, huncased | hafter⟩
  · simp [sigma, hafter, casedAhead_append_of_casedAhead hafter]
  · simp [sigma, casedAhead_append before, hbefore, huncased]
  · simp [sigma, casedAhead_append, hbefore, hafter]

/-! ## 3. Parts that are found -/

/-- The capital sigmas of a part have where it stands the forms that they have where it stands
alone. -/
def KeepsForms (left part right : List Char) : Prop :=
  ∀ before after, part = before ++ 'Σ' :: after →
    sigma (before.reverse ++ left.reverse) (after ++ right) = sigma before.reverse after

/-- The forms of the sigmas are all that a part can change in. -/
theorem between_eq_chars (before left right part : List Char)
    (h : ∀ front rest, part = front ++ 'Σ' :: rest →
      sigma (front.reverse ++ before ++ left) (rest ++ right) =
        sigma (front.reverse ++ before) rest) :
    between (before ++ left) part right = chars before part := by
  induction part generalizing before with
  | nil => rfl
  | cons c rest ih =>
    have hfirst : inPlace (before ++ left) c (rest ++ right) = inPlace before c rest := by
      by_cases hc : c = 'Σ'
      · subst hc
        rw [inPlace, inPlace, if_pos rfl, if_pos rfl]
        exact congrArg (fun form => [form]) (h [] rest rfl)
      · rw [inPlace, inPlace, if_neg hc, if_neg hc]
    rw [between, chars, hfirst]
    refine congrArg _ (ih (c :: before) fun front rest' hrest => ?_)
    have hsigma := h (c :: front) rest' (by rw [hrest, List.cons_append])
    rwa [List.reverse_cons, List.append_assoc front.reverse, List.singleton_append] at hsigma

/-- **A text holds a part in lower case too**, if the sigmas of the part keep their forms there. -/
theorem isInfix_of_keepsForms (h : KeepsForms left part right) :
    chars [] part <:+: chars [] (left ++ part ++ right) := by
  have hpart : between left.reverse part right = chars [] part := by
    refine between_eq_chars [] left.reverse right part fun front rest hpart => ?_
    rw [List.append_nil]
    exact h front rest hpart
  rw [chars_append_append, hpart]
  exact ⟨_, _, rfl⟩

/-- Every capital sigma of the part is settled by the part. -/
def AllSettled (part : List Char) : Prop :=
  ∀ before after, part = before ++ 'Σ' :: after → Settled before.reverse after

theorem AllSettled.keepsForms (h : AllSettled part) (left right : List Char) :
    KeepsForms left part right :=
  fun before after hpart => sigma_eq_of_settled (h before after hpart) left.reverse right

/-- A part without capital sigmas has nothing to settle. -/
theorem allSettled_of_not_mem (h : 'Σ' ∉ part) : AllSettled part := by
  rintro before after rfl
  exact absurd (List.mem_append_right before List.mem_cons_self) h

/-! ## 4. Parts that are missed -/

section Counting

variable {form : Char} {before' after' : List Char}

/-- No capital sigma of the part has the form in the second place only. -/
def Ungained (form : Char) (part before after before' after' : List Char) : Prop :=
  ∀ front rest, part = front ++ 'Σ' :: rest →
    sigma (front.reverse ++ before') (rest ++ after') = form →
      sigma (front.reverse ++ before) (rest ++ after) = form

theorem Ungained.tail {c : Char} {rest : List Char}
    (h : Ungained form (c :: rest) before after before' after') :
    Ungained form rest (c :: before) after (c :: before') after' := by
  rintro front rest' rfl
  have hform := h (c :: front) rest' rfl
  simpa using hform

theorem Ungained.count_inPlace_le {c : Char} {rest : List Char}
    (h : Ungained form (c :: rest) before after before' after') :
    (inPlace before' c (rest ++ after')).count form ≤
      (inPlace before c (rest ++ after)).count form := by
  by_cases hc : c = 'Σ'
  · subst hc
    have hform := h [] rest rfl
    simp only [List.reverse_nil, List.nil_append] at hform
    rw [inPlace, inPlace, if_pos rfl, if_pos rfl, List.count_singleton, List.count_singleton]
    by_cases hhad : sigma before' (rest ++ after') = form
    · rw [hform hhad, hhad]
    · rw [if_neg (by simpa using hhad)]
      exact Nat.zero_le _
  · rw [inPlace, inPlace, if_neg hc, if_neg hc]

/-- A form that is not gained does not become more frequent. -/
theorem Ungained.count_le (h : Ungained form part before after before' after') :
    (between before' part after').count form ≤ (between before part after).count form := by
  induction part generalizing before before' with
  | nil => exact Nat.le_refl _
  | cons c rest ih =>
    rw [between, between, List.count_append, List.count_append]
    exact Nat.add_le_add h.count_inPlace_le (ih h.tail)

/-- A form that is not gained and is lost once becomes rarer. -/
theorem Ungained.count_lt {front rest : List Char}
    (h : Ungained form (front ++ 'Σ' :: rest) before after before' after')
    (hhad : sigma (front.reverse ++ before) (rest ++ after) = form)
    (hlost : sigma (front.reverse ++ before') (rest ++ after') ≠ form) :
    (between before' (front ++ 'Σ' :: rest) after').count form <
      (between before (front ++ 'Σ' :: rest) after).count form := by
  induction front generalizing before before' with
  | nil =>
    rw [List.nil_append] at h ⊢
    rw [between, between, List.count_append, List.count_append]
    refine Nat.add_lt_add_of_lt_of_le ?_ h.tail.count_le
    simp only [List.reverse_nil, List.nil_append] at hhad hlost
    rw [inPlace, inPlace, if_pos rfl, if_pos rfl, hhad, List.count_singleton_self,
      List.count_singleton, if_neg (by simpa using hlost)]
    exact Nat.one_pos
  | cons c front ih =>
    rw [List.cons_append] at h ⊢
    rw [between, between, List.count_append, List.count_append]
    refine Nat.add_lt_add_of_le_of_lt h.count_inPlace_le (ih h.tail ?_ ?_)
    · simpa using hhad
    · simpa using hlost

end Counting

/-- A part is not held in lower case by a text that loses one of its forms, gains none inside it and
has none outside it. -/
theorem not_isInfix_of_ungained {form : Char} {front rest : List Char}
    (hungained : Ungained form (front ++ 'Σ' :: rest) [] [] left.reverse right)
    (hhad : sigma front.reverse rest = form)
    (hlost : sigma (front.reverse ++ left.reverse) (rest ++ right) ≠ form)
    (hleft : form ∉ between [] left (front ++ 'Σ' :: rest ++ right))
    (hright : form ∉ chars ((front ++ 'Σ' :: rest).reverse ++ left.reverse) right) :
    ¬ chars [] (front ++ 'Σ' :: rest) <:+:
      chars [] (left ++ (front ++ 'Σ' :: rest) ++ right) := by
  intro hheld
  have hcount := hheld.sublist.count_le form
  rw [chars_append_append, List.count_append, List.count_append, List.count_eq_zero.mpr hleft,
    List.count_eq_zero.mpr hright, Nat.zero_add, Nat.add_zero, ← between_nil] at hcount
  have hhad' : sigma (front.reverse ++ []) (rest ++ []) = form := by
    rwa [List.append_nil, List.append_nil]
  exact Nat.not_le_of_lt (hungained.count_lt hhad' hlost) hcount

/-- A cased letter. -/
theorem casedAhead_letter : casedAhead ['A'] = true := by decide

/-- A letter before the part: no sigma is plain there that is not plain where the part stands
alone. -/
theorem not_isInfix_letter_append {front rest : List Char}
    (hfront : passedOver front.reverse = true) (hrest : casedAhead rest = false) :
    ¬ chars [] (front ++ 'Σ' :: rest) <:+: chars [] (['A'] ++ (front ++ 'Σ' :: rest) ++ []) := by
  have hungained : Ungained 'σ' (front ++ 'Σ' :: rest) [] [] ['A'].reverse [] := by
    intro before after _ hplain
    rw [sigma_eq_plain_iff] at hplain ⊢
    refine hplain.imp_left fun hbefore => ?_
    rw [List.append_nil, ← Bool.not_eq_true]
    intro hcased
    rw [casedAhead_append_of_casedAhead hcased] at hbefore
    cases hbefore
  have hplain : sigma front.reverse rest = 'σ' :=
    sigma_eq_plain_iff.mpr (.inl (casedAhead_of_passedOver hfront))
  have hfinal : sigma (front.reverse ++ ['A'].reverse) (rest ++ []) = 'ς' := by
    refine sigma_eq_final_iff.mpr ⟨?_, by rwa [List.append_nil]⟩
    rw [casedAhead_append, if_pos hfront]
    exact casedAhead_letter
  refine not_isInfix_of_ungained hungained hplain (by rw [hfinal]; decide) ?_ List.not_mem_nil
  change 'σ' ∉ ['a']
  decide

/-- A letter after the part: no sigma is final there that is not final where the part stands
alone. -/
theorem not_isInfix_append_letter {front rest : List Char}
    (hfront : casedAhead front.reverse = true) (hrest : passedOver rest = true) :
    ¬ chars [] (front ++ 'Σ' :: rest) <:+: chars [] ([] ++ (front ++ 'Σ' :: rest) ++ ['A']) := by
  have hungained : Ungained 'ς' (front ++ 'Σ' :: rest) [] [] [].reverse ['A'] := by
    intro before after _ hfinal
    rw [sigma_eq_final_iff] at hfinal ⊢
    refine ⟨hfinal.1, ?_⟩
    rw [List.append_nil, ← Bool.not_eq_true]
    intro hcased
    rw [casedAhead_append_of_casedAhead hcased] at hfinal
    cases hfinal.2
  have hfinal : sigma front.reverse rest = 'ς' :=
    sigma_eq_final_iff.mpr ⟨hfront, casedAhead_of_passedOver hrest⟩
  have hplain : sigma (front.reverse ++ [].reverse) (rest ++ ['A']) = 'σ' := by
    refine sigma_eq_plain_iff.mpr (.inr ?_)
    rw [casedAhead_append, if_pos hrest, casedAhead_letter]
  refine not_isInfix_of_ungained hungained hfinal (by rw [hplain]; decide) List.not_mem_nil ?_
  change 'ς' ∉ ['a']
  decide

/-- **A sigma that has to look outside** gets another form from one more letter, on one side or on
the other, and what holds the part then does not hold its lower case. -/
theorem exists_missed {front rest : List Char} (h : ¬ Settled front.reverse rest) :
    ∃ left right : List Char, ¬ chars [] (front ++ 'Σ' :: rest) <:+:
      chars [] (left ++ (front ++ 'Σ' :: rest) ++ right) := by
  simp only [Settled, not_or, not_and, Bool.not_eq_true, Bool.not_eq_false] at h
  obtain ⟨hrest, hopen⟩ := h
  by_cases hfront : passedOver front.reverse = true
  · exact ⟨['A'], [], not_isInfix_letter_append hfront hrest⟩
  · obtain ⟨hcased, hpassed⟩ := hopen (Bool.not_eq_true _ ▸ hfront)
    exact ⟨[], ['A'], not_isInfix_append_letter hcased hpassed⟩

/-- **The texts that hold a part hold it in lower case too, exactly if its sigmas are settled.** -/
theorem isInfix_lowerCase_iff {part : List Char} :
    (∀ left right, chars [] part <:+: chars [] (left ++ part ++ right)) ↔ AllSettled part := by
  constructor
  · rintro h front rest rfl
    by_contra hopen
    obtain ⟨left, right, hmissed⟩ := exists_missed hopen
    exact hmissed (h left right)
  · exact fun h left right => isInfix_of_keepsForms (h.keepsForms left right)

end Lowercase

end MethodGuard
