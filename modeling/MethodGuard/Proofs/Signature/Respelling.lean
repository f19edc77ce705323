/-
# One call, spelled in several ways

A value for a positional-or-keyword parameter can be written by position or by name, and keywords
can be written in any order.  `Signature.Respells s a b` says that `b` is such a spelling of the
call `a`.

Binding first writes all values of a call down under the names of their parameters
(`Signature.named`), in the order in which the caller gave them; another spelling changes that order
and nothing else (`Respells.named_perm`).  The last step of binding looks names up and goes by the
order of declaration, so where no name is taken twice it sees no difference (`collect_congr`).
Hence a call that binds, binds to the same arguments however it is spelled (`bind_of_respells`).
-/
import MethodGuard.Proofs.Signature.Alike

namespace MethodGuard

namespace Signature

/-! ## 1. Spellings -/

/-- The names of the parameters that positional values fill, in order. -/
def positionalNames (s : Signature) : List String := s.positionalParameters.map (·.name)

/-- **`b` is another spelling of the call `a`**: from some place on the positional values are
written as keywords, under the names of the parameters they fill, and the keywords come in any
order. -/
def Respells (s : Signature) (a b : Arguments) : Prop :=
  ∃ moved, a.positional = b.positional ++ moved ∧
    b.keyword.entries.Perm
      ((s.positionalNames.drop b.positional.length).zip moved ++ a.keyword.entries)

/-- The values of a call under the names of the parameters they are for, in the caller's order. -/
def named (s : Signature) (a : Arguments) : List (String × Value) :=
  s.positionalNames.zip a.positional ++ a.keyword.entries

variable {s : Signature} {a b : Arguments}

theorem Respells.length_le (h : s.Respells a b) : b.positional.length ≤ a.positional.length := by
  obtain ⟨moved, hmoved, -⟩ := h
  rw [hmoved, List.length_append]
  exact Nat.le_add_right _ _

/-- **Another spelling names the same values**, in another order. -/
theorem Respells.named_perm (h : s.Respells a b)
    (hlength : a.positional.length ≤ s.positionalNames.length) :
    (s.named b).Perm (s.named a) := by
  obtain ⟨moved, hmoved, hkeyword⟩ := h
  have hkept : (s.positionalNames.take b.positional.length).length = b.positional.length := by
    rw [hmoved, List.length_append] at hlength
    exact List.length_take_of_le (by omega)
  have hzip : s.positionalNames.zip a.positional =
      (s.positionalNames.take b.positional.length).zip b.positional ++
        (s.positionalNames.drop b.positional.length).zip moved := by
    rw [← List.zip_append hkept, List.take_append_drop, ← hmoved]
  have hfirst : s.positionalNames.zip b.positional =
      (s.positionalNames.take b.positional.length).zip b.positional := by
    calc s.positionalNames.zip b.positional
        = (s.positionalNames.take b.positional.length ++
            s.positionalNames.drop b.positional.length).zip (b.positional ++ []) := by
          rw [List.take_append_drop, List.append_nil]
      _ = (s.positionalNames.take b.positional.length).zip b.positional := by
          rw [List.zip_append hkept, List.zip_nil_right, List.append_nil]
  rw [named, named, hzip, hfirst, List.append_assoc]
  exact hkeyword.append_left _

/-! ## 2. Values under names -/

section Names

variable {assigned assigned' : OrderedMap Value} {bound : BoundArguments} {ps : List Parameter}

/-- **Keyword values are taken** when each names a parameter and no name is given twice; they come
after the values taken before. -/
theorem assignKeywords_eq_ok_iff {keywords : List (String × Value)} (h : assigned.keys.Nodup) :
    s.assignKeywords assigned keywords = .ok assigned' ↔
      (∀ keyword ∈ keywords, keyword.1 ∈ s.parameters.map (·.name)) ∧
      ((assigned.entries ++ keywords).map Prod.fst).Nodup ∧
      assigned' = ⟨assigned.entries ++ keywords⟩ := by
  induction keywords generalizing assigned with
  | nil =>
    rw [OrderedMap.keys] at h
    simp [assignKeywords, h, eq_comm]
  | cons keyword rest ih =>
    obtain ⟨name, value⟩ := keyword
    have hunknown : (s.find? name).isNone = true ↔ name ∉ s.parameters.map (·.name) :=
      Option.isNone_iff_eq_none.trans find?_eq_none_iff
    rw [assignKeywords]
    by_cases hknown : name ∈ s.parameters.map (·.name)
    · rw [if_neg fun hnone => hunknown.mp hnone hknown]
      by_cases htaken : name ∈ assigned.keys
      · rw [if_pos (OrderedMap.contains_iff.mpr htaken)]
        constructor
        · intro h
          cases h
        · rintro ⟨-, hnodup, -⟩
          rw [List.map_append] at hnodup
          exact absurd List.mem_cons_self (List.disjoint_of_nodup_append hnodup htaken)
      · rw [if_neg (by rwa [OrderedMap.contains_iff]),
          ih (OrderedMap.nodup_keys_insert h name value),
          OrderedMap.entries_insert_of_not_mem htaken, List.append_assoc, List.singleton_append,
          List.forall_mem_cons]
        simp [hknown]
    · rw [if_pos (hunknown.mpr hknown)]
      constructor
      · intro h
        cases h
      · rintro ⟨hall, -, -⟩
        exact absurd (hall _ List.mem_cons_self) hknown

/-- The walk over the parameters looks values up and sees nothing of their order. -/
theorem collect_congr (h : ∀ name, assigned.find? name = assigned'.find? name) :
    collect assigned bound ps = collect assigned' bound ps := by
  induction ps generalizing assigned assigned' bound with
  | nil => rfl
  | cons p rest ih =>
    rw [collect, collect, ← h p.name]
    cases assigned.find? p.name with
    | some value =>
      refine ih fun name => ?_
      rw [OrderedMap.find?_erase, OrderedMap.find?_erase, h name]
    | none =>
      cases p.fallback with
      | some value => exact ih h
      | none => rfl

end Names

/-! ## 3. Binding -/

variable {bound : BoundArguments}

/-- Pairing names with values takes the names from the front. -/
theorem map_fst_zip (names : List String) (values : List Value) :
    (names.zip values).map Prod.fst = names.take values.length := by
  induction names generalizing values with
  | nil => simp
  | cons name rest ih =>
    cases values with
    | nil => rfl
    | cons value values => simp [ih values]

theorem positionalNames_sublist : s.positionalNames.Sublist (s.parameters.map (·.name)) :=
  List.filter_sublist.map _

/-- Where keywords name parameters, all values of a call are for parameters. -/
theorem fst_mem_names
    (hknown : ∀ keyword ∈ a.keyword.entries, keyword.1 ∈ s.parameters.map (·.name))
    {entry : String × Value} (hentry : entry ∈ s.named a) :
    entry.1 ∈ s.parameters.map (·.name) := by
  rcases List.mem_append.mp hentry with hpositional | hkeyword
  · exact positionalNames_sublist.subset (List.of_mem_zip hpositional).1
  · exact hknown entry hkeyword

/-- Positional values are written down under different names. -/
theorem entries_assignPositional (h : (s.parameters.map (·.name)).Nodup) (values : List Value) :
    (s.assignPositional values).entries = s.positionalNames.zip values := by
  refine OrderedMap.entries_ofList ?_
  rw [← positionalNames, map_fst_zip]
  exact (h.sublist positionalNames_sublist).sublist (List.take_sublist _ _)

/-- **When a call binds**, parameters having different names: there are parameters for all values,
no name is given twice, and the walk over the parameters succeeds. -/
theorem bind_eq_ok_iff_named (h : (s.parameters.map (·.name)).Nodup) :
    s.bind a = .ok bound ↔ a.positional.length ≤ s.positionalNames.length ∧
      (∀ keyword ∈ a.keyword.entries, keyword.1 ∈ s.parameters.map (·.name)) ∧
      ((s.named a).map Prod.fst).Nodup ∧
      collect ⟨s.named a⟩ .empty s.parameters = .ok bound := by
  have hkeys : (s.assignPositional a.positional).keys.Nodup := OrderedMap.nodup_keys_ofList _
  rw [bind_eq_ok_iff, positionalNames, List.length_map]
  refine and_congr_right fun _ => ?_
  simp only [assignKeywords_eq_ok_iff hkeys, entries_assignPositional h, and_assoc, exists_and_left]
  rw [exists_eq_left]
  rfl

/-- **A call that binds, binds alike however it is spelled.** -/
theorem bind_of_respells (hnames : (s.parameters.map (·.name)).Nodup) (h : s.Respells a b)
    (hbind : s.bind a = .ok bound) : s.bind b = .ok bound := by
  obtain ⟨hlength, hknown, hnodup, hcollect⟩ := (bind_eq_ok_iff_named hnames).mp hbind
  have hperm : (s.named b).Perm (s.named a) := h.named_perm hlength
  have hsame : ((s.named b).map Prod.fst).Nodup := (hperm.map Prod.fst).nodup_iff.mpr hnodup
  refine (bind_eq_ok_iff_named hnames).mpr
    ⟨Nat.le_trans h.length_le hlength, fun keyword hkeyword => ?_, hsame, ?_⟩
  · -- a keyword of the new spelling was a keyword before, or the name of a parameter
    exact fst_mem_names hknown (hperm.subset (List.mem_append_right _ hkeyword))
  · rw [← hcollect]
    exact collect_congr fun name => OrderedMap.find?_perm hperm hsame name

/-- What is another spelling of a call is a matter of how the parameters are declared. -/
theorem Respells.of_alike {t : Signature} (h : t.Respells a b)
    (halike : List.Forall₂ Shape.AlikeParameters s.parameters t.parameters) : s.Respells a b := by
  have hsame : s.positionalNames = t.positionalNames := map_name_eq (filter_isPositional halike)
  rw [Respells, hsame]
  exact h

end Signature

end MethodGuard
