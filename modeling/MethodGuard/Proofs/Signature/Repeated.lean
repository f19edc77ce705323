/-
# Arguments lost to a second parameter of their name

Nothing keeps a signature from declaring a name twice, and binding hands values on under names.  A
walk over the parameters that comes to the second parameter of a name finds the value used up by the
first one, and writes a default over it (`Signature.exists_collect_past`).

That is the only way for an argument to be lost, and it spares none: when a call binds, an argument
is kept exactly if its name is declared once, and as many names are reported as supplied as there
are arguments exactly if all of them are (`Signature.argument_kept_iff`).  What is lost is not
checked either (`Signature.exists_lost_argument`).
-/
import Mathlib.Data.List.Perm.Subperm
import MethodGuard.Proofs.Signature.Assignment

namespace MethodGuard

/-! ## 1. Names in bound arguments -/

namespace BoundArguments

variable {b : BoundArguments} {name other : String} {value : Value}

theorem find?_supply : (b.supply name value).find? other =
    if other = name then some value else b.find? other :=
  OrderedMap.find?_insert b.values name other value

theorem find?_fallBack : (b.fallBack name value).find? other =
    if other = name then some value else b.find? other :=
  OrderedMap.find?_insert b.values name other value

/-- Where names do not repeat, what is listed as supplied is what is found under a supplied name. -/
theorem mem_supplied_iff (hb : b.values.keys.Nodup) :
    (name, value) ∈ b.supplied ↔ b.find? name = some value ∧ b.isSupplied name = true := by
  rw [supplied, List.mem_filter, entries, ← OrderedMap.find?_eq_some_iff_mem hb, ← find?]
  refine and_congr_right fun hfound => ?_
  have hkey : name ∈ b.values.keys :=
    (OrderedMap.find?_isSome_iff _ _).mp (Option.isSome_of_eq_some hfound)
  rw [isSupplied_iff, and_iff_right hkey]
  simp

theorem mem_keys_supplied : name ∈ b.supplied.map Prod.fst ↔ b.isSupplied name = true := by
  rw [isSupplied_iff, supplied, entries, List.mem_map]
  constructor
  · rintro ⟨entry, hentry, rfl⟩
    obtain ⟨hmem, hdefaulted⟩ := List.mem_filter.mp hentry
    exact ⟨List.mem_map_of_mem hmem, by simpa using hdefaulted⟩
  · rintro ⟨hmem, hdefaulted⟩
    obtain ⟨entry, hentry, rfl⟩ := List.mem_map.mp hmem
    exact ⟨entry, List.mem_filter.mpr ⟨hentry, by simpa using hdefaulted⟩, rfl⟩

end BoundArguments

namespace Signature

variable {s : Signature} {a : Arguments} {assigned : OrderedMap Value} {b b' : BoundArguments}
  {ps : List Parameter} {name : String} {value : Value}

/-! ## 2. The walk over the parameters -/

/-- The names of the parameters are added to those bound before, and none is there twice. -/
theorem keys_of_collect (h : collect assigned b ps = .ok b') :
    (b.values.keys.Nodup → b'.values.keys.Nodup) ∧
      ∀ other, other ∈ b'.values.keys ↔ other ∈ b.values.keys ∨ other ∈ ps.map (·.name) := by
  induction ps generalizing assigned b with
  | nil =>
    cases h
    simp
  | cons p rest ih =>
    rcases collect_cons_eq_ok_iff.mp h with ⟨value, -, h⟩ | ⟨value, -, -, h⟩
    all_goals
      obtain ⟨hnodup, hkeys⟩ := ih h
      refine ⟨fun hb => hnodup (OrderedMap.nodup_keys_insert hb p.name value), fun other => ?_⟩
      rw [hkeys, List.map_cons, List.mem_cons, ← or_assoc, @or_comm (other ∈ b.values.keys)]
      exact or_congr_left OrderedMap.mem_keys_insert

/-- What walking over one parameter leaves unchanged: all that belongs to other names. -/
theorem exists_collect_of_ne {p : Parameter} (h : collect assigned b (p :: ps) = .ok b')
    (hne : name ≠ p.name) :
    ∃ assigned₁ b₁, assigned₁.find? name = assigned.find? name ∧ b₁.find? name = b.find? name ∧
      (name ∈ b₁.defaulted ↔ name ∈ b.defaulted) ∧ collect assigned₁ b₁ ps = .ok b' := by
  rcases collect_cons_eq_ok_iff.mp h with ⟨value, -, h⟩ | ⟨value, -, -, h⟩
  · refine ⟨assigned.erase p.name, b.supply p.name value, ?_, ?_, Iff.rfl, h⟩
    · rw [OrderedMap.find?_erase, if_neg hne]
    · rw [BoundArguments.find?_supply, if_neg hne]
  · refine ⟨assigned, b.fallBack p.name value, rfl, ?_, ?_, h⟩
    · rw [BoundArguments.find?_fallBack, if_neg hne]
    · rw [BoundArguments.mem_defaulted_fallBack, or_iff_right hne]

/-- A name that belongs to no parameter is left alone. -/
theorem find?_of_collect_of_not_mem (h : collect assigned b ps = .ok b')
    (hname : name ∉ ps.map (·.name)) :
    b'.find? name = b.find? name ∧ (name ∈ b'.defaulted ↔ name ∈ b.defaulted) := by
  induction ps generalizing assigned b with
  | nil =>
    cases h
    exact ⟨rfl, Iff.rfl⟩
  | cons p rest ih =>
    rw [List.map_cons, List.mem_cons, not_or] at hname
    obtain ⟨assigned₁, b₁, -, hfind, hdefaulted, hwalk⟩ := exists_collect_of_ne h hname.1
    rw [← hfind, ← hdefaulted]
    exact ih hwalk hname.2

/-- A parameter whose name has no value left takes a default. -/
theorem exists_fallback_of_collect (h : collect assigned b ps = .ok b')
    (hnone : assigned.find? name = none) (hname : name ∈ ps.map (·.name)) :
    name ∈ b'.defaulted ∧ ∃ p ∈ ps, p.name = name ∧ b'.find? name = p.fallback := by
  obtain ⟨q, hq, hqname⟩ := List.mem_map.mp hname
  refine ⟨mem_defaulted_of_find?_eq_none h hnone hq hqname, ?_⟩
  clear hq hqname
  induction ps generalizing assigned b with
  | nil => cases hname
  | cons p rest ih =>
    -- the last parameter of the name decides
    by_cases hrest : name ∈ rest.map (·.name)
    · have hlater : ∃ p ∈ rest, p.name = name ∧ b'.find? name = p.fallback := by
        rcases collect_cons_eq_ok_iff.mp h with ⟨value, -, h⟩ | ⟨value, -, -, h⟩
        · refine ih h ?_ hrest
          rw [OrderedMap.find?_erase, hnone, ite_self]
        · exact ih h hnone hrest
      obtain ⟨p', hp', hfound⟩ := hlater
      exact ⟨p', List.mem_cons_of_mem p hp', hfound⟩
    · have hp : p.name = name := by
        rw [List.map_cons, List.mem_cons] at hname
        exact (hname.resolve_right hrest).symm
      rcases collect_cons_eq_ok_iff.mp h with ⟨value, hvalue, -⟩ | ⟨value, -, hfallback, h⟩
      · rw [hp, hnone] at hvalue
        cases hvalue
      · refine ⟨p, List.mem_cons_self, hp, ?_⟩
        rw [(find?_of_collect_of_not_mem h hrest).1, BoundArguments.find?_fallBack, if_pos hp.symm,
          hfallback]

/-- **The first parameter of a name takes its value and leaves none** to the parameters after it. -/
theorem exists_collect_past (h : collect assigned b ps = .ok b')
    (hvalue : assigned.find? name = some value) (hname : name ∈ ps.map (·.name)) :
    ∃ before p rest assigned₁ b₁, ps = before ++ p :: rest ∧ name ∉ before.map (·.name) ∧
      p.name = name ∧ assigned₁.find? name = none ∧ b₁.find? name = some value ∧
      (name ∈ b₁.defaulted ↔ name ∈ b.defaulted) ∧ collect assigned₁ b₁ rest = .ok b' := by
  induction ps generalizing assigned b with
  | nil => cases hname
  | cons p rest ih =>
    by_cases hp : p.name = name
    · rcases collect_cons_eq_ok_iff.mp h with ⟨found, hfound, h⟩ | ⟨found, hnone, -, -⟩
      · rw [hp] at hfound h
        rw [hvalue] at hfound
        cases hfound
        refine ⟨[], p, rest, _, b.supply name value, rfl, List.not_mem_nil, hp, ?_, ?_, Iff.rfl, h⟩
        · rw [OrderedMap.find?_erase, if_pos rfl]
        · rw [BoundArguments.find?_supply, if_pos rfl]
      · rw [hp, hvalue] at hnone
        cases hnone
    · have hne : name ≠ p.name := fun heq => hp heq.symm
      have hrest : name ∈ rest.map (·.name) := (List.mem_cons.mp hname).resolve_left hne
      obtain ⟨assigned₁, b₁, hassigned, hfind, hdefaulted, hwalk⟩ := exists_collect_of_ne h hne
      obtain ⟨before, q, after, assigned₂, b₂, rfl, hnew, hq, hused, htaken, hmarked, hwalk⟩ :=
        ih hwalk (hassigned.trans hvalue) hrest
      refine ⟨p :: before, q, after, assigned₂, b₂, rfl, ?_, hq, hused, htaken,
        hmarked.trans hdefaulted, hwalk⟩
      rw [List.map_cons, List.mem_cons, not_or]
      exact ⟨hne, hnew⟩

/-! ## 3. The values that the walk starts with -/

/-- One parameter has the name, and no more. -/
def DeclaresOnce (s : Signature) (name : String) : Prop :=
  (s.parameters.map (·.name)).count name = 1

instance : Decidable (s.DeclaresOnce name) := inferInstanceAs (Decidable (_ = 1))

/-- A name is declared once if no parameter after the first one of the name has it. -/
theorem declaresOnce_iff {before rest : List Parameter} {p : Parameter}
    (hsplit : s.parameters = before ++ p :: rest) (hbefore : name ∉ before.map (·.name))
    (hp : p.name = name) : s.DeclaresOnce name ↔ name ∉ rest.map (·.name) := by
  rw [DeclaresOnce, hsplit, List.map_append, List.map_cons, List.count_append, hp,
    List.count_cons_self, List.count_eq_zero.mpr hbefore, ← List.count_eq_zero]
  omega

/-- Positional values fill a parameter whose name is declared once at most once. -/
theorem DeclaresOnce.count_le_one (honce : s.DeclaresOnce name) (values : List Value) :
    ((s.positionalNames.zip values).map Prod.fst).count name ≤ 1 := by
  have hsublist : (s.positionalNames.take values.length).Sublist (s.parameters.map (·.name)) :=
    (List.take_sublist _ _).trans positionalNames_sublist
  rw [map_fst_zip]
  exact Nat.le_trans (hsublist.count_le name) (Nat.le_of_eq honce)

/-- **The values of a call under the names of their parameters**, as the walk finds them.  A name
that positional values are given for twice has the last of them. -/
structure Assigned (s : Signature) (a : Arguments) (assigned : OrderedMap Value) : Prop where
  length_le : a.positional.length ≤ s.positionalNames.length
  /-- Each keyword names a parameter. -/
  known : ∀ keyword ∈ a.keyword.entries, keyword.1 ∈ s.parameters.map (·.name)
  /-- No keyword names a parameter that a positional value or another keyword is for. -/
  nodup : assigned.keys.Nodup
  entries : assigned.entries = (s.assignPositional a.positional).entries ++ a.keyword.entries

theorem exists_assigned_of_bind (h : s.bind a = .ok b) :
    ∃ assigned, s.Assigned a assigned ∧ collect assigned .empty s.parameters = .ok b := by
  obtain ⟨hlength, assigned, hkeywords, hcollect⟩ := bind_eq_ok_iff.mp h
  obtain ⟨hknown, hnodup, hentries⟩ :=
    (assignKeywords_eq_ok_iff (OrderedMap.nodup_keys_ofList _)).mp hkeywords
  refine ⟨assigned, ⟨?_, hknown, ?_, ?_⟩, hcollect⟩
  · rwa [positionalNames, List.length_map]
  · rwa [hentries]
  · rw [hentries]
    rfl

namespace Assigned

variable (h : s.Assigned a assigned)

include h

/-- The names are those that the call has values for. -/
theorem mem_keys_iff : name ∈ assigned.keys ↔ name ∈ (s.named a).map Prod.fst := by
  rw [OrderedMap.keys, h.entries, named, List.map_append, List.map_append, List.mem_append,
    List.mem_append]
  exact or_congr_left OrderedMap.mem_keys_ofList

theorem exists_find? (hname : name ∈ (s.named a).map Prod.fst) :
    ∃ value, assigned.find? name = some value :=
  Option.isSome_iff_exists.mp ((OrderedMap.find?_isSome_iff _ _).mpr (h.mem_keys_iff.mpr hname))

/-- There are as many names as arguments. -/
theorem length_named : (s.named a).length = a.size := by
  rw [named, List.length_append, List.length_zip, Nat.min_eq_right h.length_le]
  rfl

theorem mem_names (hname : name ∈ (s.named a).map Prod.fst) : name ∈ s.parameters.map (·.name) := by
  obtain ⟨entry, hentry, rfl⟩ := List.mem_map.mp hname
  exact fst_mem_names h.known hentry

/-- The value under a name that is declared once is the one that the call has for it. -/
theorem find?_of_declaresOnce (hentry : (name, value) ∈ s.named a) (honce : s.DeclaresOnce name) :
    assigned.find? name = some value := by
  rw [OrderedMap.find?_eq_some_iff_mem h.nodup, h.entries, List.mem_append]
  refine (List.mem_append.mp hentry).imp_left fun hpositional => ?_
  exact OrderedMap.mem_entries_of_find?
    (OrderedMap.find?_foldl_insert_of_mem (honce.count_le_one _) hpositional)

/-- If all names that the call has values for are declared once, it has one value for each. -/
theorem nodup_named (honce : ∀ entry ∈ s.named a, s.DeclaresOnce entry.1) :
    ((s.named a).map Prod.fst).Nodup := by
  have hkeys := h.nodup
  rw [OrderedMap.keys, h.entries, List.map_append, List.nodup_append] at hkeys
  rw [named, List.map_append, List.nodup_append]
  refine ⟨?_, hkeys.2.1, ?_⟩
  · rw [List.nodup_iff_count]
    intro name
    by_cases hname : name ∈ (s.positionalNames.zip a.positional).map Prod.fst
    · obtain ⟨entry, hentry, rfl⟩ := List.mem_map.mp hname
      exact (honce entry (List.mem_append_left _ hentry)).count_le_one _
    · rw [List.count_eq_zero.mpr hname]
      exact Nat.zero_le 1
  · intro name hname
    exact hkeys.2.2 name (OrderedMap.mem_keys_ofList.mpr hname)

end Assigned

/-! ## 4. What becomes of an argument -/

/-- A value is kept under a name that one parameter has. -/
theorem kept_of_declaresOnce (h : collect assigned .empty s.parameters = .ok b)
    (hvalue : assigned.find? name = some value) (honce : s.DeclaresOnce name) :
    b.find? name = some value ∧ b.isSupplied name = true := by
  have hname : name ∈ s.parameters.map (·.name) :=
    List.count_pos_iff.mp (by rw [honce]; exact Nat.one_pos)
  obtain ⟨before, p, rest, assigned₁, b₁, hsplit, hbefore, hp, -, hfind, hdefaulted, hwalk⟩ :=
    exists_collect_past h hvalue hname
  have hrest : name ∉ rest.map (·.name) := (declaresOnce_iff hsplit hbefore hp).mp honce
  obtain ⟨hkept, hunmarked⟩ := find?_of_collect_of_not_mem hwalk hrest
  refine ⟨hkept.trans hfind, BoundArguments.isSupplied_iff.mpr ⟨?_, ?_⟩⟩
  · exact ((keys_of_collect h).2 name).mpr (Or.inr hname)
  · rw [hunmarked, hdefaulted]
    exact List.not_mem_nil

/-- A value is lost under a name that two parameters have. -/
theorem lost_of_not_declaresOnce (h : collect assigned .empty s.parameters = .ok b)
    (hvalue : assigned.find? name = some value) (hname : name ∈ s.parameters.map (·.name))
    (htwice : ¬ s.DeclaresOnce name) :
    b.isSupplied name = false ∧ ∃ p ∈ s.parameters, p.name = name ∧ b.find? name = p.fallback := by
  obtain ⟨before, p, rest, assigned₁, b₁, hsplit, hbefore, hp, hused, -, -, hwalk⟩ :=
    exists_collect_past h hvalue hname
  have hrest : name ∈ rest.map (·.name) :=
    not_not.mp fun hrest => htwice ((declaresOnce_iff hsplit hbefore hp).mpr hrest)
  obtain ⟨hdefaulted, q, hq, hqname, hfind⟩ := exists_fallback_of_collect hwalk hused hrest
  refine ⟨?_, q, ?_, hqname, hfind⟩
  · rw [Bool.eq_false_iff]
    exact fun hsupplied => (BoundArguments.isSupplied_iff.mp hsupplied).2 hdefaulted
  · rw [hsplit]
    exact List.mem_append_right _ (List.mem_cons_of_mem p hq)

/-- **The names reported as supplied** are those that the call has a value for and that are
declared once. -/
theorem isSupplied_iff_named (h : s.Assigned a assigned)
    (hcollect : collect assigned .empty s.parameters = .ok b) :
    b.isSupplied name = true ↔ name ∈ (s.named a).map Prod.fst ∧ s.DeclaresOnce name := by
  constructor
  · intro hsupplied
    obtain ⟨hkey, hdefaulted⟩ := BoundArguments.isSupplied_iff.mp hsupplied
    have hname : name ∈ s.parameters.map (·.name) :=
      (((keys_of_collect hcollect).2 name).mp hkey).resolve_left List.not_mem_nil
    cases hvalue : assigned.find? name with
    | none => exact absurd (exists_fallback_of_collect hcollect hvalue hname).1 hdefaulted
    | some value =>
      refine ⟨h.mem_keys_iff.mp ((OrderedMap.find?_isSome_iff _ _).mp (hvalue ▸ rfl)), ?_⟩
      by_contra htwice
      rw [(lost_of_not_declaresOnce hcollect hvalue hname htwice).1] at hsupplied
      cases hsupplied
  · rintro ⟨hname, honce⟩
    obtain ⟨value, hvalue⟩ := h.exists_find? hname
    exact (kept_of_declaresOnce hcollect hvalue honce).2

/-- What is listed as supplied is what the call has for the names that are declared once. -/
theorem mem_supplied_iff_named (h : s.Assigned a assigned)
    (hcollect : collect assigned .empty s.parameters = .ok b) :
    (name, value) ∈ b.supplied ↔ (name, value) ∈ s.named a ∧ s.DeclaresOnce name := by
  rw [BoundArguments.mem_supplied_iff ((keys_of_collect hcollect).1 List.nodup_nil),
    isSupplied_iff_named h hcollect]
  constructor
  · rintro ⟨hfound, hname, honce⟩
    obtain ⟨⟨name, given⟩, hentry, rfl⟩ := List.mem_map.mp hname
    have hkept :=
      (kept_of_declaresOnce hcollect (h.find?_of_declaresOnce hentry honce) honce).1
    rw [hfound] at hkept
    cases hkept
    exact ⟨hentry, honce⟩
  · rintro ⟨hentry, honce⟩
    exact ⟨(kept_of_declaresOnce hcollect (h.find?_of_declaresOnce hentry honce) honce).1,
      List.mem_map_of_mem hentry, honce⟩

/-- **The type check of a call** is one of the arguments for names that are declared once. -/
theorem checkArguments_eq_ok_iff_named {method : String} {strategy : CollectionCheck}
    (hbind : s.bind a = .ok b) : checkArguments method s b strategy = .ok () ↔
      ∀ name value, (name, value) ∈ s.named a → s.DeclaresOnce name →
        ∀ p ∈ s.parameters, p.name = name → ∀ spec, p.declared = some spec →
          spec.check strategy value = .ok () := by
  obtain ⟨assigned, hassigned, hcollect⟩ := exists_assigned_of_bind hbind
  rw [checkArguments, checkSupplied_eq_ok_iff]
  constructor
  · intro hchecks name value hentry honce p hp hname
    have hsupplied : b.isSupplied name = true :=
      (isSupplied_iff_named hassigned hcollect).mpr ⟨List.mem_map_of_mem hentry, honce⟩
    exact hchecks name value ((mem_supplied_iff_named hassigned hcollect).mpr ⟨hentry, honce⟩) p
      (find?_of_bind hbind (BoundArguments.isSupplied_iff.mp hsupplied).2 hp hname)
  · intro hchecks name value hsupplied p hfound
    obtain ⟨hentry, honce⟩ := (mem_supplied_iff_named hassigned hcollect).mp hsupplied
    have hname : p.name = name := by simpa using List.find?_some hfound
    exact hchecks name value hentry honce p (List.mem_of_find?_eq_some hfound) hname

/-- **As many names are reported as supplied as there are arguments** exactly if each argument is
for a name that is declared once. -/
theorem length_supplied_eq_size_iff (h : s.Assigned a assigned)
    (hcollect : collect assigned .empty s.parameters = .ok b) :
    b.supplied.length = a.size ↔ ∀ entry ∈ s.named a, s.DeclaresOnce entry.1 := by
  have hnodup : (b.supplied.map Prod.fst).Nodup :=
    ((keys_of_collect hcollect).1 List.nodup_nil).sublist (List.filter_sublist.map _)
  have hmem : ∀ name, name ∈ b.supplied.map Prod.fst ↔
      name ∈ (s.named a).map Prod.fst ∧ s.DeclaresOnce name := fun name =>
    BoundArguments.mem_keys_supplied.trans (isSupplied_iff_named h hcollect)
  have hlengths : b.supplied.length = a.size ↔
      (b.supplied.map Prod.fst).length = ((s.named a).map Prod.fst).length := by
    rw [List.length_map, List.length_map, h.length_named]
  rw [hlengths]
  constructor
  · intro hlength entry hentry
    have hsubperm : (b.supplied.map Prod.fst).Subperm ((s.named a).map Prod.fst) :=
      List.subperm_of_subset hnodup fun name hname => ((hmem name).mp hname).1
    have hperm := hsubperm.perm_of_length_le (Nat.le_of_eq hlength.symm)
    exact ((hmem entry.1).mp (hperm.mem_iff.mpr (List.mem_map_of_mem hentry))).2
  · intro honce
    refine ((List.perm_ext_iff_of_nodup hnodup (h.nodup_named honce)).mpr fun name => ?_).length_eq
    rw [hmem name]
    refine and_iff_left_of_imp fun hname => ?_
    obtain ⟨entry, hentry, rfl⟩ := List.mem_map.mp hname
    exact honce entry hentry

/-! ## 5. Binding -/

/-- **A call that binds keeps an argument exactly if its name is declared once**, whether it was
given by position or by keyword: only then is the value found under the name, the name reported as
supplied, the argument counted and its type checked.  Of the other arguments nothing is left, and a
parameter of their name has put its default there. -/
theorem argument_kept_iff (h : s.bind a = .ok b) :
    (∀ name value, (name, value) ∈ s.named a →
      (s.DeclaresOnce name → b.find? name = some value ∧ b.isSupplied name = true) ∧
      (¬ s.DeclaresOnce name → b.isSupplied name = false ∧
        ∃ p ∈ s.parameters, p.name = name ∧ b.find? name = p.fallback)) ∧
    (b.supplied.length = a.size ↔ ∀ entry ∈ s.named a, s.DeclaresOnce entry.1) ∧
    ∀ method strategy, checkArguments method s b strategy = .ok () ↔
      ∀ name value, (name, value) ∈ s.named a → s.DeclaresOnce name →
        ∀ p ∈ s.parameters, p.name = name → ∀ spec, p.declared = some spec →
          spec.check strategy value = .ok () := by
  obtain ⟨assigned, hassigned, hcollect⟩ := exists_assigned_of_bind h
  refine ⟨fun name value hentry => ⟨fun honce => ?_, fun htwice => ?_⟩,
    length_supplied_eq_size_iff hassigned hcollect,
    fun method strategy => checkArguments_eq_ok_iff_named h⟩
  · exact kept_of_declaresOnce hcollect (hassigned.find?_of_declaresOnce hentry honce) honce
  · have hname : name ∈ (s.named a).map Prod.fst := List.mem_map_of_mem hentry
    obtain ⟨found, hfound⟩ := hassigned.exists_find? hname
    exact lost_of_not_declaresOnce hcollect hfound (hassigned.mem_names hname) htwice

/-- A method that was given its parameter twice, the second time with a default. -/
def payment : Signature :=
  (empty.param (.typed "amount" .integer)).param
    ⟨"amount", some .integer, .positionalOrKeyword, some (.integer 9)⟩

theorem argument_kept_iff_payment :
    let noted := payment.param (.typed "note" .string)
    let call := (Arguments.ofValues [.integer 10]).kwarg "note" (.string "rent")
    ∃ b, noted.bind call = .ok b ∧
      (b.find? "note" = some (.string "rent") ∧ b.isSupplied "note" = true) ∧
      b.isSupplied "amount" = false ∧ b.supplied.length ≠ call.size := by
  intro noted call
  obtain ⟨b, hbind⟩ : ∃ b, noted.bind call = .ok b := ⟨_, rfl⟩
  have hnote : ("note", .string "rent") ∈ noted.named call := List.mem_of_getLast? rfl
  have hamount : ("amount", .integer 10) ∈ noted.named call := List.mem_of_head? rfl
  have honce : noted.DeclaresOnce "note" := by decide
  have htwice : ¬ noted.DeclaresOnce "amount" := by decide
  obtain ⟨hargument, hlength, -⟩ := argument_kept_iff hbind
  exact ⟨b, hbind, (hargument _ _ hnote).1 honce, ((hargument _ _ hamount).2 htwice).1,
    fun hsame => htwice (hlength.mp hsame _ hamount)⟩

/-- **A lost argument**: the amount that the caller gives is replaced by the default of the second
parameter, is not among what is reported as supplied, and passes the type check though it is a
text. -/
theorem exists_lost_argument :
    let call := Arguments.ofValues [.string "ten"]
    ("amount", .string "ten") ∈ payment.named call ∧
    ∃ b, payment.bind call = .ok b ∧ b.find? "amount" = some (.integer 9) ∧
      b.isSupplied "amount" = false ∧ b.supplied.length ≠ call.size ∧
      checkArguments "pay" payment b .allItems = .ok () ∧
      TypeSpec.integer.check .allItems (.string "ten") ≠ .ok () := by
  intro call
  refine ⟨List.mem_of_head? rfl, _, rfl, rfl, rfl, ?_, rfl, ?_⟩
  · decide
  · simp [TypeSpec.check]

end Signature

end MethodGuard
