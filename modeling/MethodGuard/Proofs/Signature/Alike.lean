/-
# Parameters that are declared alike bind alike

Two lists of parameters that the structural check takes for the same may differ in their defaults,
which are compared as values: one zero may stand for the other, and the entries of a map may come
in another order.  Binding looks at a default only to write it down, so all it decides, it decides
alike for both lists (`Signature.bindsAlike`).

The two walks over the parameters are kept `InStep`.  That a repeated name is harmless is part of
the invariant: a name that fell back has no assigned value left, so no later parameter puts a
supplied value in the place of a default.  It has to be, because a value need not be equal to
itself.
-/
import MethodGuard.Proofs.Signature.Supplied
import MethodGuard.Proofs.Structure.SelfCheck

namespace MethodGuard

open Shape (AlikeParameters)

/-! ## 1. What it is to bind alike -/

/-- **Bound alike**: the same names in the same order, the same of them supplied, with the same
values, and defaults that are equal as values. -/
structure BoundArguments.Alike (b b' : BoundArguments) : Prop where
  names : b.values.keys = b'.values.keys
  defaulted : b.defaulted = b'.defaulted
  supplied : b.supplied = b'.supplied
  defaults : ∀ name ∈ b.defaulted, ∃ v w, b.find? name = some v ∧ b'.find? name = some w ∧
    v.equal w = true

/-- **Results of binding that are alike**: the same refusal, or arguments bound alike. -/
inductive BindsAlike : Except BindError BoundArguments → Except BindError BoundArguments → Prop where
  | refused (e : BindError) : BindsAlike (.error e) (.error e)
  | bound {b b' : BoundArguments} : b.Alike b' → BindsAlike (.ok b) (.ok b')

namespace BindsAlike

variable {r r' : Except BindError BoundArguments}

theorem eq_error (h : BindsAlike r r') {e : BindError} (he : r = .error e) : r' = .error e := by
  cases h with
  | refused => exact he
  | bound => cases he

theorem exists_alike (h : BindsAlike r r') {b : BoundArguments} (hb : r = .ok b) :
    ∃ b', r' = .ok b' ∧ b.Alike b' := by
  cases h with
  | refused => cases hb
  | bound halike =>
    cases hb
    exact ⟨_, rfl, halike⟩

end BindsAlike

/-! ## 2. Maps that agree on some keys -/

namespace OrderedMap

variable {α : Type u} {m m' : OrderedMap α}

/-- Without repeated keys, the entries of certain keys are what looking these up gives. -/
theorem filter_entries_eq (h : m.keys.Nodup) (p : String → Bool) :
    (m.entries.filter fun entry => p entry.1) =
      (m.keys.filter p).filterMap fun key => (m.find? key).map (Prod.mk key) := by
  have hfound : ∀ entry ∈ m.entries.filter fun entry => p entry.1,
      (m.find? entry.1).map (Prod.mk entry.1) = some entry := by
    intro entry hentry
    rw [(find?_eq_some_iff_mem h).mpr (List.mem_of_mem_filter hentry)]
    rfl
  rw [keys, List.filter_map, List.filterMap_map]
  exact (List.filterMap_congr hfound).trans (List.filterMap_some ..) |>.symm

/-- Maps with the same keys that agree on some of these have the same entries for them. -/
theorem filter_entries_congr (hkeys : m.keys = m'.keys) (hnodup : m.keys.Nodup)
    {p : String → Bool} (h : ∀ key, p key = true → m.find? key = m'.find? key) :
    (m.entries.filter fun entry => p entry.1) = m'.entries.filter fun entry => p entry.1 := by
  rw [filter_entries_eq hnodup, filter_entries_eq (hkeys ▸ hnodup), ← hkeys]
  refine List.filterMap_congr fun key hkey => ?_
  rw [h key (List.mem_filter.mp hkey).2]

end OrderedMap

/-! ## 3. The three steps of binding -/

namespace Signature

variable {s t : Signature} {ps qs : List Parameter}

theorem map_name_eq (h : List.Forall₂ AlikeParameters ps qs) :
    ps.map (·.name) = qs.map (·.name) := by
  induction h with
  | nil => rfl
  | cons hpq _ ih => rw [List.map_cons, List.map_cons, hpq.name, ih]

theorem filter_isPositional (h : List.Forall₂ AlikeParameters ps qs) :
    List.Forall₂ AlikeParameters (ps.filter (·.isPositional)) (qs.filter (·.isPositional)) := by
  induction h with
  | nil => exact .nil
  | @cons p q _ _ hpq _ ih =>
    have hkind : p.isPositional = q.isPositional := by
      rw [Parameter.isPositional, Parameter.isPositional, hpq.kind]
    cases hp : p.isPositional with
    | false =>
      rw [List.filter_cons_of_neg (by simp [hp]), List.filter_cons_of_neg (by simp [← hkind, hp])]
      exact ih
    | true =>
      rw [List.filter_cons_of_pos hp, List.filter_cons_of_pos (hkind ▸ hp)]
      exact .cons hpq ih

/-- Whether a name belongs to a parameter is a matter of the names. -/
theorem find?_eq_none_iff {name : String} :
    s.find? name = none ↔ name ∉ s.parameters.map (·.name) := by
  simp [find?]

theorem assignKeywords_congr (h : s.parameters.map (·.name) = t.parameters.map (·.name))
    (assigned : OrderedMap Value) (keywords : List (String × Value)) :
    s.assignKeywords assigned keywords = t.assignKeywords assigned keywords := by
  have hknown (name : String) : (s.find? name).isNone = (t.find? name).isNone := by
    rw [Bool.eq_iff_iff, Option.isNone_iff_eq_none, Option.isNone_iff_eq_none, find?_eq_none_iff,
      find?_eq_none_iff, h]
  induction keywords generalizing assigned with
  | nil => rfl
  | cons keyword rest ih =>
    obtain ⟨name, value⟩ := keyword
    simp only [assignKeywords, hknown, ih]

/-- **Two walks over parameters declared alike**, with the values still to be taken. -/
structure InStep (assigned : OrderedMap Value) (b b' : BoundArguments) : Prop where
  names : b.values.keys = b'.values.keys
  nodup : b.values.keys.Nodup
  defaulted : b.defaulted = b'.defaulted
  supplied : ∀ name, name ∉ b.defaulted → b.find? name = b'.find? name
  defaults : ∀ name ∈ b.defaulted, ∃ v w, b.find? name = some v ∧ b'.find? name = some w ∧
    v.equal w = true
  /-- No name that fell back has a value left to take. -/
  unassigned : ∀ name ∈ b.defaulted, assigned.find? name = none

namespace InStep

variable {assigned : OrderedMap Value} {b b' : BoundArguments} {name : String}

theorem start : InStep assigned .empty .empty where
  names := rfl
  nodup := List.nodup_nil
  defaulted := rfl
  supplied := fun _ _ => rfl
  defaults := fun _ h => nomatch h
  unassigned := fun _ h => nomatch h

theorem alike (h : InStep assigned b b') : b.Alike b' where
  names := h.names
  defaulted := h.defaulted
  supplied := by
    rw [BoundArguments.supplied, BoundArguments.supplied, ← h.defaulted]
    exact OrderedMap.filter_entries_congr h.names h.nodup (p := fun k => !b.defaulted.contains k)
      fun name hname => h.supplied name (by simpa using hname)
  defaults := h.defaults

/-- Both walks take the value that was assigned. -/
theorem supply (h : InStep assigned b b') {value : Value} (hvalue : assigned.find? name = some value) :
    InStep (assigned.erase name) (b.supply name value) (b'.supply name value) where
  names := by
    simp only [BoundArguments.supply, OrderedMap.keys_insert, h.names]
  nodup := OrderedMap.nodup_keys_insert h.nodup _ _
  defaulted := h.defaulted
  supplied := by
    intro other hother
    simp only [BoundArguments.supply, BoundArguments.find?, OrderedMap.find?_insert]
    split
    · rfl
    · exact h.supplied other hother
  defaults := by
    intro other hother
    -- what falls back had no value to take, so it is another name
    have hne : other ≠ name := by
      rintro rfl
      rw [h.unassigned _ hother] at hvalue
      cases hvalue
    simpa only [BoundArguments.supply, BoundArguments.find?, OrderedMap.find?_insert, if_neg hne]
      using h.defaults other hother
  unassigned := by
    intro other hother
    rw [OrderedMap.find?_erase, h.unassigned other hother, ite_self]

/-- Both walks fall back, on defaults that are equal as values. -/
theorem fallBack (h : InStep assigned b b') (hnone : assigned.find? name = none) {v w : Value}
    (hvw : v.equal w = true) : InStep assigned (b.fallBack name v) (b'.fallBack name w) where
  names := by
    simp only [BoundArguments.fallBack, OrderedMap.keys_insert, h.names]
  nodup := OrderedMap.nodup_keys_insert h.nodup _ _
  defaulted := by
    simp only [BoundArguments.fallBack, h.defaulted]
  supplied := by
    intro other hother
    rw [BoundArguments.mem_defaulted_fallBack, not_or] at hother
    simpa only [BoundArguments.fallBack, BoundArguments.find?, OrderedMap.find?_insert,
      if_neg hother.1] using h.supplied other hother.2
  defaults := by
    intro other hother
    simp only [BoundArguments.fallBack, BoundArguments.find?, OrderedMap.find?_insert]
    by_cases hname : other = name
    · simp only [if_pos hname]
      exact ⟨v, w, rfl, rfl, hvw⟩
    · simp only [if_neg hname]
      exact h.defaults other
        ((BoundArguments.mem_defaulted_fallBack.mp hother).resolve_left hname)
  unassigned := by
    intro other hother
    rcases BoundArguments.mem_defaulted_fallBack.mp hother with rfl | hother
    · exact hnone
    · exact h.unassigned other hother

end InStep

theorem collect_alike (h : List.Forall₂ AlikeParameters ps qs) {assigned : OrderedMap Value}
    {b b' : BoundArguments} (hstep : InStep assigned b b') :
    BindsAlike (collect assigned b ps) (collect assigned b' qs) := by
  induction h generalizing assigned b b' with
  | nil => exact .bound hstep.alike
  | @cons p q _ _ hpq _ ih =>
    rw [collect, collect, ← hpq.name]
    cases hvalue : assigned.find? p.name with
    | some value => exact ih (hstep.supply hvalue)
    | none =>
      rcases hpq.fallback with ⟨hp, hq⟩ | ⟨v, w, hp, hq, hvw⟩
      · rw [hp, hq]
        exact .refused _
      · rw [hp, hq]
        exact ih (hstep.fallBack hvalue hvw)

/-- **Parameters that are declared alike bind alike**, whatever the arguments are. -/
theorem bindsAlike (h : List.Forall₂ AlikeParameters s.parameters t.parameters) (a : Arguments) :
    BindsAlike (s.bind a) (t.bind a) := by
  have hpositional : s.positionalParameters.map (·.name) = t.positionalParameters.map (·.name) :=
    map_name_eq (filter_isPositional h)
  have hslots : s.positionalParameters.length = t.positionalParameters.length :=
    (filter_isPositional h).length_eq
  have hassigned : s.assignPositional a.positional = t.assignPositional a.positional := by
    rw [assignPositional, assignPositional, hpositional]
  simp only [bind, hslots, hassigned, assignKeywords_congr (map_name_eq h)]
  split
  · exact .refused _
  · split
    · exact .refused _
    · exact collect_alike h .start

end Signature

end MethodGuard
